import RedfishCtl.CorpusTree

/-! A converted tree on disk and the mock server on it: where the server finds the service root, and
how it maps request paths onto files. File names are case-sensitive, and there are no symbolic
links. -/
namespace RedfishCtl.MockTree
open AssocList
open CorpusTree (Bytes Conversion Report conversionError stripSlashes sortedNames)
open PosixPath (Path parts render normal)

abbrev Tree := List (String × Bytes)

def pathOf (name : String) : Path := parts name.toList
def nameOf (path : Path) : String := String.ofList (render path)

def isFile (t : Tree) (path : Path) : Bool := (keys t).contains (nameOf path)

def passesThrough (path other : Path) : Bool := other.length < path.length && other.isPrefixOf path

def writeFile (t : Tree) (p : String × Bytes) : Except PyError Tree :=
  let path := pathOf p.1
  if (keys t).any fun name => passesThrough path (pathOf name) then
    .error (.other "NotADirectoryError" (nameOf path))
  else if (keys t).any fun name => passesThrough (pathOf name) path then
    .error (.other "IsADirectoryError" (nameOf path))
  else .ok (AssocList.insert (nameOf path) p.2 t)

structure Output where
  profile : Option Tree
  report : Option Report

def existingTreeFindings (t : Tree) (payloads : List (String × Bytes)) : List String :=
  let expected := keys payloads
  let actual := keys t
  (sortedNames (expected.filter fun name => !actual.contains name)).map ("missing file: " ++ ·) ++
  (sortedNames (actual.filter fun name => !expected.contains name)).map ("unexpected file: " ++ ·) ++
  (sortedNames (expected.filter fun name =>
    actual.contains name && t.lookup name ≠ payloads.lookup name)).map ("content mismatch: " ++ ·)

def reportName (c : Conversion) : String := c.report.profileId ++ ".conversion.json"

def mismatch (what : String) : PyError := conversionError ("existing output mismatch: " ++ what)

def findingsOf (c : Conversion) : Option Tree → List String
  | none => []
  | some t => existingTreeFindings t c.payloads

def createTree (c : Conversion) : Option Tree → Except PyError Tree
  | some t => .ok t
  | none => (Buckets.sortedItems (· ≤ ·) c.payloads).foldlM writeFile []

def materialize (c : Conversion) (out : Output) : Except PyError Output :=
  if !c.report.passed then
    .error (conversionError "materialize requires a conversion plan with result=pass")
  else
    let findings := findingsOf c out.profile
    if !findings.isEmpty then .error (mismatch ("; ".intercalate (findings.take 5)))
    else if (out.report.map fun report => decide (report ≠ c.report)).getD false then
      .error (mismatch (reportName c))
    else do
      let tree ← createTree c out.profile
      .ok ⟨some tree,some c.report⟩

def mockupIndex : List Char := "index.json".toList

def mockupServiceRoot (t : Tree) : Except PyError Path :=
  let prefixed := ["redfish".toList,"v1".toList]
  if isFile t (prefixed ++ [mockupIndex]) then .ok prefixed
  else if isFile t [mockupIndex] then .ok []
  else .error (.other "FileNotFoundError" ("no DSP2043 service root: neither " ++
    "redfish/v1/index.json nor index.json exists"))

def contained (base root : Path) (t : Tree) (candidate : Path) : Option Path :=
  let resolved := normal (base ++ candidate)
  if (base ++ root).isPrefixOf resolved && isFile t (resolved.drop base.length) then
    some (resolved.drop base.length)
  else none

def mockupFileForRedfishPath (base : Path) (t : Tree) (root : Path) (requestPath : String) :
    Except PyError (Option Path) := do
  let path ← PyUrl.normalizeRequestPath requestPath
  if path ≠ "/redfish/v1" ∧ !"/redfish/v1/".toList.isPrefixOf path.toList then .ok none
  else
    let subpath := stripSlashes (String.ofList (path.toList.drop "/redfish/v1".length))
    if subpath = "" then .ok (some (root ++ [mockupIndex]))
    else if subpath.toList.contains (Char.ofNat 0) then .error (.valueError "embedded null byte")
    else
      let metadata := if subpath = "$metadata" then
        [root ++ ["$metadata".toList,"index.xml".toList]] else []
      let candidates := metadata ++ [root ++ parts subpath.toList ++ [mockupIndex],
        root ++ parts subpath.toList]
      .ok (candidates.findSome? (contained base root t))

end RedfishCtl.MockTree
