import RedfishCtl.PyText

/-! The discovery crawl of one BMC: it visits each resource once and keeps the status of every URL
it asked for, a file for every body, and the maps that a replay reads. -/
namespace RedfishCtl.Discovery
open AssocList

abbrev Bmc := String → Nat × Json

structure Directory where
  files : List (String × Json)
  npy : Option Json
  deriving DecidableEq

structure FileSystem where
  accepts : String → Bool

def write (fs : FileSystem) (name : String) (content : Json) (files : List (String × Json)) :
    Except PyError (List (String × Json)) :=
  if fs.accepts name then .ok (insert name content files)
  else .error (.other "OSError" ("cannot open " ++ name))

def contains (part : List Char) : List Char → Bool
  | [] => part.isEmpty
  | c::rest => part.isPrefixOf (c::rest) || contains part rest

def collapse : List Char → List Char
  | '/' :: '/'::rest => collapse ('/'::rest)
  | c::rest => c::collapse rest
  | [] => []

/- The query and the fragment are dropped, runs of slashes become one, and a trailing slash
goes. -/
def normalizeResourcePath (resourcePath : String) : String :=
  let path := collapse ((resourcePath.toList.takeWhile (· ≠ '?')).takeWhile (· ≠ '#'))
  if 1 < path.length then
    let stripped := PyText.dropEnd (· = '/') path
    String.ofList (if stripped.isEmpty then path else stripped)
  else String.ofList path

def defaultQueryFilter : List String :=
  ["LogServices/Sel/Entries","JID_","StdSecbootpolicy.","Signatures/StdSecbootpolicy.",
    "Lclog/Entries/"]

def filtered (path : String) : Bool :=
  defaultQueryFilter.any fun part => contains part.toList path.toList

def after (part text : List Char) : Option (List Char) :=
  if part.isPrefixOf text then some (text.drop part.length) else none

def entryHere (text : List Char) : Bool :=
  match after "/LogServices/".toList text with
  | none => false
  | some rest =>
      let service := rest.takeWhile (· ≠ '/')
      match after "/Entries/".toList (rest.drop service.length) with
      | some (c::_) => !service.isEmpty && c ≠ '\n'
      | _ => false

def logEntryMember : List Char → Bool
  | [] => false
  | c::rest => entryHere (c::rest) || logEntryMember rest

def reference (m : List (String × Json)) (key : String) : List String :=
  match m.lookup key with
  | some (.str s) => [s]
  | _ => []

mutual
def extractOdataIds : Json → List String
  | .obj m => reference m "@odata.id" ++ reference m "Uri" ++ extractMembers m
  | .arr items => extractItems items
  | .null => [] | .bool _ => [] | .int _ => [] | .float _ => [] | .str _ => []
termination_by structural j => j
def extractItems : List Json → List String
  | [] => []
  | j::rest => extractOdataIds j ++ extractItems rest
termination_by structural l => l
def extractMembers : List (String × Json) → List String
  | [] => []
  | (_,j)::rest => extractOdataIds j ++ extractMembers rest
termination_by structural l => l
end

structure Crawl where
  visited : List String
  status : List (String × Nat)
  urlFiles : List (String × String)
  errorFiles : List (String × String)
  files : List (String × Json)
  deriving DecidableEq

def isOk (status : Nat) : Bool := 200 ≤ status && status < 300

def flatten (path : String) : String :=
  String.ofList (path.toList.map fun c => if c = '/' then '_' else c)

def join (directory name : String) : String :=
  if directory.toList.getLast? = some '/' then directory ++ name else directory ++ "/" ++ name

def fileName (path : String) (status : Nat) : String :=
  flatten path ++ if isOk status then ".json" else ".error.json"

section
variable (fs : FileSystem) (directory : String) (bmc : Bmc)

def visit (path : String) (c : Crawl) : Crawl := { c with visited := path::c.visited }

def capture (path : String) (c : Crawl) : Except PyError Crawl := do
  let status := (bmc path).1
  let file := join directory (fileName path status)
  let files ← write fs (fileName path status) (bmc path).2 c.files
  .ok ⟨path::c.visited,insert path status c.status,
    if isOk status then insert path file c.urlFiles else c.urlFiles,
    if isOk status then c.errorFiles else insert path file c.errorFiles,files⟩

def walkLinks (walk : String → Crawl → Except PyError Crawl) :
    List String → Crawl → Except PyError Crawl
  | [], c => .ok c
  | link::rest, c => do walkLinks walk rest (← walk link c)

def recursiveDiscovery (includeLogEntries : Bool) : Nat → String → Crawl → Except PyError Crawl
  | 0, _, c => .ok c
  | levels+1, resourcePath, c =>
      let path := normalizeResourcePath resourcePath
      if filtered path || (!includeLogEntries && logEntryMember path.toList) then .ok (visit path c)
      else if c.visited.contains path || !"/redfish/v1".toList.isPrefixOf path.toList then .ok c
      else do
        let c ← capture fs directory bmc path c
        if isOk (bmc path).1 then
          walkLinks (recursiveDiscovery includeLogEntries levels) (extractOdataIds (bmc path).2) c
        else .ok c

def maxDepth : Nat := 32

def serviceRoot : String := "/redfish/v1/"
def serviceRootFile : String := "_redfish_v1.json"

/- The exception of a query that fails; its message is not modelled. -/
def queryError (status : Nat) : PyError :=
  .other (if status = 401 then "RedfishUnauthorized" else if status = 403 then "RedfishForbidden"
    else "ResourceNotFound") ""

def seed (files : List (String × Json)) : Crawl :=
  ⟨["/redfish/v1/CompositionService","/redfish/v1"],[(serviceRoot,200)],
    [(serviceRoot,join directory serviceRootFile)],[],files⟩

def crawl (includeLogEntries : Bool) : Except PyError Crawl :=
  if isOk (bmc serviceRoot).1 then do
    let files ← write fs serviceRootFile (bmc serviceRoot).2 []
    walkLinks (recursiveDiscovery fs directory bmc includeLogEntries (maxDepth+1))
      (extractOdataIds (bmc serviceRoot).2) (seed directory files)
  else .error (queryError (bmc serviceRoot).1)

end

def restApiStatusMapJson : String := "rest_api_map.status.json"
def restApiMapNpy : String := "rest_api_map.npy"

def statusMapping (c : Crawl) : Json := .obj (c.status.map fun p => (p.1,.int p.2))
def fileMapping (files : List (String × String)) : Json := .obj (files.map fun p => (p.1,.str p.2))

def sidecar (c : Crawl) : Json :=
  .obj [("http_status_mapping",statusMapping c),("error_file_mapping",fileMapping c.errorFiles)]

/- The map of allowed methods, which no replay reads, is left out. -/
def mappings (c : Crawl) : Json :=
  .obj [("url_file_mapping",fileMapping c.urlFiles),("http_status_mapping",statusMapping c),
    ("error_file_mapping",fileMapping c.errorFiles)]

def saveUrlFileMapping (fs : FileSystem) (c : Crawl) : Except PyError Directory :=
  if fs.accepts restApiMapNpy then do
    let files ← write fs restApiStatusMapJson (sidecar c) c.files
    .ok ⟨files,some (mappings c)⟩
  else .error (.other "OSError" ("cannot open " ++ restApiMapNpy))

def execute (fs : FileSystem) (directory : String) (bmc : Bmc) (includeLogEntries : Bool) :
    Except PyError (Crawl × Directory) := do
  let c ← crawl fs directory bmc includeLogEntries
  let saved ← saveUrlFileMapping fs c
  .ok (c,saved)

end RedfishCtl.Discovery
