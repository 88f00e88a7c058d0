import RedfishCtl.Discovery
import RedfishCtl.PosixPath
import RedfishCtl.PyUrl

/-! The routes of the corpus converter: the canonical form of a Redfish reference, the flat name
that a route has in a capture, and its place in the converted tree. -/
namespace RedfishCtl.CorpusTree

abbrev Bytes := List UInt8

/- What the converter uses of its language: str.casefold and str.lower, json.loads of the bytes, the
XML parser, and the checks of urlsplit on a host. -/
structure Runtime where
  casefold : String → String
  lower : String → String
  loads : Bytes → Except PyError Json
  fromstring : Bytes → Except PyError (Option String)
  refusesHost : List Char → Bool

def serviceRoot : String := "/redfish/v1"

inductive Disposition where
  | unresolved
  | excluded
  deriving DecidableEq, Repr

structure RouteError where
  reason : String
  disposition : Disposition
  deriving DecidableEq, Repr

/- A route that the directory protocol cannot represent, or an exception that nobody catches. -/
inductive Failure where
  | route (e : RouteError)
  | python (e : PyError)
  deriving DecidableEq, Repr

def refuse (reason : String) (disposition : Disposition) : Except Failure String :=
  .error (.route ⟨reason,disposition⟩)

def isHex (c : Char) : Bool := (PyUrl.hexValue c).isSome

def escapesOk : List Char → Bool
  | [] => true
  | c::rest => (c ≠ '%' || match rest with
      | a::b::_ => isHex a && isHex b
      | _ => false) && escapesOk rest

def encodedSeparator : List Char → Bool
  | [] => false
  | c::rest => (c = '%' && match rest with
      | a::b::_ => (a = '2' && (b = 'f' || b = 'F')) || (a = '5' && (b = 'c' || b = 'C'))
      | _ => false) || encodedSeparator rest

def dropSlash (path : List Char) : List Char :=
  if path = (serviceRoot ++ "/").toList then serviceRoot.toList
  else if path.getLast? = some '/' then path.dropLast
  else path

def checkPath (path : List Char) : Except Failure String :=
  if path.head? ≠ some '/' then refuse "relative-uri" .unresolved
  else if path ≠ serviceRoot.toList ∧ !(serviceRoot ++ "/").toList.isPrefixOf path then
    refuse "outside-redfish-v1" .excluded
  else
    let suffix := path.drop serviceRoot.length
    let segments := (suffix.drop 1).splitOn '/'
    if suffix.isEmpty then .ok (String.ofList path)
    else if segments.any (· = []) then refuse "empty-internal-segment" .unresolved
    else if segments.any (· = ['.']) then refuse "dot-segment" .unresolved
    else if segments.any (· = ['.','.']) then refuse "dot-dot-segment" .unresolved
    else .ok (String.ofList path)

def canonicalizeRoute (rt : Runtime) (candidate : String) : Except Failure String :=
  if candidate = "" then refuse "route is not a non-empty string" .unresolved
  else match PyUrl.urlsplit candidate with
  | .error e => .error (.python e)
  | .ok parsed =>
    if !parsed.netloc.isEmpty && rt.refusesHost parsed.netloc then
      .error (.python (.valueError "Invalid URL host"))
    else if !parsed.scheme.isEmpty then refuse "scheme-not-allowed" .excluded
    else if !parsed.netloc.isEmpty then refuse "authority-not-allowed" .excluded
    else if !escapesOk parsed.path then refuse "malformed-percent-encoding" .unresolved
    else if encodedSeparator parsed.path then refuse "encoded-path-separator" .unresolved
    else if !parsed.query.isEmpty then refuse "query-variant" .unresolved
    else if !parsed.fragment.isEmpty then refuse "fragment-selector" .excluded
    else
      let path := PyUrl.unquote parsed.path
      if path.contains '\\' then refuse "backslash" .unresolved
      else if path.contains (Char.ofNat 0) then refuse "nul" .unresolved
      else checkPath (dropSlash path)

def stripSlashes (text : String) : String := PyText.stripChars (· = '/') text

def forwardFilename (route suffix : String) : String :=
  "_" ++ Discovery.flatten (stripSlashes route) ++ suffix

def destinationForRoute (route : String) (xml : Bool) : String :=
  let suffix := stripSlashes (String.ofList (route.toList.drop serviceRoot.length))
  let terminal := if xml then "index.xml" else "index.json"
  if suffix = "" then terminal else suffix ++ "/" ++ terminal

mutual
/- The string values of "@odata.id", of which every use takes the set. -/
def iterOdataIds : Json → List String
  | .obj m => iterMembers m
  | .arr items => iterItems items
  | .null => [] | .bool _ => [] | .int _ => [] | .float _ => [] | .str _ => []
termination_by structural j => j
def iterItems : List Json → List String
  | [] => []
  | j::rest => iterOdataIds j ++ iterItems rest
termination_by structural l => l
def iterMembers : List (String × Json) → List String
  | [] => []
  | (key,j)::rest => (match key, j with
      | "@odata.id", .str s => [s]
      | _, _ => []) ++ iterOdataIds j ++ iterMembers rest
termination_by structural l => l
end

end RedfishCtl.CorpusTree
