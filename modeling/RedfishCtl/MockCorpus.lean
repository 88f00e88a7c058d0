import RedfishCtl.Discovery
import RedfishCtl.PyUrl

/-! The mock server on a captured corpus, without a write engine and without a pod identity:
loading the maps, the index of the fixtures, and what a GET serves. -/
namespace RedfishCtl.MockCorpus
open AssocList
open Discovery (Directory restApiStatusMapJson)
open PyUrl (normalizeRequestPath)

/- str.lower, which keeps underscores, the order in which a directory lists its files, whether numpy
can be imported, and the file that a relative mapped name resolves to. -/
structure Platform where
  lower : String → String
  underscore : ∀ s, (lower s).toList.head? = some '_' ↔ s.toList.head? = some '_'
  listing : List (String × Json) → List (String × Json)
  listed : ∀ files, (listing files).Perm files
  numpy : Bool
  resolve : String → Option String

def endsWith (suffix s : String) : Bool := suffix.toList.isSuffixOf s.toList

def buildFixtureIndex (platform : Platform) (files : List (String × Json)) : List (String × String) :=
  ((platform.listing files).filter fun p => endsWith ".json" p.1).foldl
    (fun index p => AssocList.insert (platform.lower p.1) p.1 index) []

def mapPath (root name : String) : String := root ++ "/" ++ name

def mappingKeys : List String := ["url_file_mapping","http_status_mapping","error_file_mapping"]

def sectionError (path key : String) : PyError :=
  .valueError (key ++ " must be an object in Redfish API map: " ++ path)

def statusError (kind path requestPath : String) : PyError :=
  .valueError ("http_status_mapping values must be " ++ kind ++ " in Redfish API map: " ++ path ++
    " (" ++ PyText.reprString requestPath ++ ")")

def validateStatus (path requestPath : String) (raw : Json) : Except PyError Int :=
  match PyText.int raw with
  | .ok status =>
      if status < 100 ∨ 599 < status then .error (statusError "valid HTTP statuses" path requestPath)
      else .ok status
  | .error (.typeError _) => .error (statusError "integer HTTP statuses" path requestPath)
  | .error (.valueError _) => .error (statusError "integer HTTP statuses" path requestPath)
  | .error e => .error e

def validateStatuses (path : String) : List (String × Json) → Except PyError (List (String × Json))
  | [] => .ok []
  | (requestPath,raw)::rest => do
      let status ← validateStatus path requestPath raw
      let others ← validateStatuses path rest
      .ok ((requestPath,.int status)::others)

def validateSections (path : String) (apiMap : List (String × Json)) :
    List String → Except PyError Unit
  | [] => .ok ()
  | key::rest => match apiMap.lookup key with
      | none | some .null | some (.obj _) => validateSections path apiMap rest
      | some _ => .error (sectionError path key)

def validateRestApiMap (path : String) (apiMap : List (String × Json)) :
    Except PyError (List (String × Json)) := do
  validateSections path apiMap mappingKeys
  match apiMap.lookup "http_status_mapping" with
  | some (.obj statuses) => do
      let statuses ← validateStatuses path statuses
      .ok (AssocList.insert "http_status_mapping" (.obj statuses) apiMap)
  | _ => .ok apiMap

def notAnObject (path : String) : PyError :=
  .valueError ("Redfish API map must contain an object: " ++ path)

def required (path : String) (apiMap : List (String × Json)) : List String → Except PyError Unit
  | [] => .ok ()
  | key::rest =>
      if (apiMap.lookup key).isSome then required path apiMap rest
      else .error (.valueError (key ++ " is required in Redfish API map: " ++ path))

def replayKeys : List String := ["http_status_mapping","error_file_mapping"]

def loadRestApiMapJson (path : String) : Json → Except PyError (List (String × Json))
  | .obj apiMap => do
      required path apiMap replayKeys
      validateRestApiMap path apiMap
  | _ => .error (notAnObject path)

def loadRestApiMapNpy (numpy : Bool) (path : String) (data : Json) :
    Except PyError (List (String × Json)) :=
  if !numpy then .error (.valueError ("NumPy is required to load Redfish API map: " ++ path))
  else match data with
    | .obj apiMap => validateRestApiMap path apiMap
    | _ => .error (notAnObject path)

def overlaySidecar (legacy sidecar : List (String × Json)) : List (String × Json) :=
  replayKeys.foldl (fun merged key =>
    AssocList.insert key ((sidecar.lookup key).getD .null) merged) legacy

def loadRestApiMap (platform : Platform) (root : String) (d : Directory) :
    Except PyError (List (String × Json)) :=
  let path := mapPath root restApiStatusMapJson
  let npyPath := mapPath root Discovery.restApiMapNpy
  match d.files.lookup restApiStatusMapJson, d.npy with
  | some content, none => loadRestApiMapJson path content
  | some content, some legacy => do
      let sidecar ← loadRestApiMapJson path content
      if !platform.numpy then .ok sidecar
      else do
        let legacy ← loadRestApiMapNpy platform.numpy npyPath legacy
        validateRestApiMap path (overlaySidecar legacy sidecar)
  | none, none => .ok []
  | none, some legacy => loadRestApiMapNpy platform.numpy npyPath legacy

structure Handler where
  apiMap : List (String × Json)
  index : List (String × String)
  files : List (String × Json)
  deriving DecidableEq

def makeHandler (platform : Platform) (root : String) (d : Directory) : Except PyError Handler := do
  let apiMap ← loadRestApiMap platform root d
  let index := buildFixtureIndex platform d.files
  if index.isEmpty then .error (.valueError ("no JSON fixtures found under " ++ root))
  else .ok ⟨apiMap,index,d.files⟩

def mappingDict (apiMap : List (String × Json)) (key : String) : List (String × Json) :=
  ((apiMap.lookup key).getD .null).members

def candidateMapKeys (requestPath : String) : Except PyError (List String) := do
  let path ← normalizeRequestPath requestPath
  .ok (if path = "/redfish/v1" then [path,"/redfish/v1/"] else [path])

def lookupMapping (mapping : List (String × Json)) (requestPath : String) :
    Except PyError (Option Json) := do
  let keys ← candidateMapKeys requestPath
  .ok (keys.findSome? fun key => mapping.lookup key)

def isAbsolute (name : String) : Bool := name.toList.head? = some '/'

def resolveMappedFixture (platform : Platform) : Option Json → Option String
  | some (.str name) => if name = "" || isAbsolute name then none else platform.resolve name
  | _ => none

def isRedfish (path : String) : Bool := "/redfish/v1".toList.isPrefixOf path.toList

def fixtureKey (path : String) : String :=
  "_" ++ Discovery.flatten (PyText.stripChars (· = '/') path) ++ ".json"

def fixtureForRequest (platform : Platform) (h : Handler) (target : String) :
    Except PyError (Option String) := do
  let path ← normalizeRequestPath target
  if !isRedfish path then .ok none
  else do
    let mapped ← lookupMapping (mappingDict h.apiMap "url_file_mapping") path
    match resolveMappedFixture platform mapped with
    | some fixture => .ok (some fixture)
    | none => .ok (h.index.lookup (platform.lower (fixtureKey path)))

def recordedStatus : Option Json → Except PyError (Option Int)
  | none => .ok none
  | some .null => .ok none
  | some raw => (PyText.int raw).map some

def capturedErrorForRequest (platform : Platform) (h : Handler) (target : String) :
    Except PyError (Option (Int × Option String)) := do
  if h.apiMap.isEmpty then .ok none
  else do
    let path ← normalizeRequestPath target
    if !isRedfish path then .ok none
    else do
      let raw ← lookupMapping (mappingDict h.apiMap "http_status_mapping") path
      let status ← recordedStatus raw
      let mapped ← lookupMapping (mappingDict h.apiMap "error_file_mapping") path
      match resolveMappedFixture platform mapped, status with
      | none, none => .ok none
      | none, some status => .ok (if status < 400 then none else some (status,none))
      | some file, none => .ok (some (500,some file))
      | some file, some status => .ok (some (if status = 0 then 500 else status,some file))

def content (h : Handler) (file : String) : Json := (h.files.lookup file).getD .null

def capturedBody (status : Int) (target : String) : Json :=
  .obj [("error",.str ("captured status " ++ toString status ++ " for " ++ target))]

def serveFixture (platform : Platform) (h : Handler) (target : String) :
    Except PyError (Int × Json) := do
  match ← capturedErrorForRequest platform h target with
  | some (status,none) => .ok (status,capturedBody status target)
  | some (status,some file) => .ok (status,content h file)
  | none => do
      match ← fixtureForRequest platform h target with
      | none => .ok (404,.obj [("error",.str ("no fixture for " ++ target))])
      | some file => .ok (200,content h file)

def doGet (platform : Platform) (h : Handler) (target : String) : Except PyError (Int × Json) := do
  let path ← normalizeRequestPath target
  if path = "/__replay_status" then .ok (404,.obj [("error",.str "replay is not enabled")])
  else serveFixture platform h target

end RedfishCtl.MockCorpus
