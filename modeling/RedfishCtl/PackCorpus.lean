import Mathlib.Data.List.Sort
import RedfishCtl.JsonOverlay
import RedfishCtl.MockCorpus
import RedfishCtl.PosixPath
import RedfishCtl.Redaction

/-! The packer of full corpora: the checks of a discovery run against its API map, the manifest,
and the archive that is written when no check fails. -/
namespace RedfishCtl.PackCorpus
open AssocList
open Discovery (restApiStatusMapJson restApiMapNpy)
open MockCorpus (endsWith)

abbrev Members := List (String × Json)

abbrev Files := List (String × Except String Json)

def urlFileMapping : String := "url_file_mapping"
def allowedMethodsMapping : String := "allowed_methods_mapping"
def httpStatusMapping : String := "http_status_mapping"
def errorFileMapping : String := "error_file_mapping"

def Sections (m : Members) : Prop := ∀ key d, m.lookup key = some (.obj d) → Distinct d

structure ApiMap where
  entries : Members
  sections : Sections entries

structure HostDir where
  path : String
  files : Files
  npy : Option ApiMap
  distinct : Distinct files
  sidecar : ∀ m, files.lookup restApiStatusMapJson = some (.ok (.obj m)) → Sections m

structure Listing where
  names : List String
  distinct : names.Nodup
  json : ∀ name ∈ names, endsWith ".json" name = true

/- The language of the redactor, the commit of the checkout, the bucket of a float status, and the
digest of the staged files. -/
structure Tools where
  lang : Redaction.Language
  commit : String
  floatBucket : Binary64.Datum → String
  checksum : Files → ApiMap → String

def baseName (text : String) : String :=
  String.ofList ((PosixPath.parts text.toList).getLast?.getD [])

def HostDir.name (host : HostDir) : String := baseName host.path

def manifestName : String := "corpus_manifest.json"

def packMetadataJson : List String := [manifestName,restApiStatusMapJson]

def resourceJsonPaths (names : List String) : List String :=
  names.filter fun name => !packMetadataJson.contains name

def resourceNames (host : HostDir) : List String :=
  (resourceJsonPaths ((keys host.files).filter (endsWith ".json"))).insertionSort (· ≤ ·)

def resourceJsonFiles (host : HostDir) : Listing where
  names := resourceNames host
  distinct := ((List.perm_insertionSort (· ≤ ·) _).nodup_iff.mpr
    ((host.distinct.filter _).filter _))
  json name mem := by
    have listed := (List.mem_insertionSort (· ≤ ·)).mp mem
    exact (List.mem_filter.mp (List.mem_filter.mp listed).1).2

def typeName : Json → String
  | .null => "NoneType"
  | .bool _ => "bool"
  | .int _ => "int"
  | .float _ => "float"
  | .str _ => "str"
  | .arr _ => "list"
  | .obj _ => "dict"

def lacks (member : String) (v : Json) : PyError :=
  .other "AttributeError" ("'" ++ typeName v ++ "' object has no attribute '" ++ member ++ "'")

def unhashable (v : Json) : PyError := .typeError ("unhashable type: '" ++ typeName v ++ "'")

def loadApiMap (host : HostDir) : Except PyError ApiMap :=
  match host.npy with
  | none => .error (.other "FileNotFoundError"
      ("no rest_api_map.npy in " ++ host.path ++ " — run `redfish_ctl discovery` first"))
  | some m => match [urlFileMapping,allowedMethodsMapping].find? fun key => (m.entries.lookup key).isNone with
      | some key => .error (.valueError ("rest_api_map.npy missing required top-level key '" ++ key ++ "'"))
      | none => .ok m

def requiredSection (m : ApiMap) (key : String) : Except PyError Members :=
  match m.entries.lookup key with
  | none => .error (.other "KeyError" (PyText.reprString key))
  | some (.obj d) => .ok d
  | some v => .error (lacks "items" v)

def optionalSection (m : ApiMap) (key : String) : Except PyError Members :=
  match m.entries.lookup key with
  | none => .ok []
  | some (.obj d) => .ok d
  | some v => if v.truthy then .error (lacks "items" v) else .ok []

def iterate : Json → Except PyError (List Json)
  | .obj d => .ok (d.map fun p => .str p.1)
  | .arr items => .ok items
  | .str s => .ok (s.toList.map fun c => .str (String.singleton c))
  | v => .error (.typeError ("'" ++ typeName v ++ "' object is not iterable"))

def allowedMethods (m : ApiMap) : Except PyError Json :=
  match m.entries.lookup allowedMethodsMapping with
  | none => .error (.other "KeyError" (PyText.reprString allowedMethodsMapping))
  | some v => .ok v

def fileNames : Members → Except PyError (List (String × String))
  | [] => .ok []
  | (url,.str name)::rest => do
      let others ← fileNames rest
      .ok ((url,name)::others)
  | (_,v)::_ => .error (.typeError ("argument should be a str or an os.PathLike object where " ++
      "__fspath__ returns a str, not '" ++ typeName v ++ "'"))

def intStatuses : Members → Except PyError Members
  | [] => .ok []
  | (url,status)::rest => do
      let n ← PyText.int status
      let others ← intStatuses rest
      .ok ((url,.int n)::others)

structure Payload where
  statuses : Members
  files : Members

def Payload.get (p : Payload) (key : String) : Json :=
  if key = httpStatusMapping then .obj p.statuses else .obj p.files

def Payload.document (p : Payload) : Json :=
  .obj [(httpStatusMapping,.obj p.statuses),(errorFileMapping,.obj p.files)]

def statusSidecarPayload (m : ApiMap) : Except PyError Payload := do
  let hsm ← optionalSection m httpStatusMapping
  let statuses ← intStatuses hsm
  let efm ← optionalSection m errorFileMapping
  .ok ⟨statuses,efm.map fun p => (p.1,.str (PyText.str p.2))⟩

def sidecarProblem (key detail : String) : String := restApiStatusMapJson ++ " " ++ key ++ " " ++ detail

def sidecarMissing (key : String) : String :=
  restApiStatusMapJson ++ " missing required key " ++ key

def sidecarKeyProblems (sidecar : Json) (expected : Payload) (key : String) :
    Except PyError (List String) :=
  match sidecar with
  | .obj m => .ok (match m.lookup key with
      | none => [sidecarMissing key]
      | some (.obj d) =>
          if Json.pyEq (.obj d) (expected.get key) then []
          else [sidecarProblem key "does not match rest_api_map.npy"]
      | some _ => [sidecarProblem key "must be an object"])
  | .arr items =>
      if items.any (Json.pyEq (.str key)) then
        .error (.typeError "list indices must be integers or slices, not str")
      else .ok [sidecarMissing key]
  | .str s =>
      if key.toList <:+: s.toList then
        .error (.typeError "string indices must be integers, not 'str'")
      else .ok [sidecarMissing key]
  | v => .error (.typeError ("argument of type '" ++ typeName v ++ "' is not iterable"))

def statusSidecarProblems (host : HostDir) (m : ApiMap) : Except PyError (List String) :=
  match host.files.lookup restApiStatusMapJson with
  | none => .ok []
  | some (.error text) => .ok [restApiStatusMapJson ++ " is not valid JSON: " ++ text]
  | some (.ok sidecar) => do
      let expected ← statusSidecarPayload m
      let statuses ← sidecarKeyProblems sidecar expected httpStatusMapping
      let files ← sidecarKeyProblems sidecar expected errorFileMapping
      .ok (statuses ++ files)

def problem (failed : Bool) (text : String) : List String := if failed then [text] else []

def unparseable (host : HostDir) (name : String) : Option String :=
  match host.files.lookup name with
  | none => some "No such file or directory"
  | some (.error text) => some text
  | some (.ok _) => none

def hashed : Json → Except PyError (Option String)
  | .str s => .ok (some s)
  | .arr items => .error (unhashable (.arr items))
  | .obj d => .error (unhashable (.obj d))
  | _ => .ok none

def methodProblems (mapped : List String) : List Json → Except PyError (List String)
  | [] => .ok []
  | url::rest => do
      let key ← hashed url
      let others ← methodProblems mapped rest
      .ok (problem (!key.any fun s => mapped.contains s)
        ("url in allowed_methods_mapping but not in url/error mapping: " ++ PyText.str url) ++ others)

def serviceRootProblems (names urls : List String) : List String :=
  problem (!names.contains "_redfish_v1.json")
      "ServiceRoot missing: no _redfish_v1.json (the entry point must be captured)" ++
    problem (!urls.contains "/redfish/v1/" && !urls.contains "/redfish/v1")
      "ServiceRoot URL /redfish/v1/ not in url_file_mapping"

def parseProblems (host : HostDir) (names : List String) : List String :=
  names.flatMap fun name => match unparseable host name with
    | some text => ["unparseable JSON " ++ name ++ ": " ++ text]
    | none => []

def overlapProblems (urls errors : List String) : List String :=
  let overlap := urls.filter fun url => errors.contains url
  problem (!overlap.isEmpty) ("url in BOTH url_file_mapping and error_file_mapping: " ++
    PyText.repr (.arr (((overlap.insertionSort (· ≤ ·)).take 5).map .str)))

def countProblems (files urls errors methods : ℕ) : List String :=
  problem (files != urls + errors) ("json_file_count " ++ toString files ++ " != url_file_mapping " ++
      toString urls ++ " + error_file_mapping " ++ toString errors) ++
    problem (methods != urls && methods != urls + errors) ("allowed_methods_mapping " ++
      toString methods ++ " != url_file_mapping " ++ toString urls ++ " (or +error_file_mapping " ++
      toString errors ++ ")")

def missingProblems (names : List String) (files : List (String × String)) : List String :=
  files.flatMap fun p => problem (!names.contains (baseName p.2))
    ("mapped file missing from corpus: " ++ p.1 ++ " -> " ++ p.2)

def unmappedProblems (names : List String) (files : List (String × String)) : List String :=
  let mapped := files.map fun p => baseName p.2
  names.flatMap fun name =>
    if name = restApiMapNpy ∨ name = manifestName then []
    else problem (!mapped.contains name) ("resource JSON not mapped (url_file/error_file): " ++ name)

def statusProblems (mapped : List String) (hsm : Members) : List String :=
  hsm.flatMap fun p =>
    if Json.pyEq p.2 (.int 0) then []
    else problem (!mapped.contains p.1)
      ("http_status_mapping url not mapped: " ++ p.1 ++ " (" ++ PyText.str p.2 ++ ")")

def validate (host : HostDir) (m : ApiMap) (listing : Listing) : Except PyError (List String) := do
  let ufm ← requiredSection m urlFileMapping
  let amm ← allowedMethods m
  let methods ← iterate amm
  let efm ← optionalSection m errorFileMapping
  let hsm ← optionalSection m httpStatusMapping
  let names := resourceJsonPaths listing.names
  let sidecar ← statusSidecarProblems host m
  let files ← fileNames (ufm ++ efm)
  let mapped := keys ufm ++ keys efm
  let unlisted ← methodProblems mapped methods
  .ok (sidecar ++ serviceRootProblems names (keys ufm) ++ parseProblems host names ++
    overlapProblems (keys ufm) (keys efm) ++
    countProblems names.length ufm.length efm.length methods.length ++
    missingProblems names files ++ unmappedProblems names files ++ unlisted ++
    statusProblems mapped hsm)

def httpMethods : List String := ["GET","HEAD","OPTIONS","POST","PATCH","PUT","DELETE"]

def increment (key : String) (counts : List (String × ℕ)) : List (String × ℕ) :=
  AssocList.insert key ((counts.lookup key).getD 0 + 1) counts

def countMethod (counts : List (String × ℕ)) (method : Json) : Except PyError (List (String × ℕ)) := do
  match ← hashed method with
  | some name => .ok (if (keys counts).contains name then increment name counts else counts)
  | none => .ok counts

def countMethods (counts : List (String × ℕ)) (entry : String × Json) :
    Except PyError (List (String × ℕ)) := do
  let methods ← iterate entry.2
  methods.foldlM countMethod counts

def statusBucket (tools : Tools) : Json → Except PyError String
  | .int n => .ok (toString (n / 100) ++ "xx")
  | .bool _ => .ok "0xx"
  | .float x => .ok (tools.floatBucket x)
  | v => .error (.typeError ("unsupported operand type(s) for //: '" ++ typeName v ++ "' and 'int'"))

def countStatus (tools : Tools) (counts : List (String × ℕ)) (entry : String × Json) :
    Except PyError (List (String × ℕ)) := do
  let bucket ← if Json.pyEq entry.2 (.int 0) then .ok "unreachable" else statusBucket tools entry.2
  .ok (increment bucket counts)

def redfishVersion (host : HostDir) : Except PyError Json :=
  match host.files.lookup "_redfish_v1.json" with
  | none => .ok (.str "")
  | some (.error _) => .ok (.str "")
  | some (.ok (.obj d)) => .ok ((d.lookup "RedfishVersion").getD (.str ""))
  | some (.ok v) => .error (lacks "get" v)

structure Options where
  vendor : String
  model : String
  redact : Bool
  dryRun : Bool

def count (n : ℕ) : Json := .int n

def tally (counts : List (String × ℕ)) : Json := .obj (counts.map fun p => (p.1,count p.2))

def redactionStatus (o : Options) : String :=
  if o.redact then "credentials_username_redacted" else "original_internal"

def buildManifest (tools : Tools) (host : HostDir) (m : ApiMap) (o : Options) (names : List String) :
    Except PyError Members := do
  let ufm ← requiredSection m urlFileMapping
  let amm ← requiredSection m allowedMethodsMapping
  let efm ← optionalSection m errorFileMapping
  let hsm ← optionalSection m httpStatusMapping
  let methodCounts ← amm.foldlM countMethods (httpMethods.map fun method => (method,0))
  let statusCounts ← hsm.foldlM (countStatus tools) []
  let version ← redfishVersion host
  .ok [("schema_version",count 1),("artifact_type",.str "full_training"),("vendor",.str o.vendor),
    ("model",.str o.model),("host_id",.str host.name),("redfish_version",version),
    ("bmc_firmware_version",.str ""),("discovery_timestamp",.str ""),
    ("redfish_ctl_commit",.str tools.commit),
    ("json_file_count",count (resourceJsonPaths names).length),
    ("url_file_mapping_count",count ufm.length),("error_file_mapping_count",count efm.length),
    ("allowed_methods_mapping_count",count amm.length),("method_counts",tally methodCounts),
    ("http_status_counts",tally statusCounts),("redaction_status",.str (redactionStatus o)),
    ("artifact_checksum",.str "")]

structure Archive where
  hostId : String
  files : Files
  npy : ApiMap

def stageDocuments (tools : Tools) (host : HostDir) (o : Options) : List String → Except PyError Files
  | [] => .ok []
  | name::rest => match host.files.lookup name with
      | some (.ok data) => do
          let others ← stageDocuments tools host o rest
          .ok ((name,.ok (if o.redact then Redaction.redactCredentials tools.lang data else data))::others)
      | some (.error text) => .error (.valueError text)
      | none => .error (.other "FileNotFoundError" name)

def stageSidecar (host : HostDir) (m : ApiMap) : Except PyError Files :=
  match host.files.lookup restApiStatusMapJson with
  | some content => .ok [(restApiStatusMapJson,content)]
  | none =>
      if (m.entries.lookup httpStatusMapping).isSome ∨ (m.entries.lookup errorFileMapping).isSome then do
        let payload ← statusSidecarPayload m
        .ok [(restApiStatusMapJson,.ok payload.document)]
      else .ok []

def writeArchive (tools : Tools) (host : HostDir) (m : ApiMap) (o : Options) (names : List String)
    (manifest : Members) : Except PyError Archive := do
  let documents ← stageDocuments tools host o names
  let sidecar ← stageSidecar host m
  let files := documents ++ sidecar
  let signed := AssocList.insert "artifact_checksum" (.str (tools.checksum files m)) manifest
  .ok ⟨host.name,files ++ [(manifestName,.ok (.obj signed))],m⟩

def pack (tools : Tools) (host : HostDir) (o : Options) : Except PyError (ℕ × Option Archive) := do
  let listing := resourceJsonFiles host
  if listing.names.isEmpty then .ok (2,none)
  else do
    let m ← loadApiMap host
    let problems ← validate host m listing
    if !problems.isEmpty then .ok (3,none)
    else do
      let manifest ← buildManifest tools host m o listing.names
      if o.dryRun then .ok (0,none)
      else do
        let archive ← writeArchive tools host m o listing.names manifest
        .ok (0,some archive)

end RedfishCtl.PackCorpus
