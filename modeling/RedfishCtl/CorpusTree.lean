import RedfishCtl.Buckets
import RedfishCtl.CorpusRoutes
import RedfishCtl.JsonOverlay
import RedfishCtl.Sha256

/-! The conversion of a flat capture into a resource tree. Every fixture collects the routes claimed
for it, the claims are compared in several passes, and a fixture with one undisputed route is
emitted at its place. -/
namespace RedfishCtl.CorpusTree
open AssocList Buckets
open PosixPath (parts)

inductive MemberKind where
  | directory
  | regular
  | other
  deriving DecidableEq, Repr

structure Member where
  name : String
  kind : MemberKind
  size : Nat
  data : Bytes

structure Archive where
  members : List Member
  sha256 : String

structure Row where
  vendor : String
  model : String
  tarball : String
  arcname : String
  deriving DecidableEq

def conversionError (message : String) : PyError := .other "ConversionError" message

def maxArchiveMembers : Nat := 20000
def maxMemberBytes : Nat := 64 * 1024 * 1024
def maxTotalBytes : Nat := 1024 * 1024 * 1024

def unsafePath (name : String) : PyError :=
  conversionError ("unsafe archive member path: " ++ PyText.reprString name)

def safeArchivePath (name : String) : Except PyError (List (List Char)) :=
  if name = "" || name.toList.contains '\\' || name.toList.contains (Char.ofNat 0) then
    .error (unsafePath name)
  else if name.toList.head? = some '/' || (parts name.toList).contains ['.','.'] then
    .error (unsafePath name)
  else .ok (parts name.toList)

def rstripSlashes (name : String) : String := String.ofList (PyText.dropEnd (· = '/') name.toList)

def safeSourceRoot (arcname : String) : Except PyError (List (List Char)) := do
  let root ← safeArchivePath (rstripSlashes arcname)
  if root.length ≠ 1 then
    .error (conversionError "manifest arcname must identify one archive root")
  else .ok root

structure Reading where
  files : List (String × Bytes)
  total : Nat

def memberError (text : String) (m : Member) : PyError :=
  conversionError (text ++ ": " ++ PyText.reprString m.name)

def readMember (arcname : String) (root : List (List Char)) (r : Reading) (m : Member) :
    Except PyError Reading := do
  let path ← safeArchivePath (rstripSlashes m.name)
  if !root.isPrefixOf path then
    .error (memberError ("archive member is outside manifest arcname " ++
      PyText.reprString arcname) m)
  else
    let relative := path.drop root.length
    match m.kind with
    | .directory => .ok r
    | .other => .error (memberError "archive member type is forbidden" m)
    | .regular =>
        match relative with
        | [only] =>
            let name := String.ofList only
            if maxMemberBytes < m.size then
              .error (memberError ("archive member exceeds " ++ toString maxMemberBytes ++ " bytes") m)
            else if maxTotalBytes < r.total + m.size then
              .error (conversionError ("archive expands beyond " ++ toString maxTotalBytes ++ " bytes"))
            else if (keys r.files).contains name then
              .error (memberError "duplicate archive member" m)
            else if m.data.length ≠ m.size then
              .error (memberError "archive member size mismatch" m)
            else .ok ⟨insert name m.data r.files,r.total + m.size⟩
        | _ => .error (memberError ("regular file is not a direct child of " ++
            PyText.reprString arcname) m)

def readArchive (archive : Archive) (arcname : String) : Except PyError (List (String × Bytes)) := do
  let root ← safeSourceRoot arcname
  if maxArchiveMembers < archive.members.length then
    .error (conversionError ("archive has " ++ toString archive.members.length ++
      " members; limit is " ++ toString maxArchiveMembers))
  else
    let read ← archive.members.foldlM (readMember arcname root) ⟨[],0⟩
    if read.files.isEmpty then
      .error (conversionError ("archive root " ++ PyText.reprString arcname ++ " has no regular files"))
    else .ok read.files

def metadataFixture : String := "_redfish_v1_$metadata.xml"
def safeRouteMap : String := "corpus_routes.json"
def safeRouteMapSchema : String := "redfish_ctl.corpus_routes/v1"
def sidecarNames : List String :=
  ["corpus_manifest.json",safeRouteMap,"rest_api_map.status.json","rest_api_map.npy"]

def jsonLoadBytes (rt : Runtime) (payload : Bytes) (source : String) : Except PyError Json :=
  match rt.loads payload with
  | .ok value => .ok value
  | .error (.valueError e) => .error (.valueError ("invalid JSON in " ++ source ++ ": " ++ e))
  | .error e => .error e

def rowError (index : Nat) (text : String) : PyError :=
  conversionError (safeRouteMap ++ " routes[" ++ toString index ++ "]" ++ text)

def loadRow (index : Nat) : Json → Except PyError (String × String)
  | .obj row =>
      match row.lookup "route" with
      | some (.str route) =>
          if route = "" then .error (rowError index ".route must be a string")
          else match row.lookup "sourceFixture" with
          | some (.str fixture) =>
              if fixture = "" then .error (rowError index ".sourceFixture must be a string")
              else if fixture.toList.head? = some '/' || (parts fixture.toList).length ≠ 1 then
                .error (rowError index ".sourceFixture must be a basename")
              else .ok (route,fixture)
          | _ => .error (rowError index ".sourceFixture must be a string")
      | _ => .error (rowError index ".route must be a string")
  | _ => .error (rowError index " must be an object")

def loadRouteMap (rt : Runtime) (files : List (String × Bytes)) :
    Except PyError (List (String × String)) :=
  match files.lookup safeRouteMap with
  | none => .ok []
  | some payload =>
      match jsonLoadBytes rt payload safeRouteMap with
      | .error (.valueError e) => .error (conversionError e)
      | .error e => .error e
      | .ok value =>
          if value.get? "schema" ≠ some (.str safeRouteMapSchema) then
            .error (conversionError (safeRouteMap ++ " must declare schema " ++ safeRouteMapSchema))
          else match value.get? "routes" with
          | some (.arr rows) => rows.zipIdx.mapM fun p => loadRow p.2 p.1
          | _ => .error (conversionError (safeRouteMap ++ " routes must be an array"))

def jsonPrefix : String := "_redfish_v1"

def isFixture (name : String) : Bool :=
  ((jsonPrefix.toList.isPrefixOf name.toList && ".json".toList.isSuffixOf name.toList) ||
    name = metadataFixture) && !sidecarNames.contains name

def sortedNames (names : List String) : List String := names.insertionSort (· ≤ ·)
def sortedSet (names : List String) : List String := sortedNames names.dedup

def fixtureNames (files : List (String × Bytes)) : List String :=
  sortedNames ((keys files).filter isFixture)
def sidecars (files : List (String × Bytes)) : List String :=
  sortedNames ((keys files).filter fun name => !(fixtureNames files).contains name)

inductive Source where
  | topLevelOdataId
  | explicitRouteMap
  | serviceRootAnchor
  | metadataAnchor
  | discoveredOdataLink
  deriving DecidableEq, Repr

structure Candidate where
  route : String
  source : Source
  deriving DecidableEq, Repr

structure Issue where
  source : Source
  candidate : String
  reason : String
  disposition : Disposition
  deriving DecidableEq, Repr

inductive Comparison where
  | byteIdentical
  | jsonEquivalent
  deriving DecidableEq, Repr

structure Alias where
  aliasRoutes : List String
  canonicalRoute : String
  canonicalSourceFixture : String
  payloadComparison : Comparison
  deriving DecidableEq, Repr

inductive Reason where
  | capturedNonSuccessResponse
  | fragmentSelectorCapture
  | invalidXml (detail : String)
  | invalidJson (detail : String)
  | jsonNotObjectOrArray
  | canonicalAliasSubset (found : Alias)
  | multipleSourceFixturesToRoute (route : String) (sourceFixtures : List String)
  | routeIssue (issue : Issue)
  | noAuthoritativeRoute
  | authoritativeRouteDisagreement (routes : List String)
  | forwardFilenameMismatch (route expected : String)
  | destinationCollision
  | internalUnclassifiedSource
  deriving DecidableEq, Repr

inductive Conflict where
  | caseFoldedSourceFixtureCollision (sourceFixtures : List String) (foldedName : String)
  | routeMapSourceMissingOrAmbiguous (route sourceFixture : String)
  | multipleSourceFixturesToRoute (route : String) (sourceFixtures : List String)
  | invalidRouteCandidate (sourceFixture : String) (candidates : List Issue)
  | sourceFixtureToMultipleRoutes (sourceFixture : String) (routes : List String)
  | forwardFilenameMismatch (sourceFixture route expectedSourceFixture : String)
  | caseFoldedDestinationCollision (destination : String) (sourceFixtures : List String)
  | fileDirectoryCollision (destination : String) (sourceFixtures : List String)
  deriving DecidableEq, Repr

def Conflict.listed : Conflict → List String
  | .caseFoldedSourceFixtureCollision fixtures _ => fixtures
  | .multipleSourceFixturesToRoute _ fixtures => fixtures
  | .caseFoldedDestinationCollision _ fixtures => fixtures
  | .fileDirectoryCollision _ fixtures => fixtures
  | .routeMapSourceMissingOrAmbiguous _ _ | .invalidRouteCandidate _ _
  | .sourceFixtureToMultipleRoutes _ _ | .forwardFilenameMismatch _ _ _ => []

def Conflict.single : Conflict → List String
  | .routeMapSourceMissingOrAmbiguous _ fixture => [fixture]
  | .invalidRouteCandidate fixture _ => [fixture]
  | .sourceFixtureToMultipleRoutes fixture _ => [fixture]
  | .forwardFilenameMismatch fixture _ _ => [fixture]
  | .caseFoldedSourceFixtureCollision _ _ | .multipleSourceFixturesToRoute _ _
  | .caseFoldedDestinationCollision _ _ | .fileDirectoryCollision _ _ => []

inductive Status where
  | emitted
  | excluded
  | unresolved
  deriving DecidableEq, Repr

structure Evidence where
  parsed : List (String × Json)
  candidates : List (String × List Candidate)
  issues : List (String × List Issue)
  deriving DecidableEq

structure Verdicts where
  status : List (String × Status)
  reasons : List (String × List Reason)
  conflicts : List Conflict
  deriving DecidableEq

structure Work where
  evidence : Evidence
  verdicts : Verdicts
  deriving DecidableEq

def settle (fixture : String) (status : Status) (reasons : List Reason) (v : Verdicts) : Verdicts :=
  { v with status := insert fixture status v.status, reasons := extend fixture reasons v.reasons }

def report (conflict : Conflict) (v : Verdicts) : Verdicts :=
  { v with conflicts := v.conflicts ++ [conflict] }

def routesOf (candidates : List Candidate) : List String := sortedSet (candidates.map Candidate.route)

def agreedRoute (candidates : List Candidate) : Option String :=
  match routesOf candidates with
  | [route] => some route
  | _ => none

section
variable (rt : Runtime)

def addCandidate (fixture : String) (source : Source) (raw : String) (e : Evidence) :
    Except PyError Evidence :=
  match canonicalizeRoute rt raw with
  | .error (.python err) => .error err
  | .error (.route err) =>
      .ok { e with issues := add fixture ⟨source,raw,err.reason,err.disposition⟩ e.issues }
  | .ok route =>
      if (bucket e.candidates fixture).contains ⟨route,source⟩ then .ok e
      else .ok { e with candidates := add fixture ⟨route,source⟩ e.candidates }

def fixtureLookup (names : List String) : List (String × List String) := group rt.casefold names

def foldedConflicts (names : List String) : List Conflict :=
  ((sortedItems (· ≤ ·) (fixtureLookup rt names)).filter fun row => 1 < row.2.length).map
    fun row => .caseFoldedSourceFixtureCollision (sortedNames row.2) row.1

def payloadOf (files : List (String × Bytes)) (fixture : String) : Bytes :=
  (files.lookup fixture).getD []

def anchorRoute : String := serviceRoot ++ "/$metadata"

def parseDocument (fixture : String) (value : Json) (w : Work) : Except PyError Work :=
  let evidence := { w.evidence with parsed := insert fixture value w.evidence.parsed }
  match value.get? "@odata.id" with
  | some (.str raw) => do
      let evidence ← addCandidate rt fixture .topLevelOdataId raw evidence
      .ok { w with evidence := evidence }
  | _ => .ok { w with evidence := evidence }

def parseFixture (files : List (String × Bytes)) (w : Work) (fixture : String) :
    Except PyError Work :=
  let leave := fun status reason =>
    Except.ok { w with verdicts := settle fixture status [reason] w.verdicts }
  if ".error.json".toList.isSuffixOf fixture.toList then
    leave .excluded .capturedNonSuccessResponse
  else if fixture.toList.contains '#' then leave .excluded .fragmentSelectorCapture
  else if fixture = metadataFixture then
    match rt.fromstring (payloadOf files fixture) with
    | .error e => .error e
    | .ok (some detail) => leave .unresolved (.invalidXml detail)
    | .ok none => do
        let evidence ← addCandidate rt fixture .metadataAnchor anchorRoute w.evidence
        .ok { w with evidence := evidence }
  else match jsonLoadBytes rt (payloadOf files fixture) fixture with
    | .error (.valueError detail) => leave .unresolved (.invalidJson detail)
    | .error e => .error e
    | .ok (.obj m) => parseDocument rt fixture (.obj m) w
    | .ok (.arr items) => parseDocument rt fixture (.arr items) w
    | .ok _ => leave .unresolved .jsonNotObjectOrArray

def mapRow (lookup : List (String × List String)) (w : Work) (row : String × String) :
    Except PyError Work :=
  match bucket lookup (rt.casefold row.2) with
  | [only] => do
      let evidence ← addCandidate rt only .explicitRouteMap row.1 w.evidence
      .ok { w with evidence := evidence }
  | _ => .ok { w with verdicts := report (.routeMapSourceMissingOrAmbiguous row.1 row.2) w.verdicts }

def rootMatches (lookup : List (String × List String)) : List String := bucket lookup "_redfish_v1.json"

def anchorRoot (lookup : List (String × List String)) (e : Evidence) : Except PyError Evidence :=
  match rootMatches lookup with
  | [only] => addCandidate rt only .serviceRootAnchor serviceRoot e
  | _ => .ok e

def linkedRoutes : List String → Except PyError (List String)
  | [] => .ok []
  | raw::rest => match canonicalizeRoute rt raw with
      | .error (.python e) => .error e
      | .error (.route _) => linkedRoutes rest
      | .ok route => do
          let routes ← linkedRoutes rest
          .ok (route::routes)

def followLink (lookup : List (String × List String)) (visited : List String)
    (found : Evidence × List String) (route : String) : Except PyError (Evidence × List String) :=
  match bucket lookup (rt.casefold (forwardFilename route ".json")) with
  | [target] => do
      let evidence ← addCandidate rt target .discoveredOdataLink route found.1
      .ok (evidence,if visited.contains target then found.2 else found.2 ++ [target])
  | _ => .ok found

/- The walk along the links from the service root: each round visits the first fixture of the queue
that can be visited, within the bound on rounds. -/
def followLinks (lookup : List (String × List String)) :
    Nat → List String → List String → Evidence → Except PyError Evidence
  | 0, _, _, e => .ok e
  | rounds+1, queue, visited, e =>
      match queue.dropWhile fun f => visited.contains f || (e.parsed.lookup f).isNone with
      | [] => .ok e
      | fixture::rest =>
          if (agreedRoute (bucket e.candidates fixture)).isNone then
            followLinks lookup rounds rest (fixture::visited) e
          else do
            let routes ← linkedRoutes rt (iterOdataIds ((e.parsed.lookup fixture).getD .null)).dedup
            let found ← (sortedSet routes).foldlM (followLink rt lookup (fixture::visited)) (e,[])
            followLinks lookup rounds (rest ++ found.2) (fixture::visited) found.1

def pairLe (a b : String × String) : Prop := a.1 < b.1 ∨ a.1 = b.1 ∧ a.2 ≤ b.2

instance : DecidableRel pairLe := fun _ _ => inferInstanceAs (Decidable (_ ∨ _))

def gather (files : List (String × Bytes)) (routeMap : List (String × String)) :
    Except PyError Work := do
  let names := fixtureNames files
  let lookup := fixtureLookup rt names
  let parsed ← names.foldlM (parseFixture rt files) ⟨⟨[],[],[]⟩,⟨[],[],foldedConflicts rt names⟩⟩
  let mapped ← (routeMap.insertionSort pairLe).foldlM (mapRow rt lookup) parsed
  let anchored ← anchorRoot rt lookup mapped.evidence
  let evidence ← followLinks rt lookup (anchored.parsed.length+1) (rootMatches lookup) [] anchored
  .ok { mapped with evidence := evidence }

def settled (v : Verdicts) (fixture : String) : Bool :=
  v.status.lookup fixture = some .excluded || v.status.lookup fixture = some .unresolved

def aliasRoutes (e : Evidence) (fixture canonicalRoute : String) : List String :=
  sortedSet (((bucket e.candidates fixture).filter fun c =>
    (c.source = .discoveredOdataLink || c.source = .explicitRouteMap) && c.route ≠ canonicalRoute &&
    rt.casefold (forwardFilename c.route ".json") = rt.casefold fixture).map Candidate.route)

def topRoutes (e : Evidence) (fixture : String) : List String :=
  sortedSet (((bucket e.candidates fixture).filter fun c => c.source = .topLevelOdataId).map
    Candidate.route)

def canonicalAliasExclusion (files : List (String × Bytes)) (lookup : List (String × List String))
    (e : Evidence) (fixture : String) : Option Alias :=
  match topRoutes e fixture, e.parsed.lookup fixture with
  | [canonicalRoute], some document =>
      let routes := aliasRoutes rt e fixture canonicalRoute
      if routes.isEmpty then none
      else match bucket lookup (rt.casefold (forwardFilename canonicalRoute ".json")) with
      | [canonical] =>
          if canonical = fixture then none
          else match e.parsed.lookup canonical with
          | none => none
          | some other =>
              if !((bucket e.candidates canonical).map Candidate.route).contains canonicalRoute then none
              else if !Json.pyEq document other then none
              else some ⟨routes,canonicalRoute,canonical,
                if payloadOf files fixture = payloadOf files canonical then .byteIdentical
                else .jsonEquivalent⟩
      | _ => none
  | _, _ => none

def excludeAlias (files : List (String × Bytes)) (lookup : List (String × List String)) (e : Evidence)
    (v : Verdicts) (fixture : String) : Verdicts :=
  if settled v fixture then v
  else match canonicalAliasExclusion rt files lookup e fixture with
  | some found => settle fixture .excluded [.canonicalAliasSubset found] v
  | none => v

def claimedRoute (e : Evidence) (v : Verdicts) (fixture : String) : Option String :=
  if settled v fixture || !(bucket e.issues fixture).isEmpty then none
  else agreedRoute (bucket e.candidates fixture)

def claims (e : Evidence) (v : Verdicts) (names : List String) : List (String × List (String × String)) :=
  group Prod.fst (names.filterMap fun f => (claimedRoute e v f).map fun route => (route,f))

def blockClaim (v : Verdicts) (row : String × List (String × String)) : Verdicts :=
  let fixtures := sortedNames (row.2.map Prod.snd)
  if row.2.length < 2 then v
  else fixtures.foldl
    (fun v f => settle f .unresolved [.multipleSourceFixturesToRoute row.1 fixtures] v)
    (report (.multipleSourceFixturesToRoute row.1 fixtures) v)

structure Routing where
  verdicts : Verdicts
  routes : List (String × String)
  deriving DecidableEq

def expectedName (fixture route : String) : String :=
  forwardFilename route (if fixture = metadataFixture then ".xml" else ".json")

def block (fixture : String) (reasons : List Reason) (conflict : Conflict) (r : Routing) : Routing :=
  ⟨report conflict (settle fixture .unresolved reasons r.verdicts),r.routes⟩

def routeFixture (e : Evidence) (r : Routing) (fixture : String) : Routing :=
  let issues := bucket e.issues fixture
  let routes := routesOf (bucket e.candidates fixture)
  if settled r.verdicts fixture then r
  else if !issues.isEmpty then
    let excludedOnly := routes.isEmpty && issues.all fun i => i.disposition = .excluded
    if excludedOnly then
      { r with verdicts := settle fixture .excluded (issues.map .routeIssue) r.verdicts }
    else block fixture (issues.map .routeIssue) (.invalidRouteCandidate fixture issues) r
  else match routes with
  | [] => { r with verdicts := settle fixture .unresolved [.noAuthoritativeRoute] r.verdicts }
  | [route] =>
      let expected := expectedName fixture route
      if rt.casefold expected ≠ rt.casefold fixture then
        block fixture [.forwardFilenameMismatch route expected]
          (.forwardFilenameMismatch fixture route expected) r
      else { r with routes := insert fixture route r.routes }
  | _ =>
      block fixture [.authoritativeRouteDisagreement routes]
        (.sourceFixtureToMultipleRoutes fixture routes) r

def destinationOf (p : String × String) : String := destinationForRoute p.2 (p.1 = metadataFixture)

def partsOf (p : String × String) : List (List Char) := parts (destinationOf p).toList

def onPath (p q : String × String) : Bool :=
  p.1 ≠ q.1 && (partsOf p).length < (partsOf q).length && (partsOf p).isPrefixOf (partsOf q)

def collisionSets (routes : List (String × String)) : List Conflict :=
  let shared := ((sortedItems (· ≤ ·) (group Prod.snd routes)).filter fun row => 1 < row.2.length).map
    fun row => Conflict.multipleSourceFixturesToRoute row.1 (sortedNames (row.2.map Prod.fst))
  let folded := ((sortedItems (· ≤ ·) (group (fun p => rt.casefold (destinationOf p)) routes)).filter
    fun row => 1 < row.2.length).map
    fun row => Conflict.caseFoldedDestinationCollision row.1 (sortedNames (row.2.map Prod.fst))
  let nested := (sortedItems (· ≤ ·) routes).flatMap fun p =>
    ((sortedItems (· ≤ ·) routes).filter (onPath p)).map fun q =>
      Conflict.fileDirectoryCollision (destinationOf p) (sortedNames [p.1,q.1])
  (shared ++ folded ++ nested).dedup

def dropCollision (r : Routing) (fixture : String) : Routing :=
  ⟨settle fixture .unresolved [.destinationCollision] r.verdicts,erase fixture r.routes⟩

def resolveCollisions (r : Routing) : Routing :=
  let collisions := collisionSets rt r.routes
  (sortedSet (collisions.flatMap Conflict.listed)).foldl dropCollision
    { r with verdicts := { r.verdicts with conflicts := r.verdicts.conflicts ++ collisions } }

def classify (files : List (String × Bytes)) (w : Work) : Routing :=
  let names := fixtureNames files
  let excluded := names.foldl (excludeAlias rt files (fixtureLookup rt names) w.evidence) w.verdicts
  let unclaimed := (sortedItems (· ≤ ·) (claims w.evidence excluded names)).foldl blockClaim excluded
  resolveCollisions rt (names.foldl (routeFixture rt w.evidence) ⟨unclaimed,[]⟩)

structure Mapping where
  route : String
  sourceFixture : String
  destination : String
  sha256 : String
  deriving DecidableEq, Repr

def mappingOf (files : List (String × Bytes)) (p : String × String) : Mapping :=
  ⟨p.2,p.1,destinationOf p,Sha256.hexdigest (payloadOf files p.1)⟩

def emissions (routes : List (String × String)) : List (String × String) :=
  routes.insertionSort fun a b => pairLe (a.2,a.1) (b.2,b.1)

def payloadsOf (files : List (String × Bytes)) (routes : List (String × String)) :
    List (String × Bytes) :=
  (emissions routes).foldl (fun d p => insert (destinationOf p) (payloadOf files p.1) d) []

def emit (v : Verdicts) (routes : List (String × String)) : Verdicts :=
  { v with status := (emissions routes).foldl (fun d p => insert p.1 Status.emitted d) v.status }

def emittedRoutes (routes : List (String × String)) : List (String × String) :=
  (emissions routes).foldl (fun d p => insert p.2 p.1 d) []

inductive MissingLink where
  | invalid (sourceRoute candidate : String) (disposition : Disposition) (reason : String)
  | missing (sourceRoute route : String) (sourceFixtureNotEmitted : Bool)
  deriving DecidableEq, Repr

def linkEntry (lookup : List (String × List String)) (emitted : List String) (sourceRoute raw : String) :
    Except PyError (List MissingLink) :=
  match canonicalizeRoute rt raw with
  | .error (.python e) => .error e
  | .error (.route e) => .ok [.invalid sourceRoute raw e.disposition e.reason]
  | .ok route =>
      if emitted.contains route then .ok []
      else .ok [.missing sourceRoute route
        !(bucket lookup (rt.casefold (forwardFilename route ".json"))).isEmpty]

def linkEntries (lookup : List (String × List String)) (e : Evidence) (emitted : List String)
    (p : String × String) : Except PyError (List MissingLink) :=
  match e.parsed.lookup p.2 with
  | none => .ok []
  | some value => do
      let rows ← (sortedSet (iterOdataIds value)).mapM (linkEntry rt lookup emitted p.1)
      .ok rows.flatten

def missingLinks (lookup : List (String × List String)) (e : Evidence)
    (emitted : List (String × String)) : Except PyError (List MissingLink) := do
  let rows ← (sortedItems (· ≤ ·) emitted).mapM (linkEntries rt lookup e (keys emitted))
  .ok rows.flatten

def MissingLink.blocks : MissingLink → Bool
  | .invalid _ _ disposition _ => disposition ≠ .excluded
  | .missing _ _ _ => false

def closeFixture (v : Verdicts) (fixture : String) : Verdicts :=
  if (keys v.status).contains fixture then v
  else settle fixture .unresolved [.internalUnclassifiedSource] v

def rowsOf (v : Verdicts) (names : List String) (status : Status) : List (String × Reason) :=
  (names.filter fun f => v.status.lookup f = some status).flatMap
    fun f => (bucket v.reasons f).map fun reason => (f,reason)

structure Counts where
  inputRegularFiles : Nat
  emittedFiles : Nat
  excludedFiles : Nat
  unresolvedFiles : Nat
  sidecarFiles : Nat
  conflictFiles : Nat
  deriving DecidableEq, Repr

def countStatus (v : Verdicts) (status : Status) : Nat :=
  (v.status.filter fun p => p.2 = status).length

def countsOf (files : List (String × Bytes)) (v : Verdicts) : Counts :=
  let named := v.conflicts.flatMap fun c => c.listed ++ c.single
  ⟨files.length,countStatus v .emitted,countStatus v .excluded,countStatus v .unresolved,
    (sidecars files).length,(named.dedup.filter (fixtureNames files).contains).length⟩

def accountability (c : Counts) : Bool :=
  c.inputRegularFiles = c.emittedFiles + c.excludedFiles + c.unresolvedFiles + c.sidecarFiles

def utf8 (text : String) : Bytes := text.toUTF8.toList

def treeSha256 (payloads : List (String × Bytes)) : String :=
  Sha256.hexdigest ((sortedItems (· ≤ ·) payloads).flatMap fun p =>
    utf8 p.1 ++ [0] ++ utf8 (Sha256.hexdigest p.2) ++ [10])

structure Report where
  profileId : String
  source : Row
  sourceSha256 : String
  treeSha256 : String
  counts : Counts
  mappings : List Mapping
  excluded : List (String × Reason)
  unresolved : List (String × Reason)
  missingLinks : List MissingLink
  conflicts : List Conflict
  serviceRootPresent : Bool
  accountabilityEquation : Bool
  linkClosureAccounted : Bool
  passed : Bool
  deriving DecidableEq

structure Conversion where
  report : Report
  payloads : List (String × Bytes)

def profileIdOk (profileId : String) : Bool :=
  (profileId.toList.splitOn '-').all fun word =>
    !word.isEmpty && word.all fun c => PyText.isDigit c || (97 ≤ c.toNat && c.toNat ≤ 122)

def profileIdOf (row : Row) : String := rt.lower row.vendor ++ "-" ++ rt.lower row.model

def finalVerdicts (files : List (String × Bytes)) (w : Work) : Verdicts :=
  (fixtureNames files).foldl closeFixture
    (emit (classify rt files w).verdicts (classify rt files w).routes)

def passes (conflicts : List Conflict) (counts : Counts) (present blocking : Bool) : Bool :=
  conflicts.isEmpty && counts.unresolvedFiles = 0 && present && accountability counts && !blocking

def reportOf (row : Row) (sourceSha256 : String) (files : List (String × Bytes)) (w : Work)
    (links : List MissingLink) : Report :=
  let routes := (classify rt files w).routes
  let v := finalVerdicts rt files w
  let counts := countsOf files v
  let conflicts := v.conflicts.dedup
  let present := (keys (emittedRoutes routes)).contains serviceRoot
  let blocking := links.any MissingLink.blocks
  { profileId := profileIdOf rt row
    source := row
    sourceSha256 := sourceSha256
    treeSha256 := treeSha256 (payloadsOf files routes)
    counts := counts
    mappings := (emissions routes).map (mappingOf files)
    excluded := rowsOf v (fixtureNames files) .excluded
    unresolved := rowsOf v (fixtureNames files) .unresolved
    missingLinks := links.dedup
    conflicts := conflicts
    serviceRootPresent := present
    accountabilityEquation := accountability counts
    linkClosureAccounted := !blocking
    passed := passes conflicts counts present blocking }

def conclude (row : Row) (sourceSha256 : String) (files : List (String × Bytes)) (w : Work) :
    Except PyError Conversion := do
  let routes := (classify rt files w).routes
  let links ← missingLinks rt (fixtureLookup rt (fixtureNames files)) w.evidence (emittedRoutes routes)
  .ok ⟨reportOf rt row sourceSha256 files w links,payloadsOf files routes⟩

def buildConversion (row : Row) (archive : Archive) : Except PyError Conversion :=
  if !profileIdOk (profileIdOf rt row) then
    .error (conversionError ("invalid profile id derived from manifest: " ++ profileIdOf rt row))
  else do
    let files ← readArchive archive row.arcname
    let routeMap ← loadRouteMap rt files
    let w ← gather rt files routeMap
    conclude rt row archive.sha256 files w

end

end RedfishCtl.CorpusTree
