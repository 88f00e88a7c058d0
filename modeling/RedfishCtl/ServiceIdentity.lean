import Mathlib.Data.String.Basic
import RedfishCtl.Buckets
import RedfishCtl.Collectors

/-! The instance identity of an exporter that is given none: a UUID derived from what the BMC shows
of itself, kept for good once a walk has found it, or a random one until then. -/
namespace RedfishCtl.ServiceIdentity
open Collectors (Exc linkUri members)
open DellWrite (Raised Response)
open PyText (isSpace strip)
open Stateful (okOfBind)
open PyText (hex isDigit str)
open GenericWrite (defaultErrorHandler)

structure Runtime where
  lower : String → String
  uuid : String → Option (BitVec 128)
  uuid5 : String → BitVec 128

def uuidText (u : BitVec 128) : String :=
  hex 8 (u.toNat / 2^96) ++ "-" ++ hex 4 (u.toNat / 2^80) ++ "-" ++
    hex 4 (u.toNat / 2^64) ++ "-" ++ hex 4 (u.toNat / 2^48) ++ "-" ++
    hex 12 u.toNat

def contains (part text : String) : Bool := decide (part.toList <:+: text.toList)

def secretPrefixes : List String := ["ghp_","gho_","xox","akia","bearer"]

def isTokenChar (c : Char) : Bool := c.isAlphanum || c == '_' || c == '-'

def afterDot (cs : List Char) : Option (List Char) :=
  match cs.dropWhile isTokenChar with
  | '.'::rest => some rest
  | _ => none

/- `eyJ[A-Za-z0-9_-]*\.[A-Za-z0-9_-]+\.[A-Za-z0-9_-]+` at the start of a text. -/
def jwtAt : List Char → Bool
  | 'e' :: 'y' :: 'J' :: rest => match afterDot rest with
      | none => false
      | some payload => payload.head?.any isTokenChar && match afterDot payload with
          | none => false
          | some signature => signature.head?.any isTokenChar
  | _ => false

def isBreak (c : Char) : Bool := isSpace c || c == '.' || c == '_' || c == '/' || c == '-'

def collapse : List Char → List Char
  | [] => []
  | c::rest =>
      if isBreak c then if rest.head?.any isBreak then collapse rest else ' '::collapse rest
      else c::collapse rest

def placeholders : List String :=
  ["default string","to be filled by o e m","n a","na","none","null","unknown"]

def textOf (value : Json) : String := strip (if value.truthy then str value else "")

def isHex (c : Char) : Bool := isDigit c || ('a' ≤ c && c ≤ 'f') || ('A' ≤ c && c ≤ 'F')

def hexValue (c : Char) : ℕ :=
  if isDigit c then c.toNat - 48 else if 'a' ≤ c then c.toNat - 87 else c.toNat - 55

def octets : List Char → List ℕ
  | high::low::rest => (16*hexValue high + hexValue low)::octets rest
  | _ => []

def globalMacSource (value : Json) : Option String :=
  let text := (textOf value).toList.filter fun c => !(c == ':' || c == '-')
  if text.length ≠ 12 ∨ text.all isHex = false then none
  else
    let bytes := octets text
    if bytes = List.replicate 6 0 ∨ bytes = List.replicate 6 255 ∨ bytes.headD 0 &&& 3 ≠ 0 then none
    else some (String.intercalate ":" (bytes.map (hex 2)))

namespace Runtime
variable (py : Runtime)

def looksSecret (text : String) : Bool :=
  contains "://" text || contains "@" text ||
    secretPrefixes.any (fun start => contains start (py.lower text)) || text.toList.tails.any jwtAt

def validInherentIdentity (value : Json) : Bool :=
  let text := textOf value
  if text = "" ∨ py.looksSecret text then false
  else
    let lowered := strip (String.ofList (collapse (py.lower text).toList))
    if placeholders.contains lowered || "$".toList.isPrefixOf text.toList then false
    else
      let compact := (py.lower text).toList.filter fun c =>
        isDigit c || ('a' ≤ c && c ≤ 'z')
      let compact := if ['0','x'].isPrefixOf compact then compact.drop 2 else compact
      compact.any (· ≠ '0')

def managerUuidSource (value : Json) : Option String :=
  if py.validInherentIdentity value then
    match py.uuid (textOf value) with
    | none => none
    | some candidate => if candidate = 0 then none else some (uuidText candidate)
  else none

def serialSource (value : Json) : Option String :=
  if py.validInherentIdentity value then some (textOf value) else none

def instanceId (source : String) : String := uuidText (py.uuid5 source)

def serviceInstanceIdFromSources
    (managerUuids chassisSerials permanentMacs macAddresses : List Json) : Option String :=
  ((managerUuids.findSome? py.managerUuidSource).or
    ((chassisSerials.findSome? py.serialSource).or
      ((permanentMacs.findSome? globalMacSource).or
        (macAddresses.findSome? globalMacSource)))).map py.instanceId

def chassisRank (resource : Json) : ℕ :=
  let text (key : String) := let value := resource.getD key
    if value.truthy then str value else ""
  let description := text "Id" ++ " " ++ text "Name" ++ " " ++ text "Model"
  let normalized := String.ofList ((py.lower description).toList.map fun c =>
    if c = '_' then '-' else c)
  if contains "bmc" normalized || contains "dc-scm" normalized || contains "dcscm" normalized then 0
  else if ["module","component"].contains (py.lower (text "ChassisType")) then 1
  else 2

end Runtime

/- One read, told by the reads that lead to it: two reads of one resource are two places. -/
inductive Place where
  | root (uri : String)
  | under (parent : Place) (nth : ℕ) (uri : String)
  deriving DecidableEq, Repr

def Place.uri : Place → String
  | .root uri => uri
  | .under _ _ uri => uri

def managersPlace : Place := .root "/redfish/v1/Managers"
def chassisPlace : Place := .root "/redfish/v1/Chassis"

def mapping (data : Json) : Json := if data.isObj then data else .obj []

/- A BMC during one scrape: its resources, an empty mapping where there is none, and its replies, an
exception where the transport fails. It serves the resource, and 404 only for what it does not have. -/
structure Bmc where
  resource : Place → Json
  reply : Place → Except Exc Response
  served : ∀ place r data, reply place = .ok r → 200 ≤ r.statusCode → r.statusCode < 300 →
    r.json = .ok data → resource place = mapping data
  missing : ∀ place r, reply place = .ok r → r.statusCode = 404 → resource place = .obj []

inductive Failure where
  | transport (e : Exc)
  | status (raised : Raised)
  | undecodable (message : String)
  | python (e : PyError)

def baseQuery : Except Exc Response → Except Failure Json
  | .error e => .error (.transport e)
  | .ok r => match defaultErrorHandler r with
      | .error raised => .error (.status raised)
      | .ok _ => r.json.mapError .undecodable

def identityResource (reply : Except Exc Response) : Except Failure Json :=
  match baseQuery reply with
  | .error (.status (.resourceNotFound _)) => .ok (.obj [])
  | .error failure => .error failure
  | .ok data => .ok (mapping data)

def memberPlaces (parent : Place) (uris : List String) : List Place :=
  (uris.insertionSort (· ≤ ·)).zipIdx.map fun p => .under parent p.2 p.1

def placesOf (parent : Place) (collection : Json) : Except Failure (List Place) :=
  ((members collection).mapError .python).map (memberPlaces parent)

section
variable (py : Runtime) (bmc : Bmc)

def readAll : List Place → Except Failure (List (Place × Json))
  | [] => .ok []
  | place::rest => do
      let resource ← identityResource (bmc.reply place)
      let others ← readAll rest
      .ok ((place,resource)::others)

def rankLe (a b : Place × Json) : Prop :=
  py.chassisRank a.2 < py.chassisRank b.2 ∨
    py.chassisRank a.2 = py.chassisRank b.2 ∧ a.1.uri ≤ b.1.uri

instance : DecidableRel (rankLe py) := fun _ _ => inferInstanceAs (Decidable (_ ∨ _))

/- The first burned-in address ends the walk, the others leave what they are configured to. -/
def walkInterfaces (macs : List Json) : List Place → Except Failure (String ⊕ List Json)
  | [] => .ok (.inr macs)
  | place::rest => do
      let interface ← identityResource (bmc.reply place)
      match py.serviceInstanceIdFromSources [] [] [interface.getD "PermanentMACAddress"] [] with
      | some id => .ok (.inl id)
      | none => walkInterfaces (macs ++ [interface.getD "MACAddress"]) rest

def walkManagers (macs : List Json) : List (Place × Json) → Except Failure (String ⊕ List Json)
  | [] => .ok (.inr macs)
  | (place,manager)::rest => match linkUri manager "EthernetInterfaces" with
      | none => walkManagers macs rest
      | some uri => do
          let collection ← identityResource (bmc.reply (.under place 0 uri))
          let places ← placesOf (.under place 0 uri) collection
          match ← walkInterfaces py bmc macs places with
          | .inl id => .ok (.inl id)
          | .inr macs => walkManagers macs rest

def discoverServiceInstanceId : Except Failure (Option String) := do
  let managersCollection ← identityResource (bmc.reply managersPlace)
  let managers ← readAll bmc (← placesOf managersPlace managersCollection)
  match py.serviceInstanceIdFromSources (managers.map fun p => p.2.getD "UUID") [] [] [] with
  | some id => .ok (some id)
  | none => do
      let chassisCollection ← identityResource (bmc.reply chassisPlace)
      let chassis ← readAll bmc (← placesOf chassisPlace chassisCollection)
      let ranked := chassis.insertionSort (rankLe py)
      match py.serviceInstanceIdFromSources [] (ranked.map fun p => p.2.getD "SerialNumber")
          [] [] with
      | some id => .ok (some id)
      | none => do
          match ← walkManagers py bmc [] managers with
          | .inl id => .ok (some id)
          | .inr macs => .ok (py.serviceInstanceIdFromSources [] [] [] macs)

def discovered : Option String :=
  match discoverServiceInstanceId py bmc with
  | .ok found => found
  | .error _ => none

end

structure Manager where
  derived : Option String
  fallback : Option String

def newManager : Manager := ⟨none,none⟩

structure Scrape where
  bmc : Bmc
  uuid4 : BitVec 128

section
variable (py : Runtime)

def defaultServiceInstanceId (manager : Manager) (scrape : Scrape) : String × Manager :=
  match manager.derived with
  | some id => (id,manager)
  | none => match discovered py scrape.bmc with
      | some id => (id,⟨some id,manager.fallback⟩)
      | none => match manager.fallback with
          | some id => (id,manager)
          | none => (uuidText scrape.uuid4,⟨none,some (uuidText scrape.uuid4)⟩)

def instanceIds (manager : Manager) : List Scrape → List String
  | [] => []
  | scrape::rest =>
      (defaultServiceInstanceId py manager scrape).1 ::
        instanceIds (defaultServiceInstanceId py manager scrape).2 rest

end

/-! What the BMC shows of itself, as one list of sources over the resources as they are. -/

structure Source where
  place : Place
  text : String
  deriving DecidableEq, Repr

section
variable (py : Runtime) (view : Place → Json)

def listed (parent : Place) : List Place :=
  memberPlaces parent ((members (view parent)).toOption.getD [])

def found (source : Json → Option String) (places : List Place) : List Source :=
  places.filterMap fun place => (source (view place)).map (Source.mk place)

def managerUuids : List Source :=
  found view (fun resource => py.managerUuidSource (resource.getD "UUID"))
    (listed view managersPlace)

def rankedChassis : List Place :=
  (listed view chassisPlace).insertionSort fun a b => rankLe py (a,view a) (b,view b)

def chassisSerials : List Source :=
  found view (fun resource => py.serialSource (resource.getD "SerialNumber"))
    (rankedChassis py view)

def interfacesOf (manager : Place) : List Place :=
  match linkUri (view manager) "EthernetInterfaces" with
  | none => []
  | some uri => listed view (.under manager 0 uri)

def interfaces : List Place := (listed view managersPlace).flatMap (interfacesOf view)

def macs (key : String) : List Source :=
  found view (fun resource => globalMacSource (resource.getD key)) (interfaces view)

def sources : List Source :=
  managerUuids py view ++ (chassisSerials py view ++
    (macs view "PermanentMACAddress" ++ macs view "MACAddress"))

end

/- A failure that `_identity_resource` takes for a missing resource. -/
def keptBack (reply : Except Exc Response) : Bool :=
  match reply with
  | .error _ => false
  | .ok r => !(200 ≤ r.statusCode && r.statusCode < 300) &&
      !(r.statusCode == 401 || r.statusCode == 403 || r.statusCode == 404)

def Place.reached (kept : Place → Bool) : Place → Bool
  | .root uri => !kept (.root uri)
  | .under parent nth uri => parent.reached kept && !kept (.under parent nth uri)

def Bmc.reached (bmc : Bmc) (source : Source) : Bool :=
  source.place.reached fun place => keptBack (bmc.reply place)

/- The first source is not behind such a failure, or the first one that is not gives the same
UUID. -/
def InReach (py : Runtime) (bmc : Bmc) : Prop :=
  ∀ first ∈ (sources py bmc.resource).head?, bmc.reached first ∨
    ∃ other ∈ (sources py bmc.resource).find? bmc.reached,
      py.instanceId other.text = py.instanceId first.text

/-! The walk, where it ends, is the list of sources over what the replies show. -/

section
variable {py : Runtime} {bmc : Bmc}

def masked (kept : Place → Bool) (view : Place → Json) (place : Place) : Json :=
  if kept place then .obj [] else view place

def Bmc.seen (bmc : Bmc) : Place → Json :=
  masked (fun place => keptBack (bmc.reply place)) bmc.resource

theorem handlerServes {r} (low : 200 ≤ r.statusCode) (high : r.statusCode < 300) :
    ∃ respond, defaultErrorHandler r = .ok respond := by
  unfold defaultErrorHandler
  by_cases ok : r.statusCode = 200
  · exact ⟨_,if_pos ok⟩
  by_cases accepted : r.statusCode = 202
  · exact ⟨_,by rw [if_neg ok,if_pos accepted]⟩
  · by_cases empty : r.statusCode = 204
    · exact ⟨_,by rw [if_neg ok,if_neg accepted,if_pos empty]⟩
    · exact ⟨_,by rw [if_neg ok,if_neg accepted,if_neg empty,if_pos ⟨low,high⟩]⟩

theorem handlerRefuses {r} (failure : ¬(200 ≤ r.statusCode ∧ r.statusCode < 300)) :
    defaultErrorHandler r =
      if r.statusCode = 401 then .error (.redfishUnauthorized (DellWrite.parseError r))
      else if r.statusCode = 403 then .error (.redfishForbidden (DellWrite.parseError r))
      else .error (.resourceNotFound (DellWrite.parseError r)) := by
  unfold defaultErrorHandler
  rw [if_neg (by omega),if_neg (by omega),if_neg (by omega),if_neg failure]

theorem identityResourceSeen {place data} (read : identityResource (bmc.reply place) = .ok data) :
    data = bmc.seen place := by
  unfold Bmc.seen masked
  cases reply : bmc.reply place with
  | error e => simp [identityResource,baseQuery,reply] at read
  | ok r =>
    by_cases success : 200 ≤ r.statusCode ∧ r.statusCode < 300
    · obtain ⟨respond,handled⟩ := handlerServes success.1 success.2
      cases body : r.json with
      | error message =>
        simp [identityResource,baseQuery,reply,handled,body,Except.mapError] at read
      | ok document =>
        have shown : mapping document = data := by
          simpa [identityResource,baseQuery,reply,handled,body,Except.mapError] using read
        rw [if_neg (by simp [keptBack,reply,success.1,success.2]),← shown,
          bmc.served place r document reply success.1 success.2 body]
    · have handled := handlerRefuses success
      by_cases unauthorized : r.statusCode = 401
      · simp [identityResource,baseQuery,reply,handled,unauthorized] at read
      by_cases forbidden : r.statusCode = 403
      · simp [identityResource,baseQuery,reply,handled,forbidden] at read
      have empty : Json.obj [] = data := by
        simpa [identityResource,baseQuery,reply,handled,unauthorized,forbidden] using read
      -- what is left is 404, where there is no resource, and what is kept back
      by_cases absent : r.statusCode = 404
      · rw [if_neg (by simp [keptBack,reply,absent]),bmc.missing place r reply absent,empty]
      · rw [if_pos (by simp [keptBack,reply]; omega),empty]

variable {places : List Place}

theorem placesOfListed {parent} (listing : placesOf parent (bmc.seen parent) = .ok places) :
    places = listed bmc.seen parent := by
  unfold placesOf at listing
  unfold listed
  cases uris : members (bmc.seen parent) with
  | error e => simp [uris,Except.mapError,Except.map] at listing
  | ok names =>
    have same : memberPlaces parent names = places := by
      simpa [uris,Except.mapError,Except.map] using listing
    exact same.symm

theorem readAllSeen {pairs} (read : readAll bmc places = .ok pairs) :
    pairs = places.map fun place => (place,bmc.seen place) := by
  induction places generalizing pairs with
  | nil => exact (Except.ok.inj read).symm
  | cons place rest ih =>
    obtain ⟨data,own,read⟩ := okOfBind read
    obtain ⟨others,tail,read⟩ := okOfBind read
    rw [← Except.ok.inj read,identityResourceSeen own,ih tail,List.map_cons]

def addresses (py : Runtime) (view : Place → Json) (macs : List Json) (places : List Place) :
    String ⊕ List Json :=
  match places.findSome? fun place => globalMacSource ((view place).getD "PermanentMACAddress") with
  | some text => .inl (py.instanceId text)
  | none => .inr (macs ++ places.map fun place => (view place).getD "MACAddress")

variable (view : Place → Json)

theorem addressesAppend (macs : List Json) (xs ys : List Place) :
    addresses py view macs (xs ++ ys) = match addresses py view macs xs with
      | .inl id => .inl id
      | .inr macs => addresses py view macs ys := by
  unfold addresses
  rw [List.findSome?_append]
  cases xs.findSome? fun place => globalMacSource ((view place).getD "PermanentMACAddress" ) with
  | some text => rfl
  | none => simp

section
variable (values : List Json)

theorem uuidsOnly : py.serviceInstanceIdFromSources values [] [] [] =
    (values.findSome? py.managerUuidSource).map py.instanceId := by
  simp [Runtime.serviceInstanceIdFromSources]

theorem serialsOnly : py.serviceInstanceIdFromSources [] values [] [] =
    (values.findSome? py.serialSource).map py.instanceId := by
  simp [Runtime.serviceInstanceIdFromSources]

theorem permanentOnly : py.serviceInstanceIdFromSources [] [] values [] =
    (values.findSome? globalMacSource).map py.instanceId := by
  simp [Runtime.serviceInstanceIdFromSources]

theorem addressesOnly : py.serviceInstanceIdFromSources [] [] [] values =
    (values.findSome? globalMacSource).map py.instanceId := by
  simp [Runtime.serviceInstanceIdFromSources]

end

theorem walkInterfacesSeen {macs out} (walked : walkInterfaces py bmc macs places = .ok out) :
    out = addresses py bmc.seen macs places := by
  induction places generalizing macs with
  | nil =>
    rw [← Except.ok.inj walked]
    simp [addresses]
  | cons place rest ih =>
    obtain ⟨interface,read,walked⟩ := okOfBind walked
    rw [identityResourceSeen read,permanentOnly,List.findSome?_singleton] at walked
    cases permanent : globalMacSource ((bmc.seen place).getD "PermanentMACAddress") with
    | some text =>
      rw [permanent] at walked
      rw [← Except.ok.inj walked]
      simp [addresses,permanent]
    | none =>
      rw [permanent] at walked
      rw [ih walked]
      simp [addresses,permanent]

theorem walkManagersSeen {macs} {managers : List Place} {out}
    (walked : walkManagers py bmc macs (managers.map fun place => (place,bmc.seen place)) = .ok out) :
    out = addresses py bmc.seen macs (managers.flatMap (interfacesOf bmc.seen)) := by
  induction managers generalizing macs with
  | nil =>
    rw [← Except.ok.inj walked]
    simp [addresses]
  | cons manager rest ih =>
    rw [List.flatMap_cons,addressesAppend]
    rw [List.map_cons,walkManagers] at walked
    cases linked : linkUri (bmc.seen manager) "EthernetInterfaces" with
    | none =>
      rw [linked] at walked
      rw [ih walked]
      simp [interfacesOf,linked,addresses]
    | some uri =>
      rw [linked] at walked
      obtain ⟨collection,read,walked⟩ := okOfBind walked
      obtain ⟨places,listing,walked⟩ := okOfBind walked
      obtain ⟨own,interfaces,walked⟩ := okOfBind walked
      rw [identityResourceSeen read] at listing
      have known : interfacesOf bmc.seen manager = places := by
        rw [placesOfListed listing]
        simp [interfacesOf,linked]
      rw [known,← walkInterfacesSeen interfaces]
      cases own with
      | inl id => exact (Except.ok.inj walked).symm
      | inr macs => exact ih walked

theorem headFound (source : Json → Option String) (places : List Place) :
    (found view source places).head?.map Source.text =
      places.findSome? fun place => source (view place) := by
  rw [found,List.head?_filterMap,List.map_findSome?]
  congr 1
  funext place
  cases text : source (view place) <;> simp [text]

theorem firstText : (sources py view).head?.map Source.text =
      ((listed view managersPlace).findSome? fun place =>
          py.managerUuidSource ((view place).getD "UUID")).or
        (((rankedChassis py view).findSome? fun place =>
            py.serialSource ((view place).getD "SerialNumber")).or
          (((interfaces view).findSome? fun place =>
              globalMacSource ((view place).getD "PermanentMACAddress")).or
            ((interfaces view).findSome? fun place =>
              globalMacSource ((view place).getD "MACAddress")))) := by
  simp only [sources,List.head?_append,Option.map_or,managerUuids,chassisSerials,macs,headFound]

theorem rankedSeen :
    ((listed view chassisPlace).map fun place => (place,view place)).insertionSort (rankLe py) =
      (rankedChassis py view).map fun place => (place,view place) :=
  (List.map_insertionSort (fun a b => rankLe py (a,view a) (b,view b)) (rankLe py)
    (fun place => (place,view place)) _ fun _ _ _ _ => Iff.rfl).symm

theorem discoverSeen {found} (done : discoverServiceInstanceId py bmc = .ok found) :
    found = ((sources py bmc.seen).head?.map Source.text).map py.instanceId := by
  obtain ⟨managersCollection,read,done⟩ := okOfBind done
  obtain ⟨places,listing,done⟩ := okOfBind done
  obtain ⟨managers,each,done⟩ := okOfBind done
  rw [identityResourceSeen read] at listing
  rw [placesOfListed listing] at each
  rw [readAllSeen each] at done
  rw [uuidsOnly,List.map_map,List.findSome?_map] at done
  rw [firstText]
  cases uuid : (listed bmc.seen managersPlace).findSome? fun place =>
      py.managerUuidSource ((bmc.seen place).getD "UUID") with
  | some text =>
    simp only [Function.comp_def,uuid,Option.map_some] at done
    rw [← Except.ok.inj done]
    rfl
  | none =>
    simp only [Function.comp_def,uuid,Option.map_none] at done
    obtain ⟨chassisCollection,read,done⟩ := okOfBind done
    obtain ⟨places,listing,done⟩ := okOfBind done
    obtain ⟨chassis,each,done⟩ := okOfBind done
    rw [identityResourceSeen read] at listing
    rw [placesOfListed listing] at each
    rw [readAllSeen each,rankedSeen,serialsOnly,List.map_map,List.findSome?_map] at done
    cases serial : (rankedChassis py bmc.seen).findSome? fun place =>
        py.serialSource ((bmc.seen place).getD "SerialNumber") with
    | some text =>
      simp only [Function.comp_def,serial,Option.map_some] at done
      rw [← Except.ok.inj done]
      rfl
    | none =>
      simp only [Function.comp_def,serial,Option.map_none] at done
      obtain ⟨out,walked,done⟩ := okOfBind done
      rw [walkManagersSeen walked] at done
      change found = Option.map py.instanceId
        (((interfaces bmc.seen).findSome? _).or ((interfaces bmc.seen).findSome? _))
      change (match addresses py bmc.seen [] (interfaces bmc.seen) with
        | .inl id => Except.ok (some id)
        | .inr macs => .ok (py.serviceInstanceIdFromSources [] [] [] macs)) = .ok found at done
      unfold addresses at done
      cases permanent : (interfaces bmc.seen).findSome? fun place =>
          globalMacSource ((bmc.seen place).getD "PermanentMACAddress") with
      | some text =>
        rw [permanent] at done
        rw [← Except.ok.inj done]
        rfl
      | none =>
        rw [permanent] at done
        rw [← Except.ok.inj done,addressesOnly,List.nil_append,List.findSome?_map,Option.none_or]
        simp only [Function.comp_def]

end

/-! Taking resources for missing only takes sources away. -/

section
variable {py : Runtime} {kept : Place → Bool} {view : Place → Json}

theorem listedMasked (parent : Place) :
    listed (masked kept view) parent = if kept parent then [] else listed view parent := by
  unfold listed masked
  split <;> rfl

theorem listedParent {parent place} (mem : place ∈ listed view parent) :
    ∃ nth uri, place = .under parent nth uri := by
  obtain ⟨p,_,rfl⟩ := List.mem_map.mp mem
  exact ⟨p.2,p.1,rfl⟩

theorem listedReached (parent : Place) :
    (listed view parent).filter (Place.reached kept) =
      if parent.reached kept then (listed view parent).filter fun place => !kept place else [] := by
  have own : ∀ place ∈ listed view parent,
      place.reached kept = (parent.reached kept && !kept place) := by
    intro place mem
    obtain ⟨nth,uri,rfl⟩ := listedParent mem
    rfl
  rw [List.filter_congr own]
  cases parent.reached kept <;> simp

theorem foundFilter (source : Json → Option String) (places : List Place) (keep : Place → Bool) :
    found view source (places.filter keep) =
      (found view source places).filter fun s => keep s.place := by
  unfold found
  rw [List.filterMap_filter,List.filter_filterMap]
  congr 1
  funext place
  cases source (view place) <;> cases own : keep place <;> simp [own,Option.filter]

variable {source : Json → Option String}

theorem foundMasked (blank : source (.obj []) = none)
    (places : List Place) : found (masked kept view) source places =
      found view source (places.filter fun place => !kept place) := by
  unfold found masked
  rw [List.filterMap_filter]
  congr 1
  funext place
  cases kept place <;> simp [blank]

theorem foundReached (blank : source (.obj []) = none) {places shown}
    (same : (shown.filter fun place => !kept place) = places.filter (Place.reached kept)) :
    found (masked kept view) source shown =
      (found view source places).filter fun s => s.place.reached kept := by
  rw [foundMasked blank,same,foundFilter]

theorem rootReached {uri} :
    ((listed (masked kept view) (.root uri)).filter fun place => !kept place) =
      (listed view (.root uri)).filter (Place.reached kept) := by
  rw [listedReached,listedMasked]
  cases own : kept (.root uri) <;> simp [Place.reached,own]

theorem rankLeTotal (a b : Place × Json) : rankLe py a b ∨ rankLe py b a := by
  rcases Nat.lt_trichotomy (py.chassisRank a.2) (py.chassisRank b.2) with less | same | more
  · exact .inl (.inl less)
  · rcases le_total a.1.uri b.1.uri with before | after
    · exact .inl (.inr ⟨same,before⟩)
    · exact .inr (.inr ⟨same.symm,after⟩)
  · exact .inr (.inl more)

theorem rankLeTrans {a b c} (first : rankLe py a b) (second : rankLe py b c) : rankLe py a c := by
  rcases first with less | ⟨same,before⟩
  · rcases second with next | ⟨level,_⟩
    · exact .inl (less.trans next)
    · exact .inl (less.trans_eq level)
  · rcases second with next | ⟨level,after⟩
    · exact .inl (same.trans_lt next)
    · exact .inr ⟨same.trans level,le_trans before after⟩

theorem rankedReached : ((rankedChassis py (masked kept view)).filter fun place => !kept place) =
      (rankedChassis py view).filter (Place.reached kept) := by
  have total (view : Place → Json) : Std.Total fun a b => rankLe py (a,view a) (b,view b) :=
    ⟨fun a b => rankLeTotal (a,view a) (b,view b)⟩
  have trans (view : Place → Json) : IsTrans Place fun a b => rankLe py (a,view a) (b,view b) :=
    ⟨fun _ _ _ => rankLeTrans⟩
  unfold rankedChassis chassisPlace
  rw [Buckets.filterInsertionSort,Buckets.filterInsertionSort,rootReached]
  -- of a chassis that can be reached the document is the one it has
  apply Buckets.insertionSortCongr
  have shown : ∀ place ∈ (listed view (.root "/redfish/v1/Chassis")).filter (Place.reached kept),
      masked kept view place = view place := by
    intro place mem
    have open' : kept place = false := by
      cases place <;> simp_all [Place.reached]
    simp [masked,open']
  intro a memA b memB
  rw [shown a memA,shown b memB]

theorem interfacesOfAway {manager} (away : manager.reached kept = false) :
    (interfacesOf view manager).filter (Place.reached kept) = [] := by
  unfold interfacesOf
  cases linkUri (view manager) "EthernetInterfaces" with
  | none => rfl
  | some uri =>
    have behind : (Place.under manager 0 uri).reached kept = false := by
      rw [Place.reached,away,Bool.false_and]
    simp [listedReached,behind]

theorem interfacesOfReached {manager} (above : manager.reached kept = !kept manager) :
    ((interfacesOf (masked kept view) manager).filter fun place => !kept place) =
      (interfacesOf view manager).filter (Place.reached kept) := by
  cases own : kept manager with
  | true =>
    have blank : masked kept view manager = .obj [] := by simp [masked,own]
    rw [interfacesOfAway (by simp [above,own]),interfacesOf,blank]
    rfl
  | false =>
    have same : masked kept view manager = view manager := by simp [masked,own]
    have near : manager.reached kept = true := by simp [above,own]
    unfold interfacesOf
    rw [same]
    cases linkUri (view manager) "EthernetInterfaces" with
    | none => rfl
    | some uri =>
      simp only [listedReached,listedMasked,Place.reached,near,Bool.true_and]
      cases kept (.under manager 0 uri) <;> simp

theorem interfacesReached : ((interfaces (masked kept view)).filter fun place => !kept place) =
      (interfaces view).filter (Place.reached kept) := by
  unfold interfaces
  rw [List.filter_flatMap,List.filter_flatMap,listedMasked]
  have root : managersPlace.reached kept = !kept managersPlace := rfl
  cases own : kept managersPlace with
  | true =>
    have away : ∀ manager ∈ listed view managersPlace,
        (interfacesOf view manager).filter (Place.reached kept) = [] := by
      intro manager mem
      obtain ⟨nth,uri,rfl⟩ := listedParent mem
      exact interfacesOfAway (by rw [Place.reached,root,own]; rfl)
    rw [if_pos rfl,List.flatMap_nil,eq_comm,List.flatMap_eq_nil_iff]
    exact away
  | false =>
    apply List.flatMap_congr
    intro manager mem
    obtain ⟨nth,uri,rfl⟩ := listedParent mem
    exact interfacesOfReached (by rw [Place.reached,root,own]; rfl)

theorem sourcesMasked : sources py (masked kept view) =
    (sources py view).filter fun s => s.place.reached kept := by
  have absent (key : String) : (Json.obj []).getD key = .null := rfl
  have uuids : managerUuids py (masked kept view) =
      (managerUuids py view).filter fun s => s.place.reached kept :=
    foundReached (by rw [absent]; rfl) rootReached
  have serials : chassisSerials py (masked kept view) =
      (chassisSerials py view).filter fun s => s.place.reached kept :=
    foundReached (by rw [absent]; rfl) rankedReached
  have addresses (key : String) : macs (masked kept view) key =
      (macs view key).filter fun s => s.place.reached kept :=
    foundReached (by rw [absent]; rfl) interfacesReached
  simp [sources,uuids,serials,addresses]

end

section
variable {py : Runtime} {bmc : Bmc}

theorem discoveredFirst {id} (hit : discovered py bmc = some id) :
    ∃ other, (sources py bmc.resource).find? bmc.reached = some other ∧
      py.instanceId other.text = id := by
  unfold discovered at hit
  cases done : discoverServiceInstanceId py bmc with
  | error e => simp [done] at hit
  | ok result =>
    rw [done] at hit
    have first := discoverSeen done
    rw [Bmc.seen,sourcesMasked,List.head?_filter] at first
    change result = (((sources py bmc.resource).find? bmc.reached).map _).map _ at first
    cases reached : (sources py bmc.resource).find? bmc.reached with
    | none =>
      rw [first,reached] at hit
      cases hit
    | some other =>
      rw [first,reached] at hit
      exact ⟨other,rfl,Option.some.inj hit⟩

theorem firstIffInReach {id} (hit : discovered py bmc = some id) :
    ((sources py bmc.resource).head?.map fun s => py.instanceId s.text) = some id ↔
      InReach py bmc := by
  obtain ⟨other,reached,same⟩ := discoveredFirst hit
  unfold InReach
  cases all : sources py bmc.resource with
  | nil => simp [all] at reached
  | cons first rest =>
    simp only [List.head?_cons,Option.map_some,Option.mem_def,Option.some.injEq,forall_eq']
    constructor
    · intro equal
      exact .inr ⟨other,by rw [← all,reached],same.trans equal.symm⟩
    rintro (own | ⟨next,hit,equal⟩)
    · rw [all,List.find?_cons_of_pos own] at reached
      rw [Option.some.inj reached,same]
    · rw [← all,reached] at hit
      rw [← equal,← Option.some.inj hit,same]

theorem discoveredUuid {id} (hit : discovered py bmc = some id) : ∃ u, id = uuidText u := by
  obtain ⟨other,_,same⟩ := discoveredFirst hit
  exact ⟨py.uuid5 other.text,same.symm⟩

end

/-! Runs of scrapes. -/

section
variable {py : Runtime}

theorem derivedStays (id : String) (fallback : Option String) (scrapes : List Scrape) :
    instanceIds py ⟨some id,fallback⟩ scrapes = List.replicate scrapes.length id := by
  induction scrapes with
  | nil => rfl
  | cons scrape rest ih => exact congrArg (id :: ·) ih

theorem instanceIdsFrom (drawn : Option (BitVec 128)) (scrapes : List Scrape) :
    ∃ (fallback id : BitVec 128) (before after : List Scrape), (∀ u ∈ drawn, u = fallback) ∧
      scrapes = before ++ after ∧
      instanceIds py ⟨none,drawn.map uuidText⟩ scrapes =
        List.replicate before.length (uuidText fallback) ++
          List.replicate after.length (uuidText id) ∧
      (∀ scrape ∈ before, discovered py scrape.bmc = none) ∧
      ∀ scrape ∈ after.head?, discovered py scrape.bmc = some (uuidText id) := by
  induction scrapes generalizing drawn with
  | nil =>
    refine ⟨drawn.getD 0,0,[],[],?_,rfl,rfl,by simp,by simp⟩
    intro u mem
    rw [Option.mem_def.mp mem,Option.getD_some]
  | cons scrape rest ih =>
    cases hit : discovered py scrape.bmc with
    | some id =>
      obtain ⟨u,rfl⟩ := discoveredUuid hit
      refine ⟨drawn.getD 0,u,[],scrape::rest,?_,rfl,?_,by simp,?_⟩
      · intro u mem
        rw [Option.mem_def.mp mem,Option.getD_some]
      · rw [instanceIds,defaultServiceInstanceId,hit]
        exact congrArg (uuidText u :: ·) (derivedStays _ _ rest)
      · intro other first
        rw [← Option.some.inj first,hit]
    | none =>
      obtain ⟨fallback,id,before,after,known,split,values,missed,found⟩ :=
        ih (some (drawn.getD scrape.uuid4))
      have same : drawn.getD scrape.uuid4 = fallback := known _ rfl
      have step : defaultServiceInstanceId py ⟨none,drawn.map uuidText⟩ scrape =
          (uuidText fallback,⟨none,some (uuidText fallback)⟩) := by
        rw [defaultServiceInstanceId,hit,← same]
        cases drawn <;> rfl
      refine ⟨fallback,id,scrape::before,after,?_,by rw [split,List.cons_append],?_,?_,found⟩
      · intro u mem
        rw [← same,Option.mem_def.mp mem,Option.getD_some]
      · rw [instanceIds,step,← same,← Option.map_some,values,same]
        rfl
      · intro other mem
        rcases List.mem_cons.mp mem with rfl | later
        · exact hit
        · exact missed other later

end

/- The ids are one random UUID and then one that was found, that of the first source exactly where
no failure that passes for a missing resource stands before it. -/
theorem instanceIdsStable (py : Runtime) (scrapes : List Scrape) :
    ∃ (fallback id : BitVec 128) (before after : List Scrape), scrapes = before ++ after ∧
      instanceIds py newManager scrapes =
        List.replicate before.length (uuidText fallback) ++
          List.replicate after.length (uuidText id) ∧
      (∀ scrape ∈ before, discovered py scrape.bmc = none) ∧
      ∀ scrape ∈ after.head?, discovered py scrape.bmc = some (uuidText id) ∧
        (((sources py scrape.bmc.resource).head?.map fun s => py.instanceId s.text) =
            some (uuidText id) ↔ InReach py scrape.bmc) := by
  obtain ⟨fallback,id,before,after,_,split,values,missed,found⟩ := instanceIdsFrom none scrapes
  refine ⟨fallback,id,before,after,split,values,missed,?_⟩
  intro scrape first
  have hit := found scrape first
  exact ⟨hit,firstIffInReach hit⟩

def plainRuntime : Runtime where
  lower text := String.ofList (text.toList.map Char.toLower)
  uuid text :=
    let digits := text.toList.filter (· ≠ '-')
    if digits.length = 32 ∧ digits.all isHex then
      some (BitVec.ofNat 128 (digits.foldl (fun n c => 16*n + hexValue c) 0))
    else none
  uuid5 text := BitVec.ofNat 128 (text.toList.foldl (fun n c => 256*n + c.toNat) 0)

def busyBmc (resource : Place → Json) (mappings : ∀ place, mapping (resource place) = resource place)
    (busy : Place → Bool) : Bmc where
  resource := resource
  reply place := .ok (if busy place then ⟨503,none,.ok (.obj []),""⟩
    else ⟨200,none,.ok (resource place),""⟩)
  served := by
    intro place r data reply low high body
    cases own : busy place with
    | true =>
      rw [own,if_pos rfl] at reply
      simp [← Except.ok.inj reply] at high
    | false =>
      rw [own] at reply
      rw [← Except.ok.inj reply] at body
      rw [← mappings place,Except.ok.inj body]
  missing := by
    intro place r reply absent
    rw [← Except.ok.inj reply] at absent
    cases own : busy place <;> simp [own] at absent

def collectionOf (uri : String) : Json := .obj [("Members",.arr [.obj [("@odata.id",.str uri)]])]

def rackResource : Place → Json
  | .root uri =>
      if uri = "/redfish/v1/Managers" then collectionOf "/redfish/v1/Managers/BMC"
      else if uri = "/redfish/v1/Chassis" then collectionOf "/redfish/v1/Chassis/BMC_0"
      else .obj []
  | .under _ _ uri =>
      if uri = "/redfish/v1/Managers/BMC" then
        .obj [("UUID",.str "7d2b3c1a-55aa-4f10-9c7e-0242ac120002")]
      else if uri = "/redfish/v1/Chassis/BMC_0" then
        .obj [("Id",.str "BMC_0"),("SerialNumber",.str "HA256S016142")]
      else .obj []

theorem rackMappings (place : Place) : mapping (rackResource place) = rackResource place := by
  unfold rackResource
  split
  · split
    · rfl
    · split <;> rfl
  · split
    · rfl
    · split <;> rfl

theorem busyManagerSkipped : let busy := busyBmc rackResource rackMappings fun place =>
      place.uri == "/redfish/v1/Managers/BMC"
    let idle := busyBmc rackResource rackMappings fun _ => false
    let serial := plainRuntime.instanceId "HA256S016142"
    let uuid := plainRuntime.instanceId "7d2b3c1a-55aa-4f10-9c7e-0242ac120002"
    instanceIds plainRuntime newManager [⟨busy,0⟩,⟨idle,0⟩] = [serial,serial] ∧
      ((sources plainRuntime busy.resource).head?.map fun s => plainRuntime.instanceId s.text) =
        some uuid ∧
      instanceIds plainRuntime newManager [⟨idle,0⟩,⟨busy,0⟩] = [uuid,uuid] ∧ serial ≠ uuid := by
  refine ⟨?_,?_,?_,?_⟩
  · decide +kernel
  · decide +kernel
  · decide +kernel
  · decide +kernel

end RedfishCtl.ServiceIdentity
