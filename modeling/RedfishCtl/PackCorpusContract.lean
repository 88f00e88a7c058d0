import RedfishCtl.PackCorpus
import RedfishCtl.Stateful

/-! The contract of a validated corpus: URLs and captured files correspond one to one, and the mock
server loads the status sidecar of the archive. -/
namespace RedfishCtl.PackCorpus
open AssocList
open Stateful (okOfBind)
open Discovery (restApiStatusMapJson restApiMapNpy)
open MockCorpus (endsWith loadRestApiMapJson validateStatus validateStatuses validateSections required)
open Json (number obj pyEq sameNumber str)
open PyText (int truncate)

def sectionOf (m : ApiMap) (key : String) : Members := ((m.entries.lookup key).getD .null).members

def mappedFiles (m : ApiMap) : Members := sectionOf m urlFileMapping ++ sectionOf m errorFileMapping

def fileOf (m : ApiMap) (url : String) : String :=
  match (mappedFiles m).lookup url with
  | some (.str name) => baseName name
  | _ => ""

theorem requiredSectionOk {m key d} (read : requiredSection m key = .ok d) :
    sectionOf m key = d ∧ Distinct d := by
  unfold requiredSection at read
  split at read
  · cases read
  · rename_i own found
    cases read
    rw [sectionOf,found]
    exact ⟨rfl,m.sections key _ found⟩
  · cases read

theorem optionalSectionOk {m key d} (read : optionalSection m key = .ok d) :
    sectionOf m key = d ∧ Distinct d := by
  unfold optionalSection at read
  split at read
  · rename_i absent
    cases read
    rw [sectionOf,absent]
    exact ⟨rfl,List.nodup_nil⟩
  · rename_i own found
    cases read
    rw [sectionOf,found]
    exact ⟨rfl,m.sections key _ found⟩
  rename_i v plain found
  split at read
  · cases read
  cases read
  rw [sectionOf,found]
  refine ⟨?_,List.nodup_nil⟩
  cases v with
  | obj d => exact absurd rfl (plain d)
  | _ => rfl

variable {files : List (String × String)}

theorem fileNamesOk {l} (read : fileNames l = .ok files) : l = files.map fun p => (p.1,.str p.2) := by
  induction l generalizing files with
  | nil =>
    cases read
    rfl
  | cons p rest ih =>
    obtain ⟨url,v⟩ := p
    cases v with
    | str name =>
      obtain ⟨others,later,same⟩ := okOfBind read
      cases same
      rw [List.map_cons,← ih later]
    | _ => cases read

theorem problemNil {failed text} (none : problem failed text = []) : failed = false := by
  cases failed with
  | false => rfl
  | true => cases none

theorem problemContains {l : List String} {a text} (none : problem (!l.contains a) text = []) :
    a ∈ l := by
  simpa using problemNil none

structure Validated (host : HostDir) (m : ApiMap) (names : List String) (ufm efm : Members)
    (files : List (String × String)) : Prop where
  urls : sectionOf m urlFileMapping = ufm ∧ Distinct ufm
  errors : sectionOf m errorFileMapping = efm ∧ Distinct efm
  read : ufm ++ efm = files.map fun p => (p.1,.str p.2)
  sidecar : statusSidecarProblems host m = .ok []
  apart : ∀ url ∈ keys ufm, url ∉ keys efm
  total : names.length = ufm.length + efm.length
  present : ∀ p ∈ files, baseName p.2 ∈ names
  mapped : ∀ name ∈ names, ∃ p ∈ files, baseName p.2 = name
  recorded : ∀ p ∈ sectionOf m httpStatusMapping, pyEq p.2 (.int 0) = false → p.1 ∈ keys (ufm ++ efm)

theorem overlapNil {urls errors} (none : overlapProblems urls errors = []) :
    ∀ url ∈ urls, url ∉ errors := by
  have empty := problemNil none
  rw [Bool.not_eq_false',List.isEmpty_iff,List.filter_eq_nil_iff] at empty
  intro url mem shared
  exact empty url mem (List.contains_iff_mem.mpr shared)

theorem missingNil {names : List String}
    (none : missingProblems names files = []) : ∀ p ∈ files, baseName p.2 ∈ names := by
  intro p mem
  exact problemContains (List.flatMap_eq_nil_iff.mp none p mem)

theorem unmappedNil {listing : Listing}
    (none : unmappedProblems (resourceJsonPaths listing.names) files = []) :
    ∀ name ∈ resourceJsonPaths listing.names, ∃ p ∈ files, baseName p.2 = name := by
  intro name mem
  have own := List.flatMap_eq_nil_iff.mp none name mem
  obtain ⟨listed,resource⟩ := List.mem_filter.mp mem
  have other : ¬ (name = restApiMapNpy ∨ name = manifestName) := by
    rintro (rfl | rfl)
    · have json := listing.json _ listed
      revert json
      decide
    · revert resource
      decide
  rw [if_neg other] at own
  obtain ⟨p,found,same⟩ := List.mem_map.mp (problemContains own)
  exact ⟨p,found,same⟩

theorem statusNil {mapped : List String} {hsm} (none : statusProblems mapped hsm = []) :
    ∀ p ∈ hsm, pyEq p.2 (.int 0) = false → p.1 ∈ mapped := by
  intro p mem reached
  have own := List.flatMap_eq_nil_iff.mp none p mem
  rw [reached] at own
  exact problemContains own

theorem countNil {files urls errors methods} (none : countProblems files urls errors methods = []) :
    files = urls + errors := by
  have own := problemNil (List.append_eq_nil_iff.mp none).1
  simpa using own

theorem validated {host : HostDir} {m listing} (valid : validate host m listing = .ok []) :
    ∃ ufm efm files, Validated host m (resourceJsonPaths listing.names) ufm efm files := by
  obtain ⟨ufm,urls,valid⟩ := okOfBind valid
  obtain ⟨amm,-,valid⟩ := okOfBind valid
  obtain ⟨methods,-,valid⟩ := okOfBind valid
  obtain ⟨efm,errors,valid⟩ := okOfBind valid
  obtain ⟨hsm,statuses,valid⟩ := okOfBind valid
  obtain ⟨sidecar,checked,valid⟩ := okOfBind valid
  obtain ⟨files,read,valid⟩ := okOfBind valid
  obtain ⟨unlisted,-,valid⟩ := okOfBind valid
  have none := Except.ok.inj valid
  simp only [List.append_eq_nil_iff] at none
  obtain ⟨⟨⟨⟨⟨⟨⟨⟨rfl,-⟩,-⟩,overlap⟩,counts⟩,missing⟩,unmapped⟩,-⟩,recorded⟩ := none
  refine ⟨ufm,efm,files,requiredSectionOk urls,optionalSectionOk errors,fileNamesOk read,checked,
    overlapNil overlap,countNil counts,missingNil missing,unmappedNil unmapped,?_⟩
  rw [(optionalSectionOk statuses).1]
  intro p mem reached
  rw [keys,List.map_append]
  exact statusNil recorded p mem reached

section
variable {host : HostDir} {m : ApiMap} {listing : Listing} {names : List String} {ufm efm : Members}
  {files : List (String × String)}

theorem mappedDistinct (v : Validated host m names ufm efm files) : Distinct (ufm ++ efm) := by
  rw [Distinct,keys,List.map_append]
  refine List.nodup_append.mpr ⟨v.urls.2,v.errors.2,fun url mem other shared same => ?_⟩
  exact v.apart url mem (same ▸ shared)

theorem fileOfNamed (v : Validated host m names ufm efm files) {p} (mem : p ∈ files) :
    p.1 ∈ keys (ufm ++ efm) ∧ fileOf m p.1 = baseName p.2 := by
  have inside : (p.1,str p.2) ∈ ufm ++ efm := by
    rw [v.read]
    exact List.mem_map.mpr ⟨p,mem,rfl⟩
  have found : (mappedFiles m).lookup p.1 = some (.str p.2) := by
    rw [mappedFiles,v.urls.1,v.errors.1]
    exact lookupOfMem (mappedDistinct v) inside
  refine ⟨List.mem_map.mpr ⟨_,inside,rfl⟩,?_⟩
  rw [fileOf,found]

theorem namedOfKey (v : Validated host m names ufm efm files) {url} (mem : url ∈ keys (ufm ++ efm)) :
    ∃ p ∈ files, p.1 = url := by
  rw [v.read,keys,List.map_map] at mem
  obtain ⟨p,inside,same⟩ := List.mem_map.mp mem
  exact ⟨p,inside,same⟩

theorem filesBijective (v : Validated host m names ufm efm files) (distinct : names.Nodup) :
    Set.BijOn (fileOf m) {url | url ∈ keys (mappedFiles m)} {name | name ∈ names} := by
  have all : mappedFiles m = ufm ++ efm := by rw [mappedFiles,v.urls.1,v.errors.1]
  rw [all]
  have into : Set.MapsTo (fileOf m) {url | url ∈ keys (ufm ++ efm)} {name | name ∈ names} := by
    intro url mem
    obtain ⟨p,inside,rfl⟩ := namedOfKey v mem
    rw [(fileOfNamed v inside).2]
    exact v.present p inside
  have onto : Set.SurjOn (fileOf m) {url | url ∈ keys (ufm ++ efm)} {name | name ∈ names} := by
    intro name mem
    obtain ⟨p,inside,rfl⟩ := v.mapped name mem
    exact ⟨p.1,(fileOfNamed v inside).1,(fileOfNamed v inside).2⟩
  refine ⟨into,?_,onto⟩
  have urls : ((keys (ufm ++ efm)).toFinset : Set String) = {url | url ∈ keys (ufm ++ efm)} :=
    List.coe_toFinset _
  have captured : (names.toFinset : Set String) = {name | name ∈ names} := List.coe_toFinset _
  have size : (keys (ufm ++ efm)).toFinset.card = names.toFinset.card := by
    rw [List.toFinset_card_of_nodup (mappedDistinct v),List.toFinset_card_of_nodup distinct,v.total,
      keys,List.length_map,List.length_append]
  rw [← urls,← captured] at into onto
  rw [← urls]
  exact Finset.injOn_of_surjOn_of_card_le (fileOf m) into onto size.le
end

def InRange (status : Json) : Prop := ∃ n, int status = .ok n ∧ 100 ≤ n ∧ n ≤ 599

theorem statusLoads (path url : String) (status : Json) :
    (∃ n, validateStatus path url status = .ok n) ↔ InRange status := by
  unfold validateStatus InRange
  cases read : int status with
  | error e => cases e <;> simp
  | ok n =>
    by_cases outside : n < 100 ∨ 599 < n
    · simp only [if_pos outside]
      constructor
      · rintro ⟨k,done⟩
        cases done
      · rintro ⟨k,same,low,high⟩
        cases same
        omega
    · simp only [if_neg outside]
      exact ⟨fun _ => ⟨n,rfl,by omega,by omega⟩,fun _ => ⟨n,rfl⟩⟩

theorem statusesLoad (path : String) (statuses : Members) :
    (∃ l, validateStatuses path statuses = .ok l) ↔ ∀ p ∈ statuses, InRange p.2 := by
  induction statuses with
  | nil => simp [validateStatuses]
  | cons p rest ih =>
    obtain ⟨url,status⟩ := p
    rw [List.forall_mem_cons,← ih,← statusLoads path url]
    constructor
    · rintro ⟨l,done⟩
      obtain ⟨n,own,done⟩ := okOfBind done
      obtain ⟨others,later,-⟩ := okOfBind done
      exact ⟨⟨n,own⟩,others,later⟩
    · rintro ⟨⟨n,own⟩,others,later⟩
      exact ⟨(url,.int n)::others,by rw [validateStatuses,own,later]; rfl⟩

def SectionLike (v : Option Json) : Prop := ∀ j, v = some j → j = .null ∨ j.isObj = true

theorem sectionsLoad (path : String) (d : Members) (names : List String) :
    validateSections path d names = .ok () ↔ ∀ key ∈ names, SectionLike (d.lookup key) := by
  induction names with
  | nil => simp [validateSections]
  | cons key rest ih =>
    rw [List.forall_mem_cons,← ih,validateSections]
    cases found : d.lookup key with
    | none => simp [SectionLike]
    | some v => cases v <;> simp [SectionLike,Json.isObj]

theorem sidecarLoads (path : String) {d statuses files}
    (recorded : d.lookup httpStatusMapping = some (.obj statuses))
    (errors : d.lookup errorFileMapping = some (.obj files)) :
    (∃ l, loadRestApiMapJson path (.obj d) = .ok l) ↔
      SectionLike (d.lookup urlFileMapping) ∧ ∀ p ∈ statuses, InRange p.2 := by
  have present : required path d MockCorpus.replayKeys = .ok () := by
    have first : (d.lookup "http_status_mapping").isSome = true := by
      rw [show "http_status_mapping" = httpStatusMapping from rfl,recorded]
      rfl
    have second : (d.lookup "error_file_mapping").isSome = true := by
      rw [show "error_file_mapping" = errorFileMapping from rfl,errors]
      rfl
    simp [required,MockCorpus.replayKeys,first,second]
  have urls : validateSections path d MockCorpus.mappingKeys = .ok () ↔
      SectionLike (d.lookup urlFileMapping) := by
    have own : ∀ l, SectionLike (some (.obj l)) := by
      rintro l j same
      cases same
      exact .inr rfl
    rw [sectionsLoad]
    simp only [MockCorpus.mappingKeys,List.forall_mem_cons,List.not_mem_nil,false_implies,implies_true,
      and_true]
    rw [show "http_status_mapping" = httpStatusMapping from rfl,recorded,
      show "error_file_mapping" = errorFileMapping from rfl,errors]
    exact ⟨fun all => all.1,fun all => ⟨all,own _,own _⟩⟩
  rw [← urls,← statusesLoad path]
  constructor
  · rintro ⟨l,done⟩
    obtain ⟨-,-,done⟩ := okOfBind done
    obtain ⟨_,sections,done⟩ := okOfBind done
    rw [show "http_status_mapping" = httpStatusMapping from rfl,recorded] at done
    obtain ⟨kept,valid,-⟩ := okOfBind done
    exact ⟨sections,kept,valid⟩
  · rintro ⟨sections,kept,valid⟩
    refine ⟨AssocList.insert "http_status_mapping" (.obj kept) d,?_⟩
    have found : d.lookup "http_status_mapping" = some (.obj statuses) := recorded
    simp only [loadRestApiMapJson,MockCorpus.validateRestApiMap,present,sections,found,valid,bind,
      Except.bind]

theorem intStatusesOk {hsm out} (done : intStatuses hsm = .ok out) :
    List.Forall₂ (fun p q => p.1 = q.1 ∧ ∃ n, int p.2 = .ok n ∧ q.2 = .int n) hsm out := by
  induction hsm generalizing out with
  | nil =>
    cases done
    exact .nil
  | cons p rest ih =>
    obtain ⟨n,own,done⟩ := okOfBind done
    obtain ⟨others,later,same⟩ := okOfBind done
    cases same
    exact .cons ⟨rfl,n,own,rfl⟩ (ih later)

theorem truncateInt (n : ℤ) : truncate n = n := by
  unfold truncate
  split
  · rw [← Rat.intCast_neg,Rat.floor_intCast]
    omega
  · exact Rat.floor_intCast n

theorem intOfEqual {v n} (equal : pyEq v (.int n) = true) : int v = .ok n := by
  cases v with
  | bool b =>
    cases b <;> simp [pyEq,sameNumber,number] at equal <;> simp [int]
    · exact_mod_cast equal
    · exact_mod_cast equal
  | int k =>
    have same : k = n := by simpa [pyEq,sameNumber,number] using equal
    rw [same,int]
  | float x =>
    cases x with
    | finite x =>
      have same : x.value = n := by simpa [pyEq,sameNumber,number] using equal
      rw [int,same,truncateInt]
    | infinity s => simp [pyEq,sameNumber,number] at equal
    | nan => simp [pyEq,sameNumber,number] at equal
  | _ => simp [pyEq] at equal

structure Replayable (host : HostDir) (m : ApiMap) : Prop where
  statuses : ∀ p ∈ sectionOf m httpStatusMapping, ∀ n, int p.2 = .ok n → 100 ≤ n ∧ n ≤ 599
  urls : ∀ d, host.files.lookup restApiStatusMapJson = some (.ok (.obj d)) →
    SectionLike (d.lookup urlFileMapping)

section
variable {host : HostDir} {m : ApiMap} {payload : Payload}

theorem payloadStatuses (made : statusSidecarPayload m = .ok payload) :
    List.Forall₂ (fun p q => p.1 = q.1 ∧ ∃ n, int p.2 = .ok n ∧ q.2 = .int n)
      (sectionOf m httpStatusMapping) payload.statuses ∧ Distinct (sectionOf m httpStatusMapping) := by
  obtain ⟨hsm,read,made⟩ := okOfBind made
  obtain ⟨statuses,ints,made⟩ := okOfBind made
  obtain ⟨efm,-,made⟩ := okOfBind made
  cases made
  obtain ⟨same,distinct⟩ := optionalSectionOk read
  rw [same]
  exact ⟨intStatusesOk ints,distinct⟩

variable {out : Members}

theorem payloadInRange {hsm : Members}
    (each : List.Forall₂ (fun p q => p.1 = q.1 ∧ ∃ n, int p.2 = .ok n ∧ q.2 = .int n) hsm out) :
    (∀ q ∈ out, InRange q.2) ↔ ∀ p ∈ hsm, ∀ n, int p.2 = .ok n → 100 ≤ n ∧ n ≤ 599 := by
  induction each with
  | nil => simp
  | @cons p q hsm out pair later ih =>
    obtain ⟨-,n,read,written⟩ := pair
    rw [List.forall_mem_cons,List.forall_mem_cons,ih,written,InRange,read]
    simp [int]

theorem keysOfPayload {hsm}
    (each : List.Forall₂ (fun p q => p.1 = q.1 ∧ ∃ n, int p.2 = .ok n ∧ q.2 = .int n) hsm out) :
    keys out = keys hsm ∧ ∀ q ∈ out, ∃ n, q.2 = .int n := by
  induction each with
  | nil => exact ⟨rfl,by simp⟩
  | @cons p q hsm out pair later ih =>
    obtain ⟨same,n,-,written⟩ := pair
    refine ⟨?_,List.forall_mem_cons.mpr ⟨⟨n,written⟩,ih.2⟩⟩
    rw [keys,List.map_cons,← same]
    exact congrArg (p.1 :: ·) ih.1

theorem pyEqMembersOk {x y} (equal : Json.pyEqMembers x y = true) :
    ∀ p ∈ x, ∃ v, y.lookup p.1 = some v ∧ pyEq p.2 v = true := by
  induction x with
  | nil => simp
  | cons p rest ih =>
    obtain ⟨key,j⟩ := p
    rw [Json.pyEqMembers,Bool.and_eq_true] at equal
    refine List.forall_mem_cons.mpr ⟨?_,ih equal.2⟩
    have own := equal.1
    cases found : y.lookup key with
    | none => simp [found] at own
    | some v => exact ⟨v,rfl,by simpa [found] using own⟩

theorem equalInRange {x} (distinct : Distinct x) (unique : Distinct out)
    (ints : ∀ q ∈ out, ∃ n, q.2 = .int n) (equal : pyEq (.obj x) (.obj out) = true) :
    (∀ p ∈ x, InRange p.2) ↔ ∀ q ∈ out, InRange q.2 := by
  rw [pyEq,Bool.and_eq_true,decide_eq_true_eq] at equal
  obtain ⟨long,members⟩ := equal
  have pair : ∀ p ∈ x, ∃ q ∈ out, q.1 = p.1 ∧ (InRange p.2 ↔ InRange q.2) := by
    intro p mem
    obtain ⟨v,found,same⟩ := pyEqMembersOk members p mem
    have inside := lookupMem found
    obtain ⟨n,rfl⟩ := ints _ inside
    refine ⟨_,inside,rfl,?_⟩
    rw [InRange,InRange,intOfEqual same,int]
  constructor
  · intro all q mem
    have within : keys x ⊆ keys out := by
      intro key listed
      obtain ⟨p,inside,rfl⟩ := List.mem_map.mp listed
      obtain ⟨q,found,same,-⟩ := pair p inside
      exact List.mem_map.mpr ⟨q,found,same⟩
    have back : q.1 ∈ keys x := by
      have perm := (List.subperm_of_subset distinct within).perm_of_length_le
        (by rw [keys,keys,List.length_map,List.length_map,long])
      exact perm.mem_iff.mpr (List.mem_map.mpr ⟨q,mem,rfl⟩)
    obtain ⟨p,inside,same⟩ := List.mem_map.mp back
    obtain ⟨r,found,key,both⟩ := pair p inside
    have one : r = q := by
      have first := lookupOfMem unique (show (q.1,r.2) ∈ out by rw [← same,← key]; exact found)
      have second := lookupOfMem unique (show (q.1,q.2) ∈ out from mem)
      rw [first] at second
      exact Prod.ext (key.trans same) (Option.some.inj second)
    rw [← one]
    exact both.mp (all p inside)
  · intro all p mem
    obtain ⟨q,found,-,both⟩ := pair p mem
    exact both.mpr (all q found)

theorem sidecarKeyOk {sidecar key} (none : sidecarKeyProblems sidecar payload key = .ok []) :
    ∃ d x, sidecar = .obj d ∧ d.lookup key = some (.obj x) ∧
      pyEq (.obj x) (payload.get key) = true := by
  unfold sidecarKeyProblems at none
  split at none
  · rename_i d
    have empty := Except.ok.inj none
    split at empty
    · cases empty
    · rename_i x found
      split at empty
      · rename_i equal
        exact ⟨d,x,rfl,found,equal⟩
      · cases empty
    · cases empty
  · split at none <;> cases none
  · split at none <;> cases none
  · cases none

theorem checkedSidecarLoads (path : String) {content : Except String Json}
    (checked : statusSidecarProblems host m = .ok [])
    (found : host.files.lookup restApiStatusMapJson = some content) :
    (∃ j, content = .ok j ∧ ∃ l, loadRestApiMapJson path j = .ok l) ↔ Replayable host m := by
  unfold statusSidecarProblems at checked
  rw [found] at checked
  cases content with
  | error text => cases checked
  | ok sidecar =>
    obtain ⟨payload,made,checked⟩ := okOfBind checked
    obtain ⟨first,statuses,checked⟩ := okOfBind checked
    obtain ⟨second,files,checked⟩ := okOfBind checked
    obtain ⟨rfl,rfl⟩ := List.append_eq_nil_iff.mp (Except.ok.inj checked)
    obtain ⟨d,x,rfl,recorded,equal⟩ := sidecarKeyOk statuses
    obtain ⟨d',y,same,errors,-⟩ := sidecarKeyOk files
    cases same
    obtain ⟨each,distinct⟩ := payloadStatuses made
    obtain ⟨names,ints⟩ := keysOfPayload each
    have unique : Distinct payload.statuses := by rw [Distinct,names]; exact distinct
    have range := equalInRange (host.sidecar d found _ x recorded) unique ints equal
    have loads := sidecarLoads path recorded errors
    rw [range,payloadInRange each] at loads
    constructor
    · rintro ⟨j,same,loaded⟩
      cases same
      obtain ⟨urls,statuses⟩ := loads.mp loaded
      refine ⟨statuses,fun own stored => ?_⟩
      rw [found] at stored
      cases stored
      exact urls
    · intro replayable
      exact ⟨_,rfl,loads.mpr ⟨replayable.urls d found,replayable.statuses⟩⟩

theorem madeSidecarLoads (path : String) (absent : host.files.lookup restApiStatusMapJson = none)
    (made : statusSidecarPayload m = .ok payload) :
    (∃ l, loadRestApiMapJson path payload.document = .ok l) ↔ Replayable host m := by
  have recorded : [(httpStatusMapping,obj payload.statuses),
      (errorFileMapping,.obj payload.files)].lookup httpStatusMapping = some (.obj payload.statuses) := rfl
  have errors : [(httpStatusMapping,obj payload.statuses),
      (errorFileMapping,.obj payload.files)].lookup errorFileMapping = some (.obj payload.files) := rfl
  rw [Payload.document,sidecarLoads path recorded errors,payloadInRange (payloadStatuses made).1]
  constructor
  · rintro ⟨-,statuses⟩
    refine ⟨statuses,fun d stored => ?_⟩
    rw [absent] at stored
    cases stored
  · intro replayable
    refine ⟨fun j none => ?_,replayable.statuses⟩
    cases none

variable {tools : Tools}

theorem stageDocumentsNames {o names staged} (done : stageDocuments tools host o names = .ok staged) :
    keys staged = names := by
  induction names generalizing staged with
  | nil =>
    cases done
    rfl
  | cons name rest ih =>
    unfold stageDocuments at done
    split at done
    · obtain ⟨others,later,same⟩ := okOfBind done
      cases same
      exact congrArg (name :: ·) (ih later)
    · cases done
    · cases done

theorem archiveSidecar {o manifest archive}
    (done : writeArchive tools host m o (resourceNames host) manifest = .ok archive) :
    ∃ side, stageSidecar host m = .ok side ∧
      archive.files.lookup restApiStatusMapJson = side.lookup restApiStatusMapJson := by
  obtain ⟨documents,staged,done⟩ := okOfBind done
  obtain ⟨side,written,done⟩ := okOfBind done
  cases done
  refine ⟨side,written,?_⟩
  have plain : documents.lookup restApiStatusMapJson = none := by
    rw [lookupNone,stageDocumentsNames staged]
    intro mem
    have listed := (List.mem_insertionSort (· ≤ ·)).mp mem
    have resource := (List.mem_filter.mp listed).2
    revert resource
    decide
  have manifestOther : restApiStatusMapJson ≠ manifestName := by decide
  rw [List.lookup_append,List.lookup_append,plain,lookupCons,if_neg manifestOther]
  simp

theorem packedFrom {o archive} (map : host.npy = some m)
    (packed : pack tools host o = .ok (0,some archive)) :
    statusSidecarProblems host m = .ok [] ∧
    ∃ manifest, writeArchive tools host m o (resourceNames host) manifest = .ok archive := by
  unfold pack at packed
  dsimp only at packed
  split at packed
  · cases packed
  obtain ⟨loaded,read,packed⟩ := okOfBind packed
  have own : loaded = m := by
    unfold loadApiMap at read
    rw [map] at read
    dsimp only at read
    split at read
    · cases read
    · cases read
      rfl
  subst own
  obtain ⟨problems,checked,packed⟩ := okOfBind packed
  split at packed
  · cases packed
  rename_i clean
  have none : problems = [] := by simpa using clean
  subst none
  obtain ⟨manifest,-,packed⟩ := okOfBind packed
  split at packed
  · cases packed
  obtain ⟨written,done,packed⟩ := okOfBind packed
  cases packed
  obtain ⟨ufm,efm,files,v⟩ := validated checked
  exact ⟨v.sidecar,manifest,done⟩
end

/- URLs and captured files correspond one to one without problems, every URL that was reached is
mapped, and the server loads the sidecar of an archive just when the statuses of the map are those
of HTTP responses and an existing sidecar has no other value for its URLs. -/
theorem validatedCorpus (host : HostDir) (m : ApiMap) (listing : Listing)
    (valid : validate host m listing = .ok []) :
    Set.BijOn (fileOf m) {url | url ∈ keys (mappedFiles m)}
      {name | name ∈ resourceJsonPaths listing.names} ∧
    (∀ url status, (url,status) ∈ sectionOf m httpStatusMapping →
      pyEq status (.int 0) = false → url ∈ keys (mappedFiles m)) ∧
    ∀ (tools : Tools) (o : Options) (archive : Archive), host.npy = some m →
      pack tools host o = .ok (0,some archive) →
      ∀ content, archive.files.lookup restApiStatusMapJson = some content → ∀ path,
        ((∃ j, content = .ok j ∧ ∃ l, loadRestApiMapJson path j = .ok l) ↔ Replayable host m) := by
  obtain ⟨ufm,efm,files,v⟩ := validated valid
  refine ⟨filesBijective v (listing.distinct.filter _),fun url status mem reached => ?_,?_⟩
  · rw [mappedFiles,v.urls.1,v.errors.1]
    exact v.recorded _ mem reached
  intro tools o archive map packed content stored path
  obtain ⟨checked,manifest,done⟩ := packedFrom map packed
  obtain ⟨side,staged,same⟩ := archiveSidecar done
  rw [same] at stored
  unfold stageSidecar at staged
  cases found : host.files.lookup restApiStatusMapJson with
  | some own =>
    rw [found] at staged
    cases staged
    cases stored
    exact checkedSidecarLoads path checked found
  | none =>
    rw [found] at staged
    dsimp only at staged
    split at staged
    · obtain ⟨payload,made,staged⟩ := okOfBind staged
      cases staged
      cases stored
      rw [← madeSidecarLoads path found made]
      constructor
      · rintro ⟨j,own,loaded⟩
        cases own
        exact loaded
      · intro loaded
        exact ⟨_,rfl,loaded⟩
    · cases staged
      cases stored

namespace Sample
open Redaction.Sample (ascii)

def tools : Tools := ⟨ascii,"",fun _ => "",fun _ _ => "sha256:"⟩

def options : Options := ⟨"acme","x",true,false⟩

def entries (statuses : Members) : Members :=
  [(urlFileMapping,.obj [("/redfish/v1/",.str "_redfish_v1.json")]),
   (allowedMethodsMapping,.obj [("/redfish/v1/",.arr [.str "GET"])]),
   (httpStatusMapping,.obj statuses)]

def map (statuses : Members) (distinct : Distinct statuses) : ApiMap where
  entries := entries statuses
  sections key d found := by
    have mem := lookupMem found
    simp only [entries,List.mem_cons,Prod.mk.injEq,Json.obj.injEq,List.not_mem_nil,or_false] at mem
    rcases mem with ⟨-,rfl⟩ | ⟨-,rfl⟩ | ⟨-,rfl⟩
    · exact List.nodup_singleton _
    · exact List.nodup_singleton _
    · exact distinct

def host (m : ApiMap) : HostDir where
  path := "/captures/10.0.0.9"
  files := [("_redfish_v1.json",.ok (.obj [("RedfishVersion",.str "1.17.0")]))]
  npy := some m
  distinct := List.nodup_singleton _
  sidecar m found := by cases found

def reached : ApiMap := map [("/redfish/v1/",.int 200)] (List.nodup_singleton _)

def unreached : ApiMap := map [("/redfish/v1/",.int 200),("/redfish/v1/Chassis",.int 0)] (by decide)

def packed (m : ApiMap) : Except PyError (ℕ × Option (Except String Json)) :=
  (pack tools (host m) options).map fun r => (r.1,r.2.bind fun a => a.files.lookup restApiStatusMapJson)

def written (statuses : Members) : Json :=
  .obj [(httpStatusMapping,.obj statuses),(errorFileMapping,.obj [])]

end Sample

open Sample

theorem rootCorpusValidated :
    validate (host reached) reached (resourceJsonFiles (host reached)) = .ok [] ∧
    Set.BijOn (fileOf reached) {url | url ∈ keys (mappedFiles reached)}
      {name | name ∈ resourceJsonPaths (resourceJsonFiles (host reached)).names} ∧
    ∃ archive content, pack tools (host reached) options = .ok (0,some archive) ∧
      archive.files.lookup restApiStatusMapJson = some content ∧
      ((∃ j, content = .ok j ∧ ∃ l, loadRestApiMapJson "" j = .ok l) ↔ Replayable (host reached) reached) := by
  have valid : validate (host reached) reached (resourceJsonFiles (host reached)) = .ok [] := by
    decide +kernel
  have run : packed reached = .ok (0,some (.ok (written [("/redfish/v1/",.int 200)]))) := by
    decide +kernel
  obtain ⟨files,-,loads⟩ := validatedCorpus (host reached) reached _ valid
  rw [packed] at run
  cases result : pack tools (host reached) options with
  | error e =>
    rw [result] at run
    cases run
  | ok r =>
    obtain ⟨code,archive⟩ := r
    rw [result] at run
    obtain ⟨rfl,stored⟩ := Prod.mk.inj (Except.ok.inj run)
    obtain ⟨own,rfl,found⟩ := Option.bind_eq_some_iff.mp stored
    exact ⟨valid,files,own,_,rfl,found,loads tools options own rfl result _ found ""⟩

theorem unreachedSidecarRefused :
    validate (host unreached) unreached (resourceJsonFiles (host unreached)) = .ok [] ∧
    packed unreached =
      .ok (0,some (.ok (written [("/redfish/v1/",.int 200),("/redfish/v1/Chassis",.int 0)]))) ∧
    loadRestApiMapJson "rest_api_map.status.json"
        (written [("/redfish/v1/",.int 200),("/redfish/v1/Chassis",.int 0)]) =
      .error (MockCorpus.statusError "valid HTTP statuses" "rest_api_map.status.json"
        "/redfish/v1/Chassis") := by
  decide +kernel

end RedfishCtl.PackCorpus
