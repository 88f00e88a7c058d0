import RedfishCtl.CorpusTreeAccount

/-! The places of an emitted tree on a file system that does not tell upper from lower case. The
collision check folds whole places, but not the segments on the way to them. -/
namespace RedfishCtl.CorpusTree
open AssocList Buckets Stateful
open PosixPath (parts)

section
variable (rt : Runtime)

def foldedParts (place : String) : List String :=
  (parts place.toList).map fun segment => rt.casefold (String.ofList segment)

def Shadows (place other : String) : Prop :=
  foldedParts rt place <+: foldedParts rt other ∧ foldedParts rt place ≠ foldedParts rt other

instance (place other : String) : Decidable (Shadows rt place other) := inferInstanceAs (Decidable (_ ∧ _))

def Portable (places : List String) : Prop :=
  ∀ place ∈ places, ∀ other ∈ places, ¬ Shadows rt place other

/- The fixtures that the collision check finds: of the same route, of the same place up to case, or
with a file on the path to the other as it is spelled. -/
def Collides (routes : List (String × String)) (p : String × String) : Prop :=
  ∃ q ∈ routes, q.1 ≠ p.1 ∧ (p.2 = q.2 ∨ rt.casefold (destinationOf p) = rt.casefold (destinationOf q) ∨
    onPath p q = true ∨ onPath q p = true)

instance (routes : List (String × String)) (p : String × String) : Decidable (Collides rt routes p) :=
  inferInstanceAs (Decidable (∃ q ∈ routes, _))

def RespelledCollide (routes : List (String × String)) : Prop :=
  ∀ p ∈ routes, ∀ q ∈ routes, Shadows rt (destinationOf p) (destinationOf q) →
    ¬ partsOf p <+: partsOf q → Collides rt routes p ∨ Collides rt routes q

instance (routes : List (String × String)) : Decidable (RespelledCollide rt routes) :=
  inferInstanceAs (Decidable (∀ p ∈ routes, ∀ q ∈ routes, _ → _ → _))

end

section
variable {rt : Runtime} {files : List (String × Bytes)} {w : Work} {routes : List (String × String)}

variable {row : List (String × String)}

theorem rowOther (nodup : row.Nodup) (many : 1 < row.length)
    (p : String × String) : ∃ q ∈ row, q ≠ p := by
  by_contra alone
  push Not at alone
  have same := List.eq_replicate_of_mem alone
  rw [same,List.nodup_replicate] at nodup
  omega

variable {p : String × String}

theorem rowCollides {κ} [DecidableEq κ] {key} {k : κ} (distinct : Distinct routes)
    (mem : p ∈ routes) (inside : (k,row) ∈ group key routes) (many : 1 < row.length)
    (listed : p.1 ∈ row.map Prod.fst) : ∃ q ∈ routes, q.1 ≠ p.1 ∧ key p = key q := by
  have filtered := groupRowEq inside
  have sub : ∀ q ∈ row, q ∈ routes ∧ key q = k := by
    intro q within
    rw [filtered] at within
    have kept := List.mem_filter.mp within
    exact ⟨kept.1,by simpa using kept.2⟩
  obtain ⟨p',within,same⟩ := List.mem_map.mp listed
  have equal : p' = p := distinctFixtures distinct (sub p' within).1 mem same
  have nodup : row.Nodup := by
    rw [filtered]
    exact (List.Nodup.of_map _ distinct).filter _
  obtain ⟨q,beside,different⟩ := rowOther nodup many p
  refine ⟨q,(sub q beside).1,fun fixture => ?_,?_⟩
  · exact different (distinctFixtures distinct (sub q beside).1 mem fixture)
  · rw [← equal,(sub p' within).2,(sub q beside).2]

theorem listedIff (distinct : Distinct routes) (mem : p ∈ routes) :
    p.1 ∈ (collisionSets rt routes).flatMap Conflict.listed ↔ Collides rt routes p := by
  constructor
  · intro named
    obtain ⟨conflict,inside,listed⟩ := List.mem_flatMap.mp named
    rw [collisionSets] at inside
    simp only [List.mem_dedup,List.mem_append] at inside
    rcases inside with (shared | folded) | nested
    · obtain ⟨row,kept,rfl⟩ := List.mem_map.mp shared
      have within := List.mem_filter.mp kept
      obtain ⟨q,other,different,same⟩ := rowCollides distinct mem (memSortedItems.mp within.1)
        (by simpa using within.2) (memSortedNames.mp listed)
      exact ⟨q,other,different,.inl same⟩
    · obtain ⟨row,kept,rfl⟩ := List.mem_map.mp folded
      have within := List.mem_filter.mp kept
      obtain ⟨q,other,different,same⟩ := rowCollides distinct mem (memSortedItems.mp within.1)
        (by simpa using within.2) (memSortedNames.mp listed)
      exact ⟨q,other,different,.inr (.inl same)⟩
    · obtain ⟨a,first,rest⟩ := List.mem_flatMap.mp nested
      obtain ⟨b,second,rfl⟩ := List.mem_map.mp rest
      obtain ⟨inner,crossed⟩ := List.mem_filter.mp second
      have left : a ∈ routes := memSortedItems.mp first
      have right : b ∈ routes := memSortedItems.mp inner
      have apart : a.1 ≠ b.1 := by
        simp only [onPath,Bool.and_eq_true,decide_eq_true_eq] at crossed
        exact crossed.1.1
      have either : p.1 = a.1 ∨ p.1 = b.1 := by simpa [Conflict.listed] using listed
      rcases either with same | same
      · cases distinctFixtures distinct mem left same
        exact ⟨b,right,apart.symm,.inr (.inr (.inl crossed))⟩
      · cases distinctFixtures distinct mem right same
        exact ⟨a,left,apart,.inr (.inr (.inr crossed))⟩
  · rintro ⟨q,other,different,route | place | before | behind⟩
    · exact collisionListed mem other different.symm (.inl route)
    · exact collisionListed mem other different.symm (.inr (.inl place))
    · exact collisionListed mem other different.symm (.inr (.inr before))
    refine List.mem_flatMap.mpr ⟨.fileDirectoryCollision (destinationOf q) (sortedNames [q.1,p.1]),?_,?_⟩
    · rw [collisionSets]
      simp only [List.mem_dedup,List.mem_append]
      exact .inr (List.mem_flatMap.mpr ⟨q,by simp [other],
        List.mem_map.mpr ⟨p,by simp [mem,behind],rfl⟩⟩)
    · simp [Conflict.listed]

theorem droppedKept {r} {fixtures : List String} (mem : p ∈ r.routes) (outside : p.1 ∉ fixtures) :
    p ∈ (fixtures.foldl dropCollision r).routes := by
  induction fixtures generalizing r with
  | nil => exact mem
  | cons fixture rest ih =>
    rw [List.mem_cons,not_or] at outside
    refine ih (List.mem_filter.mpr ⟨mem,?_⟩) outside.2
    simpa using outside.1

theorem memClassified (sound : Sound rt files w) :
    p ∈ (classify rt files w).routes ↔
      p ∈ (routed rt files w).routes ∧ ¬ Collides rt (routed rt files w).routes p := by
  have distinct := (routedRouted sound).distinct
  constructor
  · intro mem
    obtain ⟨kept,outside⟩ := droppedRoutes mem
    exact ⟨kept,fun collides => outside (memSortedSet.mpr ((listedIff distinct kept).mpr collides))⟩
  · rintro ⟨mem,free⟩
    refine droppedKept mem fun inside => free ?_
    exact (listedIff distinct mem).mp (memSortedSet.mp inside)

theorem spelledCollides {p q} (distinct : Distinct routes) (first : p ∈ routes)
    (second : q ∈ routes) (shadows : Shadows rt (destinationOf p) (destinationOf q))
    (spelled : partsOf p <+: partsOf q) : Collides rt routes p := by
  have fixtures : p.1 ≠ q.1 := by
    intro same
    refine shadows.2 ?_
    rw [distinctFixtures distinct first second same]
  have shorter : (partsOf p).length < (partsOf q).length := by
    refine lt_of_le_of_ne spelled.length_le fun same => shadows.2 ?_
    have parts : partsOf p = partsOf q := spelled.eq_of_length same
    rw [partsOf,partsOf] at parts
    rw [foldedParts,foldedParts,parts]
  refine ⟨q,second,fixtures.symm,.inr (.inr (.inl ?_))⟩
  simp only [onPath,Bool.and_eq_true,decide_eq_true_eq,List.isPrefixOf_iff_prefix]
  exact ⟨⟨fixtures,shorter⟩,spelled⟩

theorem planPortable {c} (sound : Sound rt files w) (plan : Concluded rt files w c) :
    Portable rt (keys c.payloads) ↔ RespelledCollide rt (routed rt files w).routes := by
  have distinct := (routedRouted sound).distinct
  rw [plan.payloads]
  constructor
  · intro portable p first q second shadows _
    by_contra free
    rw [not_or] at free
    exact portable _ (memPayloads.mpr ⟨p,(memClassified sound).mpr ⟨first,free.1⟩,rfl⟩)
      _ (memPayloads.mpr ⟨q,(memClassified sound).mpr ⟨second,free.2⟩,rfl⟩) shadows
  · intro collide place left other right shadows
    obtain ⟨p,emitted,rfl⟩ := memPayloads.mp left
    obtain ⟨q,beside,rfl⟩ := memPayloads.mp right
    obtain ⟨first,free⟩ := (memClassified sound).mp emitted
    obtain ⟨second,clear⟩ := (memClassified sound).mp beside
    by_cases spelled : partsOf p <+: partsOf q
    · exact free (spelledCollides distinct first second shadows spelled)
    · exact (collide p first q second shadows spelled).elim free clear

theorem treesPortable (rt : Runtime) {row : Row} {archive : Archive} {c : Conversion}
    (done : buildConversion rt row archive = .ok c) :
    ∃ files routeMap w, readArchive archive row.arcname = .ok files ∧
      loadRouteMap rt files = .ok routeMap ∧ gather rt files routeMap = .ok w ∧
      (Portable rt (keys c.payloads) ↔ RespelledCollide rt (routed rt files w).routes) := by
  unfold buildConversion at done
  split at done
  · cases done
  obtain ⟨files,read,rest⟩ := okOfBind done
  obtain ⟨routeMap,loaded,rest⟩ := okOfBind rest
  obtain ⟨w,gathering,finished⟩ := okOfBind rest
  exact ⟨files,routeMap,w,read,loaded,gathering,
    planPortable (gathered gathering).sound (concluded finished)⟩

end

namespace Sample

def lowered (text : String) : String := String.ofList (text.toList.map Char.toLower)

def folding (documents : List Json) : Runtime := { runtime documents with casefold := lowered }

def respelled : List Json :=
  [document "/redfish/v1" [("Index",document "/redfish/v1/INDEX.JSON" [])],
    document "/redfish/v1/INDEX.JSON" []]

def respelledArchive : Archive :=
  archive [member "_redfish_v1.json" [0],member "_redfish_v1_INDEX.JSON.json" [1]]

def respellingsCollide (documents : List Json) (source : Archive) : Option Bool := do
  let files ← (readArchive source row.arcname).toOption
  let routeMap ← (loadRouteMap (folding documents) files).toOption
  let w ← (gather (folding documents) files routeMap).toOption
  some (decide (RespelledCollide (folding documents) (routed (folding documents) files w).routes))

end Sample

open Sample in
theorem smallTreePortable : ∃ c, buildConversion (folding small) row smallArchive = .ok c ∧
    c.report.passed = true ∧ Portable (folding small) (keys c.payloads) := by
  have passed : (buildConversion (folding small) row smallArchive).toOption.map
      (fun c => c.report.passed) = some true := by
    decide +kernel
  have spelled : respellingsCollide small smallArchive = some true := by decide +kernel
  cases built : buildConversion (folding small) row smallArchive with
  | error e =>
    rw [built] at passed
    cases passed
  | ok c =>
    rw [built] at passed
    obtain ⟨files,routeMap,w,read,loaded,gathering,portable⟩ := treesPortable (folding small) built
    rw [respellingsCollide,read] at spelled
    simp only [Except.toOption,bind,Option.bind,loaded,gathering] at spelled
    exact ⟨c,rfl,Option.some.inj passed,portable.mpr (of_decide_eq_true (Option.some.inj spelled))⟩

open Sample in
theorem respelledIndexEmitted : ∃ c,
    buildConversion (folding respelled) row respelledArchive = .ok c ∧ c.report.passed = true ∧
    keys c.payloads = ["index.json","INDEX.JSON/index.json"] ∧
    ¬ Portable (folding respelled) (keys c.payloads) := by
  have emitted : (buildConversion (folding respelled) row respelledArchive).toOption.map
      (fun c => (c.report.passed,keys c.payloads)) = some (true,["index.json","INDEX.JSON/index.json"]) := by
    decide +kernel
  cases built : buildConversion (folding respelled) row respelledArchive with
  | error e =>
    rw [built] at emitted
    cases emitted
  | ok c =>
    rw [built] at emitted
    obtain ⟨passed,written⟩ := Prod.mk.inj (Option.some.inj emitted)
    refine ⟨c,rfl,passed,written,fun portable => ?_⟩
    rw [written] at portable
    refine portable "index.json" ?_ "INDEX.JSON/index.json" ?_ ?_
    · exact List.mem_cons_self
    · exact List.mem_cons_of_mem _ List.mem_cons_self
    · decide +kernel

end RedfishCtl.CorpusTree
