import RedfishCtl.CorpusTreeClaims

/-! What a conversion does with the files of an archive. What is left with a route after the passes
is undisputed, and no two such routes share a place in the tree. -/
namespace RedfishCtl.CorpusTree
open AssocList Buckets
open PosixPath (parts)
open Stateful (okOfBind foldlMKeeps foldlMEach)

@[simp] theorem memSortedNames {names name} : name ∈ sortedNames names ↔ name ∈ names := List.mem_insertionSort _

@[simp] theorem memSortedSet {names name} : name ∈ sortedSet names ↔ name ∈ names := by
  simp [sortedSet]

theorem lookupInserted {β α} (key : β → String) (value : β → α) {items : List β} {x}
    (mem : x ∈ items) (apart : ∀ y ∈ items, key y = key x → value y = value x)
    (d : List (String × α)) :
    (items.foldl (fun d y => insert (key y) (value y) d) d).lookup (key x) = some (value x) := by
  induction items using List.reverseRecOn with
  | nil => cases mem
  | append_singleton rest y ih =>
    rw [List.foldl_append,List.foldl_cons,List.foldl_nil,lookupInsert]
    split
    · rename_i same
      rw [apart y (by simp) same.symm]
    · rename_i other
      rcases List.mem_append.mp mem with inside | last
      · exact ih inside fun z within => apart z (List.mem_append_left _ within)
      · exact absurd (List.mem_singleton.mp last ▸ rfl) other

theorem lookupOutside {β α} {key : β → String} {value : β → α} {items : List β} {k}
    (outside : ∀ y ∈ items, key y ≠ k) (d : List (String × α)) :
    (items.foldl (fun d y => insert (key y) (value y) d) d).lookup k = d.lookup k := by
  induction items generalizing d with
  | nil => rfl
  | cons y rest ih =>
    rw [List.foldl_cons,ih fun z mem => outside z (List.mem_cons_of_mem y mem),lookupInsert,
      if_neg (outside y List.mem_cons_self).symm]

section
variable (rt : Runtime) (files : List (String × Bytes)) (e : Evidence)

abbrev aliasOf (fixture : String) : Option Alias :=
  canonicalAliasExclusion rt files (fixtureLookup rt (fixtureNames files)) e fixture

def Excludable (fixture : String) : Prop :=
  unread fixture = true ∨ (aliasOf rt files e fixture).isSome = true ∨
    routesOf (bucket e.candidates fixture) = []

end

section
variable (rt : Runtime) (files : List (String × Bytes)) (w : Work)

abbrev Decided (v : Verdicts) : Prop :=
  Kept (fixtureNames files) w.verdicts (Excludable rt files w.evidence)
    (fun f found => aliasOf rt files w.evidence f = some found) v

structure Undisputed (p : String × String) : Prop where
  named : p.1 ∈ fixtureNames files
  undecided : settled w.verdicts p.1 = false
  clean : bucket w.evidence.issues p.1 = []
  agreed : routesOf (bucket w.evidence.candidates p.1) = [p.2]
  flattened : rt.casefold (expectedName p.1 p.2) = rt.casefold p.1

structure Routed (r : Routing) : Prop where
  decided : Decided rt files w r.verdicts
  distinct : Distinct r.routes
  routed : ∀ p ∈ r.routes, Undisputed rt files w p

end

section
variable {rt : Runtime} {files : List (String × Bytes)} {w : Work}

variable {v : Verdicts} {fixture : String}

theorem excludeAliasDecided (named : fixture ∈ fixtureNames files)
    (decided : Decided rt files w v) :
    Decided rt files w
      (excludeAlias rt files (fixtureLookup rt (fixtureNames files)) w.evidence v fixture) := by
  unfold excludeAlias
  split
  · exact decided
  split
  · rename_i found known
    refine decided.settle named (by decide) (by simp) (fun _ => .inr (.inl ?_)) fun other mem => ?_
    · exact Option.isSome_of_mem known
    · cases List.mem_singleton.mp mem
      exact known
  · exact decided

variable {row : String × List (String × String)}

theorem blockClaimDecided
    (named : ∀ p ∈ row.2, p.2 ∈ fixtureNames files) (decided : Decided rt files w v) :
    Decided rt files w (blockClaim v row) := by
  unfold blockClaim
  split
  · exact decided
  · refine List.foldlRecOn _ _ (decided.report _) fun v kept fixture mem => ?_
    rw [memSortedNames] at mem
    obtain ⟨p,inside,rfl⟩ := List.mem_map.mp mem
    exact kept.block (named p inside) (by simp) (by simp)

variable {names : List String}

theorem claimsNamed (mem : row ∈ claims w.evidence v names) : ∀ p ∈ row.2, p.2 ∈ names := by
  intro p inside
  rw [groupRowEq mem] at inside
  obtain ⟨f,within,claimed⟩ := List.mem_filterMap.mp (List.mem_filter.mp inside).1
  obtain ⟨route,-,rfl⟩ := Option.map_eq_some_iff.mp claimed
  exact within

variable {r : Routing}

theorem blockRouted {reasons conflict} (routed : Routed rt files w r)
    (named : fixture ∈ fixtureNames files) (given : reasons ≠ [])
    (plain : ∀ found, Reason.canonicalAliasSubset found ∉ reasons) :
    Routed rt files w (block fixture reasons conflict r) :=
  ⟨(routed.decided.block named given plain).report conflict,routed.distinct,routed.routed⟩

theorem routeFixtureRouted (named : fixture ∈ fixtureNames files)
    (routed : Routed rt files w r) : Routed rt files w (routeFixture rt w.evidence r fixture) := by
  have issuesGiven : ∀ {issues : List Issue}, ¬ issues.isEmpty = true → issues.map Reason.routeIssue ≠ [] := by
    intro issues given none
    simp [List.map_eq_nil_iff.mp none] at given
  unfold routeFixture
  dsimp only
  split
  · exact routed
  rename_i unsettled
  split
  · rename_i given
    have given := issuesGiven (by simpa using given)
    split
    · rename_i only
      simp only [Bool.and_eq_true,List.isEmpty_iff] at only
      exact ⟨routed.decided.settle named (by decide) given (fun _ => .inr (.inr only.1)) (by simp),
        routed.distinct,routed.routed⟩
    · exact blockRouted routed named given (by simp)
  rename_i clean
  split
  · exact ⟨routed.decided.block named (by simp) (by simp),routed.distinct,routed.routed⟩
  · rename_i route agreed
    split
    · exact blockRouted routed named (by simp) (by simp)
    rename_i flattened
    refine ⟨routed.decided,distinctInsert routed.distinct _ _,fun p mem => ?_⟩
    rcases insertMem mem with rfl | old
    · refine ⟨named,?_,by simpa using clean,agreed,by simpa using flattened⟩
      exact Bool.eq_false_of_not_eq_true fun before => unsettled (routed.decided.stays before)
    · exact routed.routed p old
  · exact blockRouted routed named (by simp) (by simp)

variable {routes : List (String × String)}

theorem collisionNamed
    (mem : fixture ∈ (collisionSets rt routes).flatMap Conflict.listed) : fixture ∈ keys routes := by
  have inRow : ∀ {κ : Type} [DecidableEq κ] {key : String × String → κ} {k : κ}
      {row : List (String × String)}, (k,row) ∈ group key routes →
      fixture ∈ sortedNames (row.map Prod.fst) → fixture ∈ keys routes := by
    intro κ _ key k row inside listed
    rw [memSortedNames] at listed
    obtain ⟨p,within,rfl⟩ := List.mem_map.mp listed
    rw [groupRowEq inside] at within
    exact List.mem_map_of_mem (List.mem_filter.mp within).1
  obtain ⟨conflict,inside,listed⟩ := List.mem_flatMap.mp mem
  rw [collisionSets] at inside
  simp only [List.mem_dedup,List.mem_append] at inside
  rcases inside with (shared | folded) | nested
  · obtain ⟨row,kept,rfl⟩ := List.mem_map.mp shared
    exact inRow (memSortedItems.mp (List.mem_filter.mp kept).1) listed
  · obtain ⟨row,kept,rfl⟩ := List.mem_map.mp folded
    exact inRow (memSortedItems.mp (List.mem_filter.mp kept).1) listed
  obtain ⟨p,first,rest⟩ := List.mem_flatMap.mp nested
  obtain ⟨q,second,rfl⟩ := List.mem_map.mp rest
  have either : fixture = p.1 ∨ fixture = q.1 := by simpa [Conflict.listed] using listed
  rcases either with rfl | rfl
  · exact List.mem_map_of_mem (memSortedItems.mp first)
  · exact List.mem_map_of_mem (memSortedItems.mp (List.mem_filter.mp second).1)

theorem collisionListed {p q} (first : p ∈ routes) (second : q ∈ routes) (other : p.1 ≠ q.1)
    (collide : p.2 = q.2 ∨ rt.casefold (destinationOf p) = rt.casefold (destinationOf q) ∨
      onPath p q = true) : p.1 ∈ (collisionSets rt routes).flatMap Conflict.listed := by
  have different : p ≠ q := fun same => other (congrArg Prod.fst same)
  rcases collide with route | folded | nested
  · obtain ⟨row,inside,many,left,-⟩ := groupShared Prod.snd first second route different
    refine List.mem_flatMap.mpr ⟨.multipleSourceFixturesToRoute p.2 (sortedNames (row.map Prod.fst)),?_,?_⟩
    · rw [collisionSets]
      simp only [List.mem_dedup,List.mem_append]
      exact .inl (.inl (List.mem_map.mpr ⟨(p.2,row),by simp [inside,many],rfl⟩))
    · simp only [Conflict.listed,memSortedNames]
      exact List.mem_map_of_mem left
  · obtain ⟨row,inside,many,left,-⟩ :=
      groupShared (fun p => rt.casefold (destinationOf p)) first second folded different
    refine List.mem_flatMap.mpr ⟨.caseFoldedDestinationCollision (rt.casefold (destinationOf p))
      (sortedNames (row.map Prod.fst)),?_,?_⟩
    · rw [collisionSets]
      simp only [List.mem_dedup,List.mem_append]
      exact .inl (.inr (List.mem_map.mpr ⟨(_,row),by simp [inside,many],rfl⟩))
    · simp only [Conflict.listed,memSortedNames]
      exact List.mem_map_of_mem left
  · refine List.mem_flatMap.mpr ⟨.fileDirectoryCollision (destinationOf p) (sortedNames [p.1,q.1]),?_,?_⟩
    · rw [collisionSets]
      simp only [List.mem_dedup,List.mem_append]
      exact .inr (List.mem_flatMap.mpr ⟨p,by simp [first],List.mem_map.mpr ⟨q,by simp [second,nested],rfl⟩⟩)
    · simp [Conflict.listed]

theorem dropCollisionRouted (named : fixture ∈ fixtureNames files)
    (routed : Routed rt files w r) : Routed rt files w (dropCollision r fixture) := by
  refine ⟨routed.decided.block named (by simp) (by simp),?_,fun p mem => ?_⟩
  · exact routed.distinct.sublist ((List.filter_sublist).map _)
  · exact routed.routed p (List.mem_filter.mp mem).1

variable {p : String × String}

theorem droppedRoutes {fixtures : List String}
    (mem : p ∈ (fixtures.foldl dropCollision r).routes) : p ∈ r.routes ∧ p.1 ∉ fixtures := by
  induction fixtures generalizing r with
  | nil => exact ⟨mem,List.not_mem_nil⟩
  | cons fixture rest ih =>
    obtain ⟨kept,later⟩ := ih mem
    have here := List.mem_filter.mp kept
    refine ⟨here.1,fun inside => ?_⟩
    rcases List.mem_cons.mp inside with same | within
    · simp [same] at here
    · exact later within

def Apart (rt : Runtime) (routes : List (String × String)) : Prop :=
  ∀ p ∈ routes, ∀ q ∈ routes, p.1 ≠ q.1 →
    p.2 ≠ q.2 ∧ rt.casefold (destinationOf p) ≠ rt.casefold (destinationOf q) ∧ onPath p q = false

theorem resolveCollisionsRouted (routed : Routed rt files w r) :
    Routed rt files w (resolveCollisions rt r) ∧ Apart rt (resolveCollisions rt r).routes := by
  constructor
  · unfold resolveCollisions
    refine List.foldlRecOn _ _ ⟨⟨routed.decided.stays,routed.decided.named,routed.decided.excluded,
      routed.decided.aliases⟩,
      routed.distinct,routed.routed⟩ fun s kept fixture mem => ?_
    have known := collisionNamed (memSortedSet.mp mem)
    obtain ⟨p,inside,rfl⟩ := List.mem_map.mp known
    exact dropCollisionRouted (routed.routed p inside).named kept
  · intro p left q right other
    obtain ⟨first,unlisted⟩ := droppedRoutes left
    have second := (droppedRoutes right).1
    rw [memSortedSet] at unlisted
    refine ⟨fun same => ?_,fun same => ?_,Bool.eq_false_of_not_eq_true fun same => ?_⟩
    · exact unlisted (collisionListed first second other (.inl same))
    · exact unlisted (collisionListed first second other (.inr (.inl same)))
    · exact unlisted (collisionListed first second other (.inr (.inr same)))

def routed (rt : Runtime) (files : List (String × Bytes)) (w : Work) : Routing :=
  let names := fixtureNames files
  let excluded := names.foldl (excludeAlias rt files (fixtureLookup rt names) w.evidence) w.verdicts
  let unclaimed := (sortedItems (· ≤ ·) (claims w.evidence excluded names)).foldl blockClaim excluded
  names.foldl (routeFixture rt w.evidence) ⟨unclaimed,[]⟩

theorem classifyEq (rt : Runtime) (files : List (String × Bytes)) (w : Work) :
    classify rt files w = resolveCollisions rt (routed rt files w) := rfl

theorem routedRouted (sound : Sound rt files w) : Routed rt files w (routed rt files w) := by
  have start : Decided rt files w w.verdicts := sound.opened.weaken id .inl (fun none => none.elim)
  have excluded := List.foldlRecOn _ _ start fun v kept fixture mem => excludeAliasDecided mem kept
  have unclaimed : Decided rt files w ((sortedItems (· ≤ ·) (claims w.evidence
      ((fixtureNames files).foldl (excludeAlias rt files (fixtureLookup rt (fixtureNames files))
        w.evidence) w.verdicts) (fixtureNames files))).foldl blockClaim
      ((fixtureNames files).foldl (excludeAlias rt files (fixtureLookup rt (fixtureNames files))
        w.evidence) w.verdicts)) :=
    List.foldlRecOn _ _ excluded fun v kept row mem =>
      blockClaimDecided (claimsNamed (memSortedItems.mp mem)) kept
  exact List.foldlRecOn _ _ ⟨unclaimed,List.nodup_nil,fun p mem => absurd mem List.not_mem_nil⟩
    fun r kept fixture mem => routeFixtureRouted mem kept

theorem classifyRouted (sound : Sound rt files w) :
    Routed rt files w (classify rt files w) ∧ Apart rt (classify rt files w).routes := by
  exact resolveCollisionsRouted (routedRouted sound)

@[simp] theorem memEmissions : p ∈ emissions routes ↔ p ∈ routes := List.mem_insertionSort _

variable {name : String}

theorem memPayloads :
    name ∈ keys (payloadsOf files routes) ↔ ∃ p ∈ routes, destinationOf p = name := by
  constructor
  · intro mem
    by_contra unclaimed
    have outside : ∀ p ∈ emissions routes, destinationOf p ≠ name :=
      fun p inside same => unclaimed ⟨p,memEmissions.mp inside,same⟩
    exact lookupNone.mp (lookupOutside outside []) mem
  · rintro ⟨p,inside,rfl⟩
    have grown : ∀ (items : List (String × String)) (d : List (String × Bytes)),
        destinationOf p ∈ keys d ∨ p ∈ items → destinationOf p ∈ keys (items.foldl
          (fun d p => insert (destinationOf p) (payloadOf files p.1) d) d) := by
      intro items
      induction items with
      | nil =>
        intro d either
        exact either.resolve_right List.not_mem_nil
      | cons q rest ih =>
        intro d either
        refine ih _ ?_
        rw [memKeysInsert]
        rcases either with old | mem
        · exact .inl (.inr old)
        · rcases List.mem_cons.mp mem with rfl | later
          · exact .inl (.inl rfl)
          · exact .inr later
    exact grown _ _ (.inr (memEmissions.mpr inside))

structure Closed (rt : Runtime) (files : List (String × Bytes)) (e : Evidence)
    (routes : List (String × String)) (v : Verdicts) : Prop where
  emitted : ∀ {f}, v.status.lookup f = some .emitted ↔ f ∈ keys routes
  told : ∀ {f st}, v.status.lookup f = some st → st ≠ .emitted →
    f ∈ fixtureNames files ∧ bucket v.reasons f ≠ []
  excluded : ∀ {f}, v.status.lookup f = some .excluded → Excludable rt files e f
  aliases : ∀ {f found}, Reason.canonicalAliasSubset found ∈ bucket v.reasons f →
    aliasOf rt files e f = some found

theorem emitClosed (routed : Routed rt files w r) :
    Closed rt files w.evidence r.routes (emit r.verdicts r.routes) := by
  have status : ∀ f, (emit r.verdicts r.routes).status.lookup f =
      if f ∈ keys r.routes then some .emitted else r.verdicts.status.lookup f := by
    intro f
    split
    · rename_i mem
      obtain ⟨p,inside,rfl⟩ := List.mem_map.mp mem
      exact lookupInserted Prod.fst (fun _ => Status.emitted) (memEmissions.mpr inside)
        (fun _ _ _ => rfl) _
    · rename_i outside
      refine lookupOutside (fun p mem same => outside ?_) _
      exact List.mem_map.mpr ⟨p,memEmissions.mp mem,same⟩
  refine ⟨fun {f} => ?_,fun {f st} found undecided => ?_,fun {f} found => ?_,routed.decided.aliases⟩
  · rw [status]
    constructor
    · intro found
      by_contra outside
      rw [if_neg outside] at found
      exact (routed.decided.named found).2.1 rfl
    · exact fun mem => if_pos mem
  · rw [status] at found
    split at found
    · exact absurd (Option.some.inj found).symm undecided
    · have named := routed.decided.named found
      exact ⟨named.1,named.2.2⟩
  · rw [status] at found
    split at found
    · cases found
    · exact routed.decided.excluded found

theorem closeFixtureClosed {e} (named : fixture ∈ fixtureNames files)
    (closed : Closed rt files e routes v) : Closed rt files e routes (closeFixture v fixture) := by
  unfold closeFixture
  split
  · exact closed
  rename_i absent
  have fresh : v.status.lookup fixture = none := lookupNone.mpr (by simpa using absent)
  have status : ∀ f, (settle fixture .unresolved [.internalUnclassifiedSource] v).status.lookup f =
      if f = fixture then some .unresolved else v.status.lookup f := fun f => lookupInsert _ _ _ _
  refine ⟨fun {f} => ?_,fun {f st} found undecided => ?_,fun {f} found => ?_,fun {f found} mem => ?_⟩
  · rw [status,← closed.emitted]
    split
    · rename_i same
      simp [same,fresh]
    · rfl
  · rw [status] at found
    simp only [settle,bucketExtend]
    split at found
    · rename_i same
      rw [if_pos same]
      exact ⟨same ▸ named,by simp⟩
    · rename_i other
      rw [if_neg other]
      exact closed.told found undecided
  · rw [status] at found
    split at found
    · cases found
    · exact closed.excluded found
  · simp only [settle,bucketExtend] at mem
    split at mem
    · rename_i same
      rcases List.mem_append.mp mem with old | new
      · exact closed.aliases (same ▸ old)
      · simp at new
    · exact closed.aliases mem

theorem closeFixtureSettles (v : Verdicts) (fixture : String) {f}
    (done : f = fixture ∨ (v.status.lookup f).isSome = true) :
    ((closeFixture v fixture).status.lookup f).isSome = true := by
  have present : ∀ {g}, (v.status.lookup g).isSome = true ↔ (keys v.status).contains g = true := by
    intro g
    rw [List.contains_iff_mem,← not_iff_not,← lookupNone]
    cases v.status.lookup g <;> simp
  unfold closeFixture
  split
  · rename_i known
    rcases done with rfl | settled
    · exact present.mpr known
    · exact settled
  rw [settle,lookupInsert]
  split
  · rfl
  · rename_i other
    exact done.resolve_left other

theorem finalClosed (sound : Sound rt files w) :
    Closed rt files w.evidence (classify rt files w).routes (finalVerdicts rt files w) :=
  List.foldlRecOn _ _ (emitClosed (classifyRouted sound).1) fun _ closed _ mem =>
    closeFixtureClosed mem closed

theorem finalTotal (rt : Runtime) (w : Work) {f} (named : f ∈ fixtureNames files) :
    ((finalVerdicts rt files w).status.lookup f).isSome = true := by
  unfold finalVerdicts
  generalize fixtureNames files = names at named
  induction names using List.reverseRecOn with
  | nil => cases named
  | append_singleton rest g ih =>
    rw [List.foldl_append,List.foldl_cons]
    refine closeFixtureSettles _ g ?_
    rcases List.mem_append.mp named with inside | last
    · exact .inr (ih inside)
    · exact .inl (List.mem_singleton.mp last)

theorem memRowsOf {status f reason} :
    (f,reason) ∈ rowsOf v names status ↔
      f ∈ names ∧ v.status.lookup f = some status ∧ reason ∈ bucket v.reasons f := by
  simp [rowsOf,and_assoc]

def memberName (m : Member) : String :=
  String.ofList ((parts (rstripSlashes m.name).toList).getLastD [])

theorem safeArchivePathOk {path} (done : safeArchivePath name = .ok path) : path = parts name.toList := by
  unfold safeArchivePath at done
  split at done
  · cases done
  split at done
  · cases done
  · exact (Except.ok.inj done).symm

theorem readMemberOk {arcname root r t m} (done : readMember arcname root r m = .ok t) :
    (m.kind = .directory ∧ t = r) ∨ (m.kind = .regular ∧ memberName m ∉ keys r.files ∧
      t.files = insert (memberName m) m.data r.files) := by
  obtain ⟨path,safe,rest⟩ := okOfBind done
  cases safeArchivePathOk safe
  split at rest
  · cases rest
  rename_i below
  cases kind : m.kind with
  | directory =>
    rw [kind] at rest
    exact .inl ⟨rfl,(Except.ok.inj rest).symm⟩
  | other =>
    rw [kind] at rest
    cases rest
  | regular =>
    rw [kind] at rest
    dsimp only at rest
    split at rest
    · rename_i only relative
      have starts : root.isPrefixOf (parts (rstripSlashes m.name).toList) = true := by
        cases prefixed : root.isPrefixOf (parts (rstripSlashes m.name).toList) with
        | true => rfl
        | false => simp [prefixed] at below
      obtain ⟨tail,whole⟩ := List.isPrefixOf_iff_prefix.mp starts
      have last : tail = [only] := by
        rw [← whole,List.drop_left] at relative
        exact relative
      have name : memberName m = String.ofList only := by
        rw [memberName,← whole,last]
        simp
      split at rest
      · cases rest
      split at rest
      · cases rest
      split at rest
      · cases rest
      rename_i fresh
      split at rest
      · cases rest
      · cases Except.ok.inj rest
        exact .inr ⟨rfl,by simpa [name] using fresh,by rw [name]⟩
    · cases rest

theorem readArchiveOk {archive arcname} (done : readArchive archive arcname = .ok files) :
    Distinct files ∧ ∀ m ∈ archive.members, m.kind = .regular → files.lookup (memberName m) = some m.data := by
  obtain ⟨root,-,rest⟩ := okOfBind done
  split at rest
  · cases rest
  obtain ⟨read,reading,rest⟩ := okOfBind rest
  split at rest
  · cases rest
  cases Except.ok.inj rest
  constructor
  · have start : Distinct (⟨[],0⟩ : Reading).files := List.nodup_nil
    refine foldlMKeeps (I := fun r => Distinct r.files) (fun r m t _ distinct step => ?_) start reading
    rcases readMemberOk step with ⟨-,rfl⟩ | ⟨-,-,inserted⟩
    · exact distinct
    · rw [inserted]
      exact distinctInsert distinct _ _
  · refine foldlMEach (P := fun m r => m.kind = .regular → r.files.lookup (memberName m) = some m.data)
      (fun r m t _ step regular => ?_) (fun r m t n step found regular => ?_) reading
    · rcases readMemberOk step with ⟨directory,-⟩ | ⟨-,-,inserted⟩
      · rw [regular] at directory
        cases directory
      · rw [inserted,lookupInsert,if_pos rfl]
    rcases readMemberOk step with ⟨-,rfl⟩ | ⟨-,fresh,inserted⟩
    · exact found regular
    have other : memberName n ≠ memberName m := by
      intro same
      have known := found regular
      rw [same,lookupNone.mpr fresh] at known
      cases known
    rw [inserted,lookupInsert,if_neg other]
    exact found regular

inductive FileDisposition where
  | emitted
  | excluded
  | unresolved
  | sidecar
  deriving DecidableEq, Repr

def Disposed (files : List (String × Bytes)) (report : Report) (name : String) : FileDisposition → Prop
  | .emitted => ∃ m ∈ report.mappings, m.sourceFixture = name
  | .excluded => ∃ reason, (name,reason) ∈ report.excluded
  | .unresolved => ∃ reason, (name,reason) ∈ report.unresolved
  | .sidecar => name ∈ sidecars files

structure Placed (rt : Runtime) (files : List (String × Bytes)) (routeMap : List (String × String))
    (e : Evidence) (payloads : List (String × Bytes)) (m : Mapping) : Prop where
  payload : ∃ data, files.lookup m.sourceFixture = some data ∧ payloads.lookup m.destination = some data
  clean : bucket e.issues m.sourceFixture = []
  claimed : bucket e.candidates m.sourceFixture ≠ []
  agreed : ∀ c ∈ bucket e.candidates m.sourceFixture, c.route = m.route
  top : ∀ document raw, e.parsed.lookup m.sourceFixture = some document →
    document.get? "@odata.id" = some (.str raw) → canonicalizeRoute rt raw = .ok m.route
  mapped : ∀ row ∈ routeMap, bucket (fixtureLookup rt (fixtureNames files)) (rt.casefold row.2) =
    [m.sourceFixture] → canonicalizeRoute rt row.1 = .ok m.route
  root : rootMatches (fixtureLookup rt (fixtureNames files)) = [m.sourceFixture] → m.route = serviceRoot
  metadata : m.sourceFixture = metadataFixture → m.route = anchorRoute
  flattened : rt.casefold (expectedName m.sourceFixture m.route) = rt.casefold m.sourceFixture

structure Accounts (rt : Runtime) (files : List (String × Bytes)) (routeMap : List (String × String))
    (e : Evidence) (c : Conversion) : Prop where
  disposed : ∀ name ∈ keys files, ∃! d, Disposed files c.report name d
  placed : ∀ m ∈ c.report.mappings, Placed rt files routeMap e c.payloads m
  routes : (c.report.mappings.map Mapping.route).Nodup
  destinations : (c.report.mappings.map fun m => rt.casefold m.destination).Nodup
  passed : c.report.passed = true → c.report.unresolved = [] ∧ c.report.conflicts = [] ∧
    ∃ m ∈ c.report.mappings, m.route = serviceRoot

theorem memFixtureNames : name ∈ fixtureNames files ↔
    name ∈ keys files ∧ isFixture name = true := by
  simp [fixtureNames]

theorem memSidecars : name ∈ sidecars files ↔ name ∈ keys files ∧ name ∉ fixtureNames files := by
  simp [sidecars]

theorem lookupPayload (named : name ∈ fixtureNames files) :
    files.lookup name = some (payloadOf files name) := by
  cases found : files.lookup name with
  | none => exact absurd (memFixtureNames.mp named).1 (lookupNone.mp found)
  | some data => simp [payloadOf,found]

theorem canonicalServiceRoot (rt : Runtime) : canonicalizeRoute rt serviceRoot = .ok serviceRoot := rfl

theorem Undisputed.recorded {source raw} (undisputed : Undisputed rt files w p)
    (recorded : Recorded rt p.1 source raw w.evidence) : canonicalizeRoute rt raw = .ok p.2 := by
  rcases recorded with ⟨issue,mem⟩ | ⟨route,canonical,mem⟩
  · rw [undisputed.clean] at mem
    cases mem
  · have inside : route ∈ routesOf (bucket w.evidence.candidates p.1) :=
      memSortedSet.mpr (List.mem_map.mpr ⟨_,mem,rfl⟩)
    rw [undisputed.agreed] at inside
    rw [canonical,List.mem_singleton.mp inside]

variable {routeMap : List (String × String)}

theorem Undisputed.metadata
    (undisputed : Undisputed rt files w p) (gathered : Gathered rt files routeMap w)
    (same : p.1 = metadataFixture) : p.2 = anchorRoute := by
  rcases gathered.metadata (same ▸ undisputed.named) with aside | recorded
  · rw [← same,undisputed.undecided] at aside
    cases aside
  · have route := undisputed.recorded (same ▸ recorded)
    exact (Except.ok.inj route).symm

theorem payloadPlaced (apart : Apart rt routes) (mem : p ∈ routes) :
    (payloadsOf files routes).lookup (destinationOf p) = some (payloadOf files p.1) := by
  refine lookupInserted destinationOf (fun p => payloadOf files p.1) (memEmissions.mpr mem)
    (fun q within same => ?_) []
  by_cases fixture : q.1 = p.1
  · exact congrArg (payloadOf files) fixture
  · exact absurd (congrArg rt.casefold same) (apart q (memEmissions.mp within) p mem fixture).2.1

theorem undisputedPlaced {payloads m} (gathered : Gathered rt files routeMap w)
    (undisputed : Undisputed rt files w p)
    (stored : payloads.lookup m.destination = some (payloadOf files p.1))
    (fixture : m.sourceFixture = p.1) (route : m.route = p.2) :
    Placed rt files routeMap w.evidence payloads m := by
  have clean := undisputed.clean
  have agreed := undisputed.agreed
  have flattened := undisputed.flattened
  have found := lookupPayload undisputed.named
  rw [← fixture] at clean agreed found
  rw [← fixture,← route] at flattened
  refine ⟨⟨_,found,fixture ▸ stored⟩,clean,fun none => ?_,fun c mem => ?_,
    fun document raw found id => ?_,fun row mem matched => ?_,fun matched => ?_,fun same => ?_,flattened⟩
  · rw [none] at agreed
    cases agreed
  · have inside : c.route ∈ routesOf (bucket w.evidence.candidates m.sourceFixture) :=
      memSortedSet.mpr (List.mem_map_of_mem mem)
    rw [agreed] at inside
    exact (List.mem_singleton.mp inside).trans route.symm
  · rw [fixture] at found
    rw [route]
    exact undisputed.recorded (gathered.sound.grounded.told found id)
  · rw [fixture] at matched
    rw [route]
    exact undisputed.recorded (gathered.mapped mem matched)
  · rw [fixture] at matched
    have root := undisputed.recorded (gathered.root matched)
    exact route.trans (Except.ok.inj root).symm
  · exact route.trans (undisputed.metadata gathered (fixture.symm.trans same))

theorem distinctFixtures (distinct : Distinct routes) {p q} (first : p ∈ routes)
    (second : q ∈ routes) (same : p.1 = q.1) : p = q := by
  have left := lookupOfMem distinct first
  rw [same,lookupOfMem distinct second] at left
  exact Prod.ext same (Option.some.inj left).symm

theorem emissionsNodup (distinct : Distinct routes) : (emissions routes).Nodup :=
  (List.perm_insertionSort _ routes).nodup_iff.mpr distinct.of_map

theorem emittedOnce {α} (distinct : Distinct routes) {value : String × String → α}
    (apart : ∀ p ∈ routes, ∀ q ∈ routes, p.1 ≠ q.1 → value p ≠ value q) :
    ((emissions routes).map value).Nodup := by
  refine (emissionsNodup distinct).map_on fun p first q second same => ?_
  rw [memEmissions] at first second
  by_cases fixture : p.1 = q.1
  · exact distinctFixtures distinct first second fixture
  · exact absurd same (apart p first q second fixture)

theorem countedNone (none : countStatus v .unresolved = 0) : rowsOf v names .unresolved = [] := by
  rw [List.eq_nil_iff_forall_not_mem]
  rintro ⟨f,reason⟩ mem
  have found := lookupMem (memRowsOf.mp mem).2.1
  rw [countStatus,List.length_eq_zero_iff,List.filter_eq_nil_iff] at none
  exact absurd (decide_eq_true rfl) (none _ found)

theorem disposedOnce {report} (sound : Sound rt files w)
    (mappings : report.mappings = (emissions (classify rt files w).routes).map (mappingOf files))
    (excluded : report.excluded = rowsOf (finalVerdicts rt files w) (fixtureNames files) .excluded)
    (unresolved : report.unresolved = rowsOf (finalVerdicts rt files w) (fixtureNames files) .unresolved)
    (mem : name ∈ keys files) : ∃! d, Disposed files report name d := by
  have closed := finalClosed sound
  have emitted : Disposed files report name .emitted ↔
      (finalVerdicts rt files w).status.lookup name = some .emitted := by
    simp [Disposed,mappings,mappingOf,closed.emitted,keys]
  have listed : ∀ {status}, status ≠ .emitted →
      ((∃ reason, (name,reason) ∈ rowsOf (finalVerdicts rt files w) (fixtureNames files) status) ↔
        name ∈ fixtureNames files ∧ (finalVerdicts rt files w).status.lookup name = some status) := by
    intro status other
    simp only [memRowsOf]
    constructor
    · rintro ⟨reason,named,found,given⟩
      exact ⟨named,found⟩
    · rintro ⟨named,found⟩
      obtain ⟨reason,given⟩ := List.exists_mem_of_ne_nil _ (closed.told found other).2
      exact ⟨reason,named,found,given⟩
  have aside : Disposed files report name .excluded ↔ name ∈ fixtureNames files ∧
      (finalVerdicts rt files w).status.lookup name = some .excluded := by
    rw [Disposed,excluded]
    exact listed (by decide)
  have undecided : Disposed files report name .unresolved ↔ name ∈ fixtureNames files ∧
      (finalVerdicts rt files w).status.lookup name = some .unresolved := by
    rw [Disposed,unresolved]
    exact listed (by decide)
  have beside : Disposed files report name .sidecar ↔ name ∉ fixtureNames files := by
    simp [Disposed,memSidecars,mem]
  by_cases named : name ∈ fixtureNames files
  · obtain ⟨status,found⟩ := Option.isSome_iff_exists.mp (finalTotal rt w named)
    cases status with
    | emitted =>
      refine ⟨.emitted,emitted.mpr found,fun d given => ?_⟩
      cases d <;> simp_all
    | excluded =>
      refine ⟨.excluded,aside.mpr ⟨named,found⟩,fun d given => ?_⟩
      cases d <;> simp_all
    | unresolved =>
      refine ⟨.unresolved,undecided.mpr ⟨named,found⟩,fun d given => ?_⟩
      cases d <;> simp_all
  · refine ⟨.sidecar,beside.mpr named,fun d given => ?_⟩
    cases d with
    | sidecar => rfl
    | excluded => exact absurd (aside.mp given).1 named
    | unresolved => exact absurd (undecided.mp given).1 named
    | emitted =>
      obtain ⟨p,inside,same⟩ := List.mem_map.mp (closed.emitted.mp (emitted.mp given))
      exact absurd (same ▸ ((classifyRouted sound).1.routed p inside).named) named

theorem emittedRoute {route} (mem : route ∈ keys (emittedRoutes routes)) : ∃ p ∈ routes, p.2 = route := by
  by_contra unclaimed
  have outside : ∀ p ∈ emissions routes, p.2 ≠ route :=
    fun p inside same => unclaimed ⟨p,memEmissions.mp inside,same⟩
  have missing : (emittedRoutes routes).lookup route = none := lookupOutside outside []
  exact lookupNone.mp missing mem

structure Concluded (rt : Runtime) (files : List (String × Bytes)) (w : Work) (c : Conversion) : Prop where
  mappings : c.report.mappings = (emissions (classify rt files w).routes).map (mappingOf files)
  excluded : c.report.excluded = rowsOf (finalVerdicts rt files w) (fixtureNames files) .excluded
  unresolved : c.report.unresolved = rowsOf (finalVerdicts rt files w) (fixtureNames files) .unresolved
  payloads : c.payloads = payloadsOf files (classify rt files w).routes
  passed : c.report.passed = true → c.report.conflicts = [] ∧
    countStatus (finalVerdicts rt files w) .unresolved = 0 ∧
    serviceRoot ∈ keys (emittedRoutes (classify rt files w).routes)

theorem concluded {row sha256 c} (done : conclude rt row sha256 files w = .ok c) :
    Concluded rt files w c := by
  obtain ⟨links,-,rest⟩ := okOfBind done
  have whole := Except.ok.inj rest
  subst whole
  refine ⟨by rw [reportOf],by rw [reportOf],by rw [reportOf],by dsimp only,fun passed => ?_⟩
  rw [reportOf] at passed
  simp only [passes,Bool.and_eq_true,List.isEmpty_iff,decide_eq_true_eq,List.contains_iff_mem] at passed
  obtain ⟨⟨⟨⟨conflicts,counted⟩,present⟩,-⟩,-⟩ := passed
  exact ⟨conflicts,counted,present⟩

@[simp] theorem mappingRoute (p : String × String) : (mappingOf files p).route = p.2 := by rw [mappingOf]

@[simp] theorem mappingFixture (p : String × String) : (mappingOf files p).sourceFixture = p.1 := by
  rw [mappingOf]

@[simp] theorem mappingDestination (p : String × String) :
    (mappingOf files p).destination = destinationOf p := by
  rw [mappingOf]

theorem concludeAccounts {c} (gathered : Gathered rt files routeMap w)
    (concluded : Concluded rt files w c) : Accounts rt files routeMap w.evidence c := by
  obtain ⟨routed,apart⟩ := classifyRouted gathered.sound
  have once : ∀ {α : Type} {value : Mapping → α} {of : String × String → α},
      (∀ p, value (mappingOf files p) = of p) →
      (∀ p ∈ (classify rt files w).routes, ∀ q ∈ (classify rt files w).routes, p.1 ≠ q.1 → of p ≠ of q) →
      (c.report.mappings.map value).Nodup := by
    intro α value of same apart
    rw [concluded.mappings,List.map_map,show value ∘ mappingOf files = of from funext same]
    exact emittedOnce routed.distinct apart
  refine ⟨fun name mem => ?_,fun m mem => ?_,?_,?_,fun passed => ?_⟩
  · exact disposedOnce gathered.sound concluded.mappings concluded.excluded concluded.unresolved mem
  · rw [concluded.mappings] at mem
    obtain ⟨p,inside,rfl⟩ := List.mem_map.mp mem
    rw [memEmissions] at inside
    refine undisputedPlaced gathered (routed.routed p inside) ?_ (mappingFixture p) (mappingRoute p)
    rw [concluded.payloads,mappingDestination]
    exact payloadPlaced apart inside
  · exact once mappingRoute fun p first q second other => (apart p first q second other).1
  · exact once (fun p => congrArg rt.casefold (mappingDestination p))
      fun p first q second other => (apart p first q second other).2.1
  · obtain ⟨conflicts,counted,present⟩ := concluded.passed passed
    refine ⟨concluded.unresolved ▸ countedNone counted,conflicts,?_⟩
    obtain ⟨p,inside,route⟩ := emittedRoute present
    refine ⟨mappingOf files p,?_,(mappingRoute p).trans route⟩
    rw [concluded.mappings]
    exact List.mem_map_of_mem (memEmissions.mpr inside)

theorem conversionAccounts (rt : Runtime) {row : Row} {archive : Archive} {c : Conversion}
    (done : buildConversion rt row archive = .ok c) :
    ∃ files routeMap w, readArchive archive row.arcname = .ok files ∧
      (∀ m ∈ archive.members, m.kind = .regular → files.lookup (memberName m) = some m.data) ∧
      loadRouteMap rt files = .ok routeMap ∧ gather rt files routeMap = .ok w ∧
      Accounts rt files routeMap w.evidence c := by
  unfold buildConversion at done
  split at done
  · cases done
  obtain ⟨files,read,rest⟩ := okOfBind done
  obtain ⟨routeMap,loaded,rest⟩ := okOfBind rest
  obtain ⟨w,gathering,finished⟩ := okOfBind rest
  exact ⟨files,routeMap,w,read,(readArchiveOk read).2,loaded,gathering,
    concludeAccounts (gathered gathering) (concluded finished)⟩

end

namespace Sample

def document (id : String) (rest : List (String × Json)) : Json := .obj (("@odata.id",.str id)::rest)

def runtime (documents : List Json) : Runtime :=
  { casefold := id
    lower := id
    loads := fun bytes => match documents[(bytes.headD 0).toNat]? with
      | some document => .ok document
      | none => .error (.valueError "Expecting value")
    fromstring := fun _ => .ok none
    refusesHost := fun _ => false }

def row : Row := ⟨"acme","one","acme.tar.gz","capture"⟩

def member (name : String) (data : Bytes) : Member := ⟨"capture/" ++ name,.regular,data.length,data⟩

def archive (members : List Member) : Archive := ⟨members,""⟩

def small : List Json :=
  [document "/redfish/v1/" [("Systems",document "/redfish/v1/Systems" [])],
    document "/redfish/v1/Systems" [("Members",.arr [])]]

def smallArchive : Archive :=
  archive [member "_redfish_v1.json" [0],member "_redfish_v1_Systems.json" [1],member "notes.txt" [7]]

end Sample

open Sample in
theorem smallConversionAccounts : ∃ c files routeMap w,
    buildConversion (runtime small) row smallArchive = .ok c ∧ c.report.passed = true ∧
      readArchive smallArchive row.arcname = .ok files ∧ loadRouteMap (runtime small) files = .ok routeMap ∧
      gather (runtime small) files routeMap = .ok w ∧
      Accounts (runtime small) files routeMap w.evidence c := by
  have passed : (buildConversion (runtime small) row smallArchive).toOption.map
      (fun c => c.report.passed) = some true := by
    decide +kernel
  cases built : buildConversion (runtime small) row smallArchive with
  | error e =>
    rw [built] at passed
    cases passed
  | ok c =>
    rw [built] at passed
    obtain ⟨files,routeMap,w,read,-,loaded,gathering,accounts⟩ :=
      conversionAccounts (runtime small) built
    exact ⟨c,files,routeMap,w,rfl,Option.some.inj passed,read,loaded,gathering,accounts⟩

end RedfishCtl.CorpusTree
