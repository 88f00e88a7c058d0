import RedfishCtl.CorpusTree
import RedfishCtl.Stateful

/-! The claims for the routes of a fixture. Each claim ends as a candidate, the canonical form of a
reference, or as an issue of its fixture. The walk along the links visits every fixture it can
reach. -/
namespace RedfishCtl.CorpusTree
open AssocList Buckets
open Stateful (okOfBind foldlMKeeps foldlMEach)

structure Grows (e later : Evidence) : Prop where
  candidates : ∀ {f c}, c ∈ bucket e.candidates f → c ∈ bucket later.candidates f
  issues : ∀ {f i}, i ∈ bucket e.issues f → i ∈ bucket later.issues f

theorem Grows.refl (e : Evidence) : Grows e e := ⟨id,id⟩

theorem Grows.trans {a b c} (first : Grows a b) (second : Grows b c) : Grows a c :=
  ⟨second.candidates ∘ first.candidates,second.issues ∘ first.issues⟩

def Recorded (rt : Runtime) (fixture : String) (source : Source) (raw : String) (e : Evidence) : Prop :=
  (∃ issue, issue ∈ bucket e.issues fixture) ∨
    ∃ route, canonicalizeRoute rt raw = .ok route ∧ ⟨route,source⟩ ∈ bucket e.candidates fixture

variable {rt : Runtime} {fixture raw : String} {source : Source} {e : Evidence}

theorem Recorded.grows {later} (recorded : Recorded rt fixture source raw e) (grows : Grows e later) :
    Recorded rt fixture source raw later := by
  rcases recorded with ⟨issue,mem⟩ | ⟨route,canonical,mem⟩
  · exact .inl ⟨issue,grows.issues mem⟩
  · exact .inr ⟨route,canonical,grows.candidates mem⟩

structure Added (rt : Runtime) (fixture : String) (source : Source) (raw : String)
    (e later : Evidence) : Prop where
  parsed : later.parsed = e.parsed
  grows : Grows e later
  recorded : Recorded rt fixture source raw later
  fresh : ∀ {f c}, c ∈ bucket later.candidates f →
    c ∈ bucket e.candidates f ∨ f = fixture ∧ c.source = source ∧ canonicalizeRoute rt raw = .ok c.route

theorem addedIssue (issue : Issue) :
    Added rt fixture source raw e { e with issues := add fixture issue e.issues } :=
  ⟨rfl,⟨id,extendKeeps⟩,.inl ⟨issue,by simp⟩,.inl⟩

theorem addedCandidate {route} (canonical : canonicalizeRoute rt raw = .ok route) :
    Added rt fixture source raw e { e with candidates := add fixture ⟨route,source⟩ e.candidates } := by
  refine ⟨rfl,⟨extendKeeps,id⟩,.inr ⟨route,canonical,by simp⟩,fun {f c} mem => ?_⟩
  rw [bucketAdd] at mem
  split at mem
  · rename_i same
    rcases List.mem_append.mp mem with old | new
    · exact .inl (same ▸ old)
    · cases List.mem_singleton.mp new
      exact .inr ⟨same,rfl,canonical⟩
  · exact .inl mem

theorem addCandidateOk {later} (done : addCandidate rt fixture source raw e = .ok later) :
    Added rt fixture source raw e later := by
  unfold addCandidate at done
  split at done
  · cases done
  · cases Except.ok.inj done
    exact addedIssue _
  rename_i route canonical
  split at done
  · rename_i known
    cases Except.ok.inj done
    exact ⟨rfl,.refl e,.inr ⟨route,canonical,by simpa using known⟩,.inl⟩
  · cases Except.ok.inj done
    exact addedCandidate canonical

def unread (fixture : String) : Bool :=
  ".error.json".toList.isSuffixOf fixture.toList || fixture.toList.contains '#'

structure Grounded (rt : Runtime) (files : List (String × Bytes)) (e : Evidence) : Prop where
  routes : ∀ {f c}, c ∈ bucket e.candidates f → ∃ raw, canonicalizeRoute rt raw = .ok c.route
  top : ∀ {f c}, c ∈ bucket e.candidates f → c.source = .topLevelOdataId →
    ∃ document raw, jsonLoadBytes rt (payloadOf files f) f = .ok document ∧
      document.get? "@odata.id" = some (.str raw) ∧ canonicalizeRoute rt raw = .ok c.route
  read : ∀ {f document}, e.parsed.lookup f = some document → unread f = false ∧
    f ∈ fixtureNames files ∧ jsonLoadBytes rt (payloadOf files f) f = .ok document
  told : ∀ {f document raw}, e.parsed.lookup f = some document →
    document.get? "@odata.id" = some (.str raw) → Recorded rt f .topLevelOdataId raw e

section
variable {rt : Runtime} {files : List (String × Bytes)} {fixture raw : String} {source : Source}
variable {e later : Evidence}

theorem Grounded.added (grounded : Grounded rt files e) (added : Added rt fixture source raw e later)
    (other : source ≠ .topLevelOdataId) : Grounded rt files later := by
  refine ⟨fun mem => ?_,fun mem top => ?_,fun found => grounded.read (added.parsed ▸ found),
    fun found id => (grounded.told (added.parsed ▸ found) id).grows added.grows⟩
  · rcases added.fresh mem with old | ⟨-,-,canonical⟩
    · exact grounded.routes old
    · exact ⟨raw,canonical⟩
  · rcases added.fresh mem with old | ⟨-,same,-⟩
    · exact grounded.top old top
    · exact absurd (same.symm.trans top) other

theorem Grounded.parsed (grounded : Grounded rt files e) {document}
    (loaded : jsonLoadBytes rt (payloadOf files fixture) fixture = .ok document)
    (seen : unread fixture = false) (named : fixture ∈ fixtureNames files)
    (added : Added rt fixture .topLevelOdataId raw
      { e with parsed := AssocList.insert fixture document e.parsed } later)
    (id : document.get? "@odata.id" = some (.str raw)) : Grounded rt files later := by
  have lookup : ∀ {f other}, later.parsed.lookup f = some other →
      f = fixture ∧ other = document ∨ e.parsed.lookup f = some other := by
    intro f other found
    rw [added.parsed,lookupInsert] at found
    split at found
    · rename_i same
      exact .inl ⟨same,(Option.some.inj found).symm⟩
    · exact .inr found
  refine ⟨fun mem => ?_,fun mem top => ?_,fun found => ?_,fun found otherId => ?_⟩
  · rcases added.fresh mem with old | ⟨-,-,canonical⟩
    · exact grounded.routes old
    · exact ⟨raw,canonical⟩
  · rcases added.fresh mem with old | ⟨rfl,-,canonical⟩
    · exact grounded.top old top
    · exact ⟨document,raw,loaded,id,canonical⟩
  · rcases lookup found with ⟨rfl,rfl⟩ | old
    · exact ⟨seen,named,loaded⟩
    · exact grounded.read old
  rcases lookup found with ⟨rfl,rfl⟩ | old
  · cases Json.str.inj (Option.some.inj (id.symm.trans otherId))
    exact added.recorded
  · have grows : Grows e later := ⟨added.grows.candidates,added.grows.issues⟩
    exact (grounded.told old otherId).grows grows

theorem Grounded.silent (grounded : Grounded rt files e) {document}
    (loaded : jsonLoadBytes rt (payloadOf files fixture) fixture = .ok document)
    (seen : unread fixture = false) (named : fixture ∈ fixtureNames files)
    (noId : ∀ raw, document.get? "@odata.id" ≠ some (.str raw)) : Grounded rt files { e with parsed := AssocList.insert fixture document e.parsed } := by
  refine ⟨grounded.routes,grounded.top,fun found => ?_,fun found id => ?_⟩
  · rw [lookupInsert] at found
    split at found
    · rename_i same
      cases Option.some.inj found
      exact same ▸ ⟨seen,named,loaded⟩
    · exact grounded.read found
  · rw [lookupInsert] at found
    split at found
    · cases Option.some.inj found
      exact absurd id (noId _)
    · exact grounded.told found id

end

/- Before anything is emitted, what was settled at the start stays so, a settled fixture has a
reason, and an exclusion a ground. -/
structure Kept (names : List String) (start : Verdicts) (excludable : String → Prop)
    (aliased : String → Alias → Prop) (v : Verdicts) : Prop where
  stays : ∀ {f}, settled start f = true → settled v f = true
  named : ∀ {f st}, v.status.lookup f = some st → f ∈ names ∧ st ≠ .emitted ∧ bucket v.reasons f ≠ []
  excluded : ∀ {f}, v.status.lookup f = some .excluded → excludable f
  aliases : ∀ {f found}, Reason.canonicalAliasSubset found ∈ bucket v.reasons f → aliased f found

theorem settledSettle {v f status reasons} (undecided : status ≠ .emitted) :
    settled (settle fixture status reasons v) f = (decide (f = fixture) || settled v f) := by
  simp only [settled,settle,lookupInsert]
  by_cases same : f = fixture
  · cases status <;> simp_all
  · simp [same]

section
variable {names : List String} {start : Verdicts} {excludable : String → Prop}
variable {aliased : String → Alias → Prop}
variable {v : Verdicts} {fixture : String} {status : Status} {reasons : List Reason}

theorem Kept.settle (kept : Kept names start excludable aliased v) (named : fixture ∈ names)
    (undecided : status ≠ .emitted) (given : reasons ≠ []) (grounds : status = .excluded → excludable fixture)
    (aliases : ∀ found, Reason.canonicalAliasSubset found ∈ reasons → aliased fixture found) :
    Kept names start excludable aliased (settle fixture status reasons v) := by
  refine ⟨fun {f} before => ?_,fun {f st} found => ?_,fun {f} found => ?_,fun {f other} mem => ?_⟩
  · rw [settledSettle undecided,kept.stays before,Bool.or_true]
  · simp only [CorpusTree.settle,lookupInsert] at found
    simp only [CorpusTree.settle,bucketExtend]
    split at found
    · rename_i same
      cases Option.some.inj found
      exact ⟨same ▸ named,undecided,by simp [same,given]⟩
    · rename_i different
      rw [if_neg different]
      exact kept.named found
  · simp only [CorpusTree.settle,lookupInsert] at found
    split at found
    · rename_i same
      exact same ▸ grounds (Option.some.inj found)
    · exact kept.excluded found
  · simp only [CorpusTree.settle,bucketExtend] at mem
    split at mem
    · rename_i same
      rcases List.mem_append.mp mem with old | new
      · exact same ▸ kept.aliases old
      · exact same ▸ aliases other new
    · exact kept.aliases mem

theorem Kept.block (kept : Kept names start excludable aliased v) (named : fixture ∈ names)
    (given : reasons ≠ []) (plain : ∀ found, Reason.canonicalAliasSubset found ∉ reasons) :
    Kept names start excludable aliased (CorpusTree.settle fixture .unresolved reasons v) :=
  kept.settle named (by decide) given (fun same => nomatch same) fun found mem => absurd mem (plain found)

theorem Kept.report (kept : Kept names start excludable aliased v) (conflict : Conflict) :
    Kept names start excludable aliased (report conflict v) :=
  ⟨kept.stays,kept.named,kept.excluded,kept.aliases⟩

theorem Kept.weaken {start' excludable' aliased'} (kept : Kept names start excludable aliased v)
    (stays : ∀ {f}, settled start' f = true → settled v f = true)
    (grounds : ∀ {f}, excludable f → excludable' f)
    (aliases : ∀ {f found}, aliased f found → aliased' f found) :
    Kept names start' excludable' aliased' v :=
  ⟨stays,kept.named,fun found => grounds (kept.excluded found),fun mem => aliases (kept.aliases mem)⟩

end

section
variable {rt : Runtime} {files : List (String × Bytes)} {lookup : List (String × List String)}

abbrev Opened (files : List (String × Bytes)) (v : Verdicts) : Prop :=
  Kept (fixtureNames files) ⟨[],[],[]⟩ (fun f => unread f = true) (fun _ _ => False) v

structure Sound (rt : Runtime) (files : List (String × Bytes)) (w : Work) : Prop where
  grounded : Grounded rt files w.evidence
  opened : Opened files w.verdicts

variable {fixture : String} {w t : Work}

theorem parseDocumentSound {document} (sound : Sound rt files w)
    (loaded : jsonLoadBytes rt (payloadOf files fixture) fixture = .ok document)
    (seen : unread fixture = false) (named : fixture ∈ fixtureNames files)
    (done : parseDocument rt fixture document w = .ok t) : Sound rt files t := by
  unfold parseDocument at done
  split at done
  · rename_i raw id
    obtain ⟨evidence,added,rest⟩ := okOfBind done
    cases Except.ok.inj rest
    exact ⟨sound.grounded.parsed loaded seen named (addCandidateOk added) id,sound.opened⟩
  · rename_i noId
    cases Except.ok.inj done
    exact ⟨sound.grounded.silent loaded seen named noId,sound.opened⟩

theorem parseFixtureSound (named : fixture ∈ fixtureNames files)
    (sound : Sound rt files w) (done : parseFixture rt files w fixture = .ok t) : Sound rt files t := by
  have left : ∀ {reason : Reason}, (∀ found, Reason.canonicalAliasSubset found ≠ reason) →
      Opened files (settle fixture .unresolved [reason] w.verdicts) := by
    intro reason plain
    exact sound.opened.block named (by simp) (fun found => by simpa using plain found)
  have aside : ∀ {reason : Reason}, unread fixture = true →
      (∀ found, Reason.canonicalAliasSubset found ≠ reason) →
      Opened files (settle fixture .excluded [reason] w.verdicts) := by
    intro reason skipped plain
    exact sound.opened.settle named (by decide) (by simp) (fun _ => skipped)
      fun found mem => absurd (List.mem_singleton.mp mem) (plain found)
  unfold parseFixture at done
  split at done
  · rename_i error
    cases Except.ok.inj done
    exact ⟨sound.grounded,aside (by rw [unread,error]; rfl) (by simp)⟩
  rename_i noError
  split at done
  · rename_i fragment
    cases Except.ok.inj done
    exact ⟨sound.grounded,aside (by rw [unread,fragment,Bool.or_true]) (by simp)⟩
  rename_i noFragment
  have seen : unread fixture = false := by
    rw [unread,Bool.eq_false_of_not_eq_true noError,Bool.eq_false_of_not_eq_true noFragment]
    rfl
  split at done
  · split at done
    · cases done
    · cases Except.ok.inj done
      exact ⟨sound.grounded,left (by simp)⟩
    · obtain ⟨evidence,added,rest⟩ := okOfBind done
      cases Except.ok.inj rest
      exact ⟨sound.grounded.added (addCandidateOk added) (by decide),sound.opened⟩
  · split at done
    · cases Except.ok.inj done
      exact ⟨sound.grounded,left (by simp)⟩
    · cases done
    · rename_i loaded
      exact parseDocumentSound sound loaded seen named done
    · rename_i loaded
      exact parseDocumentSound sound loaded seen named done
    · cases Except.ok.inj done
      exact ⟨sound.grounded,left (by simp)⟩

def Anchored (rt : Runtime) (w : Work) : Prop :=
  settled w.verdicts metadataFixture = true ∨
    Recorded rt metadataFixture .metadataAnchor anchorRoute w.evidence

structure Later (w t : Work) : Prop where
  grows : Grows w.evidence t.evidence
  stays : ∀ {f}, settled w.verdicts f = true → settled t.verdicts f = true

theorem Anchored.later (anchored : Anchored rt w) (later : Later w t) : Anchored rt t :=
  anchored.imp later.stays fun recorded => recorded.grows later.grows

theorem laterSettle {status reasons} (undecided : status ≠ .emitted) : Later w { w with verdicts := settle fixture status reasons w.verdicts } := by
  refine ⟨.refl _,fun before => ?_⟩
  rw [settledSettle undecided,before,Bool.or_true]

theorem parseFixtureLater (done : parseFixture rt files w fixture = .ok t) :
    Later w t := by
  have document : ∀ {value}, parseDocument rt fixture value w = .ok t → Later w t := by
    intro value done
    unfold parseDocument at done
    split at done
    · obtain ⟨evidence,added,rest⟩ := okOfBind done
      cases Except.ok.inj rest
      have grows := (addCandidateOk added).grows
      exact ⟨⟨grows.candidates,grows.issues⟩,id⟩
    · cases Except.ok.inj done
      exact ⟨⟨id,id⟩,id⟩
  unfold parseFixture at done
  split at done
  · cases Except.ok.inj done
    exact laterSettle (by decide)
  split at done
  · cases Except.ok.inj done
    exact laterSettle (by decide)
  split at done
  · split at done
    · cases done
    · cases Except.ok.inj done
      exact laterSettle (by decide)
    · obtain ⟨evidence,added,rest⟩ := okOfBind done
      cases Except.ok.inj rest
      exact ⟨(addCandidateOk added).grows,id⟩
  · split at done
    · cases Except.ok.inj done
      exact laterSettle (by decide)
    · cases done
    · exact document done
    · exact document done
    · cases Except.ok.inj done
      exact laterSettle (by decide)

theorem parseMetadata (done : parseFixture rt files w metadataFixture = .ok t) : Anchored rt t := by
  have readable : ".error.json".toList.isSuffixOf metadataFixture.toList = false ∧
      metadataFixture.toList.contains '#' = false := by
    decide +kernel
  unfold parseFixture at done
  simp only [readable.1,readable.2,Bool.false_eq_true,if_false,if_true] at done
  split at done
  · cases done
  · cases Except.ok.inj done
    refine .inl ?_
    rw [settledSettle (by decide),decide_eq_true rfl,Bool.true_or]
  · obtain ⟨evidence,added,rest⟩ := okOfBind done
    cases Except.ok.inj rest
    exact .inr (addCandidateOk added).recorded

variable {row : String × String}

theorem mapRowSound (sound : Sound rt files w)
    (done : mapRow rt lookup w row = .ok t) : Sound rt files t := by
  unfold mapRow at done
  split at done
  · obtain ⟨evidence,added,rest⟩ := okOfBind done
    cases Except.ok.inj rest
    exact ⟨sound.grounded.added (addCandidateOk added) (by decide),sound.opened⟩
  · cases Except.ok.inj done
    exact ⟨sound.grounded,sound.opened.report _⟩

theorem mapRowLater (done : mapRow rt lookup w row = .ok t) :
    Later w t := by
  unfold mapRow at done
  split at done
  · obtain ⟨evidence,added,rest⟩ := okOfBind done
    cases Except.ok.inj rest
    exact ⟨(addCandidateOk added).grows,id⟩
  · cases Except.ok.inj done
    exact ⟨.refl _,id⟩

theorem mapRowRecorded {only} (matched : bucket lookup (rt.casefold row.2) = [only])
    (done : mapRow rt lookup w row = .ok t) : Recorded rt only .explicitRouteMap row.1 t.evidence := by
  unfold mapRow at done
  rw [matched] at done
  obtain ⟨evidence,added,rest⟩ := okOfBind done
  cases Except.ok.inj rest
  exact (addCandidateOk added).recorded

structure Walked (rt : Runtime) (files : List (String × Bytes)) (e later : Evidence) : Prop where
  parsed : later.parsed = e.parsed
  grows : Grows e later
  grounded : Grounded rt files e → Grounded rt files later

theorem Walked.refl (e : Evidence) : Walked rt files e e := ⟨rfl,.refl e,id⟩

theorem Walked.trans {a b c} (first : Walked rt files a b) (second : Walked rt files b c) :
    Walked rt files a c :=
  ⟨second.parsed.trans first.parsed,first.grows.trans second.grows,second.grounded ∘ first.grounded⟩

variable {e later : Evidence}

theorem Added.walked {raw source} (added : Added rt fixture source raw e later)
    (other : source ≠ .topLevelOdataId) : Walked rt files e later :=
  ⟨added.parsed,added.grows,fun grounded => grounded.added added other⟩

theorem anchorRootWalked (done : anchorRoot rt lookup e = .ok later) :
    Walked rt files e later := by
  unfold anchorRoot at done
  split at done
  · exact (addCandidateOk done).walked (by decide)
  · cases Except.ok.inj done
    exact .refl e

theorem anchorRootRecorded {only} (matched : rootMatches lookup = [only])
    (done : anchorRoot rt lookup e = .ok later) :
    Recorded rt only .serviceRootAnchor serviceRoot later := by
  unfold anchorRoot at done
  rw [matched] at done
  exact (addCandidateOk done).recorded

variable {visited : List String} {found next : Evidence × List String}

theorem followLinkWalked {route} (done : followLink rt lookup visited found route = .ok next) :
    Walked rt files found.1 next.1 := by
  unfold followLink at done
  split at done
  · obtain ⟨evidence,added,rest⟩ := okOfBind done
    cases Except.ok.inj rest
    exact (addCandidateOk added).walked (by decide)
  · cases Except.ok.inj done
    exact .refl _

theorem followAllWalked {routes : List String}
    (done : routes.foldlM (followLink rt lookup visited) found = .ok next) :
    Walked rt files found.1 next.1 :=
  foldlMKeeps (I := fun s => Walked rt files found.1 s.1)
    (fun _ _ _ _ walked step => walked.trans (followLinkWalked step)) (.refl _) done

theorem followLinksWalked {rounds : Nat} {queue}
    (done : followLinks rt lookup rounds queue visited e = .ok later) : Walked rt files e later := by
  induction rounds generalizing queue visited e with
  | zero =>
    cases Except.ok.inj done
    exact .refl _
  | succ rounds ih =>
    rw [followLinks] at done
    split at done
    · cases Except.ok.inj done
      exact .refl _
    split at done
    · exact ih done
    · obtain ⟨routes,-,rest⟩ := okOfBind done
      obtain ⟨found,links,later⟩ := okOfBind rest
      exact (followAllWalked links).trans (ih later)

def unvisited (parsed : List (String × Json)) (visited : List String) : Nat :=
  ((keys parsed).filter fun f => !visited.contains f).length

theorem unvisitedLess {parsed} (document : (parsed.lookup fixture).isNone = false)
    (fresh : visited.contains fixture = false) :
    unvisited parsed (fixture::visited) < unvisited parsed visited := by
  have smaller : (keys parsed).filter (fun f => !(fixture::visited).contains f) =
      ((keys parsed).filter fun f => !visited.contains f).filter (· ≠ fixture) := by
    simp
  rw [unvisited,smaller,unvisited,List.length_filter_lt_length_iff_exists]
  have inside : fixture ∈ keys parsed := by
    by_contra outside
    rw [lookupNone.mpr outside] at document
    simp at document
  exact ⟨fixture,List.mem_filter.mpr ⟨inside,by rw [fresh]; rfl⟩,by simp⟩

theorem mapRowsRecorded {rows : List (String × String)}
    (done : rows.foldlM (mapRow rt lookup) w = .ok t) : ∀ row ∈ rows, ∀ only,
      bucket lookup (rt.casefold row.2) = [only] → Recorded rt only .explicitRouteMap row.1 t.evidence := by
  refine foldlMEach (P := fun row t => ∀ only, bucket lookup (rt.casefold row.2) = [only] →
    Recorded rt only .explicitRouteMap row.1 t.evidence) ?_ ?_ done
  · intro s row t _ step only matched
    exact mapRowRecorded matched step
  · intro s row t other step kept only matched
    exact (kept only matched).grows (mapRowLater step).grows

structure Gathered (rt : Runtime) (files : List (String × Bytes)) (routeMap : List (String × String))
    (w : Work) : Prop where
  sound : Sound rt files w
  mapped : ∀ {row only}, row ∈ routeMap →
    bucket (fixtureLookup rt (fixtureNames files)) (rt.casefold row.2) = [only] →
    Recorded rt only .explicitRouteMap row.1 w.evidence
  root : ∀ {only}, rootMatches (fixtureLookup rt (fixtureNames files)) = [only] →
    Recorded rt only .serviceRootAnchor serviceRoot w.evidence
  metadata : metadataFixture ∈ fixtureNames files → Anchored rt w

theorem gathered {routeMap : List (String × String)}
    (done : gather rt files routeMap = .ok w) : Gathered rt files routeMap w := by
  obtain ⟨parsed,parsing,rest⟩ := okOfBind done
  obtain ⟨mapped,mapping,rest⟩ := okOfBind rest
  obtain ⟨anchored,anchoring,rest⟩ := okOfBind rest
  obtain ⟨evidence,walking,rest⟩ := okOfBind rest
  cases Except.ok.inj rest
  have start : Sound rt files ⟨⟨[],[],[]⟩,⟨[],[],foldedConflicts rt (fixtureNames files)⟩⟩ :=
    ⟨⟨fun mem => (nomatch mem),fun mem => (nomatch mem),fun found => (nomatch found),
      fun found => (nomatch found)⟩,⟨fun before => (nomatch before),fun found => (nomatch found),
      fun found => (nomatch found),fun mem => (nomatch mem)⟩⟩
  have afterParsing : Sound rt files parsed :=
    foldlMKeeps (fun _ _ _ named sound step => parseFixtureSound named sound step) start parsing
  have afterMapping : Sound rt files mapped :=
    foldlMKeeps (fun _ _ _ _ sound step => mapRowSound sound step) afterParsing mapping
  have afterAnchor : Walked rt files mapped.evidence anchored := anchorRootWalked anchoring
  have walked : Walked rt files anchored evidence := followLinksWalked walking
  have rows := mapRowsRecorded mapping
  have metadata :=
    foldlMEach (P := fun fixture w => fixture = metadataFixture → Anchored rt w)
      (fun _ _ _ _ step same => parseMetadata (same ▸ step))
      (fun _ _ _ _ step kept same => (kept same).later (parseFixtureLater step)) parsing
  have anchoredRows : Anchored rt parsed → Anchored rt mapped := fun start =>
    foldlMKeeps (fun _ _ _ _ kept step => Anchored.later kept (mapRowLater step)) start mapping
  refine ⟨⟨walked.grounded (afterAnchor.grounded afterMapping.grounded),afterMapping.opened⟩,
    fun mem matched => ?_,fun matched => (anchorRootRecorded matched anchoring).grows walked.grows,
    fun named => ?_⟩
  · exact (rows _ ((List.mem_insertionSort _).mpr mem) _ matched).grows
      (afterAnchor.grows.trans walked.grows)
  · exact (anchoredRows (metadata _ named rfl)).later ⟨afterAnchor.grows.trans walked.grows,id⟩

end

end RedfishCtl.CorpusTree
