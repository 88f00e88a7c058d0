import RedfishCtl.CorpusTreeClaims

/-! What the walk along the links of an archive expands: a fixture taken from the queue for the
first time, with a document and candidates that agree on one route. -/
namespace RedfishCtl.CorpusTree
open AssocList Buckets
open Stateful (okOfBind)

/- The state of the walk, with the expanded fixtures and what each has put into the queue. -/
structure LinkWalk where
  queue : List String
  visited : List String
  evidence : Evidence
  expanded : List (String × List String)

section
variable (rt : Runtime) (lookup : List (String × List String))

/- One round: the entries that need no visit are passed over, and the next one is visited. -/
def linkStep (w : LinkWalk) : Except PyError LinkWalk :=
  match w.queue.dropWhile fun f => w.visited.contains f || (w.evidence.parsed.lookup f).isNone with
  | [] => .ok { w with queue := [] }
  | fixture::rest =>
      if (agreedRoute (bucket w.evidence.candidates fixture)).isNone then
        .ok { w with queue := rest, visited := fixture::w.visited }
      else do
        let routes ← linkedRoutes rt (iterOdataIds ((w.evidence.parsed.lookup fixture).getD .null)).dedup
        let found ← (sortedSet routes).foldlM (followLink rt lookup (fixture::w.visited)) (w.evidence,[])
        .ok ⟨rest ++ found.2,fixture::w.visited,found.1,(fixture,found.2)::w.expanded⟩

def linkRun : Nat → LinkWalk → Except PyError LinkWalk
  | 0, w => .ok w
  | n+1, w => do linkRun n (← linkStep rt lookup w)

def linkStart (e : Evidence) : LinkWalk := ⟨rootMatches lookup,[],e,[]⟩

def target (route : String) : Option String :=
  match bucket lookup (rt.casefold (forwardFilename route ".json")) with
  | [fixture] => some fixture
  | _ => none

section
variable (parsed : List (String × Json))

/- The fixtures that the distinct canonical links of a fixture name, one for each link. -/
def targets (fixture : String) : List String :=
  match linkedRoutes rt (iterOdataIds ((parsed.lookup fixture).getD .null)).dedup with
  | .ok routes => (sortedSet routes).filterMap (target rt lookup)
  | .error _ => []

/- From a fixture of the service root through the links of expanded fixtures. -/
inductive Linked (expanded : List (String × List String)) : String → Prop where
  | root {f} (mem : f ∈ rootMatches lookup) : Linked expanded f
  | link {x f} (mem : x ∈ expanded) (reached : Linked expanded x.1)
      (linked : f ∈ targets rt lookup parsed x.1) : Linked expanded f

structure Frugal (w : LinkWalk) : Prop where
  still : w.evidence.parsed = parsed
  once : (keys w.expanded).Nodup
  visited : ∀ x ∈ w.expanded, x.1 ∈ w.visited
  reached : ∀ x ∈ w.expanded, Linked rt lookup parsed w.expanded x.1
  waiting : ∀ f ∈ w.queue, Linked rt lookup parsed w.expanded f
  enqueued : ∀ x ∈ w.expanded, x.2.Sublist (targets rt lookup parsed x.1)

end
end

section
variable {rt : Runtime} {lookup : List (String × List String)} {parsed : List (String × Json)}
variable {w v : LinkWalk}

theorem enqueuedTargets {visited found next} {routes : List String}
    (done : routes.foldlM (followLink rt lookup visited) found = .ok next) :
    ∃ more, next.2 = found.2 ++ more ∧ more.Sublist (routes.filterMap (target rt lookup)) := by
  induction routes generalizing found with
  | nil =>
    cases Except.ok.inj done
    exact ⟨[],by simp,.slnil⟩
  | cons route rest ih =>
    obtain ⟨mid,step,later⟩ := okOfBind done
    obtain ⟨more,whole,among⟩ := ih later
    rw [whole,List.filterMap_cons]
    unfold followLink at step
    split at step
    · rename_i only matched
      obtain ⟨evidence,-,step⟩ := okOfBind step
      cases Except.ok.inj step
      have own : target rt lookup route = some only := by rw [target,matched]
      rw [own]
      split
      · exact ⟨more,rfl,among.cons _⟩
      · exact ⟨only::more,by simp,among.cons_cons _⟩
    · cases Except.ok.inj step
      refine ⟨more,rfl,?_⟩
      split
      · exact among
      · exact among.cons _

theorem stepCases (done : linkStep rt lookup w = .ok v) : v = { w with queue := [] } ∨
    ∃ skipped fixture rest more, w.queue = skipped ++ fixture::rest ∧ v.queue = rest ++ more ∧
      w.visited.contains fixture = false ∧ (w.evidence.parsed.lookup fixture).isNone = false ∧
      v.visited = fixture::w.visited ∧ v.evidence.parsed = w.evidence.parsed ∧
      (more = [] ∧ v.expanded = w.expanded ∨
        more.Sublist (targets rt lookup w.evidence.parsed fixture) ∧
          v.expanded = (fixture,more)::w.expanded) := by
  unfold linkStep at done
  set passed := fun f => w.visited.contains f || (w.evidence.parsed.lookup f).isNone
  have stops := List.head?_dropWhile_not passed w.queue
  have whole := @List.takeWhile_append_dropWhile _ passed w.queue
  split at done
  · exact .inl (Except.ok.inj done).symm
  rename_i fixture rest waiting
  rw [waiting] at stops
  rw [waiting] at whole
  obtain ⟨fresh,document⟩ := Bool.or_eq_false_iff.mp stops
  refine .inr ⟨w.queue.takeWhile passed,fixture,rest,?_⟩
  split at done
  · cases Except.ok.inj done
    exact ⟨[],whole.symm,by simp,fresh,document,rfl,rfl,.inl ⟨rfl,rfl⟩⟩
  obtain ⟨routes,linked,done⟩ := okOfBind done
  obtain ⟨found,followed,done⟩ := okOfBind done
  cases Except.ok.inj done
  obtain ⟨more,only,among⟩ := enqueuedTargets followed
  have walked : Walked rt [] w.evidence found.1 := followAllWalked followed
  rw [List.nil_append] at only
  refine ⟨more,whole.symm,by rw [only],fresh,document,rfl,walked.parsed,.inr ⟨?_,by rw [only]⟩⟩
  rwa [targets,linked]

theorem Linked.mono {few many} (more : ∀ x ∈ few, x ∈ many) {f}
    (linked : Linked rt lookup parsed few f) : Linked rt lookup parsed many f := by
  induction linked with
  | root mem => exact .root mem
  | link mem _ linked ih => exact .link (more _ mem) ih linked

theorem frugalStep (frugal : Frugal rt lookup parsed w) (done : linkStep rt lookup w = .ok v) :
    Frugal rt lookup parsed v := by
  obtain ⟨own,once,seen,reached,waiting,enqueued⟩ := frugal
  obtain rfl | ⟨skipped,fixture,rest,more,before,after,fresh,-,visited,same,expand⟩ := stepCases done
  · exact ⟨own,once,seen,reached,nofun,enqueued⟩
  have here := waiting fixture (by simp [before])
  have later : ∀ f ∈ rest, Linked rt lookup parsed w.expanded f :=
    fun f mem => waiting f (by simp [before,mem])
  have marked : ∀ x ∈ w.expanded, x.1 ∈ v.visited :=
    fun x mem => visited ▸ List.mem_cons_of_mem _ (seen x mem)
  obtain ⟨rfl,log⟩ | ⟨among,log⟩ := expand
  · rw [List.append_nil] at after
    exact ⟨same.trans own,log ▸ once,log ▸ marked,log ▸ reached,by rwa [after,log],log ▸ enqueued⟩
  rw [own] at among
  have new : fixture ∉ keys w.expanded := fun known => by
    obtain ⟨x,mem,rfl⟩ := List.mem_map.mp known
    simp [seen x mem] at fresh
  have wider {f} (linked : Linked rt lookup parsed w.expanded f) :
      Linked rt lookup parsed v.expanded f :=
    linked.mono fun _ mem => log ▸ List.mem_cons_of_mem _ mem
  refine ⟨same.trans own,?_,?_,?_,fun f mem => ?_,?_⟩
  · rw [log]
    exact List.nodup_cons.mpr ⟨new,once⟩
  · rw [log]
    exact List.forall_mem_cons.mpr ⟨visited ▸ List.mem_cons_self,marked⟩
  · intro x mem
    rw [log] at mem
    rcases List.mem_cons.mp mem with rfl | mem
    · exact wider here
    · exact wider (reached x mem)
  · rw [after] at mem
    rcases List.mem_append.mp mem with mem | mem
    · exact wider (later f mem)
    · exact .link (log ▸ List.mem_cons_self) (wider here) (among.subset mem)
  · rw [log]
    exact List.forall_mem_cons.mpr ⟨among,enqueued⟩

theorem frugalRun {n} (frugal : Frugal rt lookup parsed w) (done : linkRun rt lookup n w = .ok v) :
    Frugal rt lookup parsed v := by
  induction n generalizing w with
  | zero =>
    cases Except.ok.inj done
    exact frugal
  | succ n ih =>
    obtain ⟨mid,step,later⟩ := okOfBind done
    exact ih (frugalStep frugal step) later

theorem runEmpty (n : Nat) (none : w.queue = []) : linkRun rt lookup n w = .ok w := by
  have still : linkStep rt lookup w = .ok w := by
    rw [linkStep,none]
    exact congrArg Except.ok (congrArg (LinkWalk.mk · _ _ _) none.symm)
  induction n with
  | zero => rfl
  | succ n ih =>
    rw [linkRun,still]
    exact ih

theorem runFollows (n : Nat) : (linkRun rt lookup n w).map LinkWalk.evidence =
    followLinks rt lookup n w.queue w.visited w.evidence := by
  induction n generalizing w with
  | zero => rfl
  | succ n ih =>
    rw [linkRun,linkStep,followLinks]
    cases w.queue.dropWhile fun f => w.visited.contains f || (w.evidence.parsed.lookup f).isNone with
    | nil => exact congrArg (Except.map LinkWalk.evidence) (runEmpty n rfl)
    | cons fixture rest =>
      dsimp only
      split
      · exact ih
      simp only [bind,Except.bind]
      cases linkedRoutes rt _ with
      | error err => rfl
      | ok routes =>
        dsimp only
        cases (sortedSet routes).foldlM (followLink rt lookup (fixture::w.visited)) (w.evidence,[]) with
        | error err => rfl
        | ok found => exact ih

/- Every round but the last visits a fixture with a document for the first time. -/
theorem runEnds {n} (enough : unvisited w.evidence.parsed w.visited < n)
    (done : linkRun rt lookup n w = .ok v) : v.queue = [] := by
  induction n generalizing w with
  | zero => exact absurd enough (Nat.not_lt_zero _)
  | succ n ih =>
    obtain ⟨u,step,rest⟩ := okOfBind done
    obtain rfl | ⟨-,fixture,-,-,-,-,fresh,document,visited,same,-⟩ := stepCases step
    · rw [runEmpty n rfl] at rest
      cases Except.ok.inj rest
      rfl
    · have less := unvisitedLess document fresh
      exact ih (by rw [same,visited]; omega) rest

end

theorem linkWalkLinear (rt : Runtime) (lookup : List (String × List String)) (e : Evidence) :
    (linkRun rt lookup (e.parsed.length+1) (linkStart lookup e)).map LinkWalk.evidence =
      followLinks rt lookup (e.parsed.length+1) (rootMatches lookup) [] e ∧
    (∀ w, linkRun rt lookup (e.parsed.length+1) (linkStart lookup e) = .ok w → w.queue = []) ∧
    ∀ n w, linkRun rt lookup n (linkStart lookup e) = .ok w → Frugal rt lookup e.parsed w := by
  have start : Frugal rt lookup e.parsed (linkStart lookup e) :=
    ⟨rfl,List.nodup_nil,nofun,nofun,fun _ => .root,nofun⟩
  refine ⟨runFollows _,fun w => runEnds (Nat.lt_succ_of_le ?_),fun n w => frugalRun start⟩
  exact (List.length_filter_le _ _).trans_eq (List.length_map _)

end RedfishCtl.CorpusTree
