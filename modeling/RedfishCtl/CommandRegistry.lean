import RedfishCtl.PyText

/-! The registry that a manager sees, the dispatcher's search, and the command line. A method
resolution order is the list of its classes' own `_registry`, the most derived class first. -/
namespace RedfishCtl.CommandRegistry
open AssocList

structure Registry (κ γ : Type) where
  buckets : List (κ × List (String × γ))
  distinct : Distinct buckets
  names : ∀ b ∈ buckets, Distinct b.2

abbrev Order (κ γ : Type) := List (Option (Registry κ γ))
abbrev Merged (κ γ : Type) := List (κ × List (String × γ))

section
variable {κ γ : Type} [DecidableEq κ]

def find (merged : Merged κ γ) (type : κ) (name : String) : Option γ :=
  (merged.lookup type).bind (·.lookup name)

def mergeBucket (merged : Merged κ γ) (b : κ × List (String × γ)) : Merged κ γ :=
  insert b.1 (update ((merged.lookup b.1).getD []) b.2) merged

def mergeRegistry (merged : Merged κ γ) : Option (Registry κ γ) → Merged κ γ
  | none => merged
  | some registry => registry.buckets.foldl mergeBucket merged

def getRegistry (mro : Order κ γ) : Merged κ γ := mro.reverse.foldl mergeRegistry []

def own (registry : Option (Registry κ γ)) (type : κ) (name : String) : Option γ :=
  registry.bind fun r => find r.buckets type name

def resolveCommand (mro : Order κ γ) (type : κ) (name : String) : Except PyError γ :=
  match mro.findSome? fun registry => own registry type name with
  | some command => .ok command
  | none => .error (.other "UnsupportedAction" s!"Unknown {name} command.")

theorem findBuckets {buckets} (distinct : Distinct buckets) (names : ∀ b ∈ buckets, Distinct b.2)
    (merged : Merged κ γ) (type : κ) (name : String) :
    find (buckets.foldl mergeBucket merged) type name =
      (find buckets type name).or (find merged type name) := by
  induction buckets generalizing merged with
  | nil => rfl
  | cons b rest ih =>
    obtain ⟨fresh,tail⟩ := List.nodup_cons.mp distinct
    rw [List.foldl_cons,ih tail fun c mem => names c (List.mem_cons_of_mem b mem)]
    rw [find,find,find,find,mergeBucket,lookupInsert,lookupCons]
    by_cases same : type = b.1
    · subst same
      rw [if_pos rfl,lookupNone.mpr fresh]
      simp only [Option.bind_none,Option.none_or,Option.bind_some,
        lookupUpdate (names b List.mem_cons_self)]
      cases merged.lookup b.1 with
      | none => rfl
      | some old => rfl
    · rw [if_neg same,if_neg same]

theorem getRegistryCons (registry : Option (Registry κ γ)) (mro : Order κ γ) :
    getRegistry (registry::mro) = mergeRegistry (getRegistry mro) registry := by
  rw [getRegistry,List.reverse_cons,List.foldl_append]
  rfl

variable (mro : Order κ γ)

theorem findRegistry (type : κ) (name : String) :
    find (getRegistry mro) type name = mro.findSome? fun registry => own registry type name := by
  induction mro with
  | nil => rfl
  | cons registry rest ih =>
    rw [getRegistryCons,List.findSome?_cons]
    cases registry with
    | none => exact ih
    | some r =>
      rw [mergeRegistry,findBuckets r.distinct r.names,ih,own,Option.bind_some]
      cases find r.buckets type name with
      | none => rfl
      | some command => rfl

theorem registryAgrees (mro : Order κ γ) (type : κ) (name : String) :
    ((getRegistry mro).lookup type).bind (·.lookup name) = (resolveCommand mro type name).toOption := by
  have same := findRegistry mro type name
  rw [find] at same
  rw [same,resolveCommand]
  cases mro.findSome? fun registry => own registry type name with
  | none => rfl
  | some command => rfl

def grow {α : Type} [DecidableEq α] (seen : List α) (a : α) : List α :=
  if a ∈ seen then seen else seen ++ [a]

def firsts {α : Type} [DecidableEq α] (l : List α) : List α := l.foldl grow []

def namesOf (registry : Option (Registry κ γ)) (type : κ) : List String :=
  registry.elim [] fun r => keys ((r.buckets.lookup type).getD [])

/- The commands a manager sees from the base up, types and names in the order of first appearance. -/
def appearance (mro : Order κ γ) : List (κ × String) :=
  (firsts (mro.reverse.flatMap fun r => r.elim [] fun r => keys r.buckets)).flatMap fun type =>
    (firsts (mro.reverse.flatMap fun r => namesOf r type)).map (type,·)

/- The command line's tree: `verb` is what `register_subcommand` returns, where the class has it. -/
def createCmdTree (verb : γ → Option String) (mro : Order κ γ) : List (String × (κ × String)) :=
  (getRegistry mro).foldl (fun resolved b => b.2.foldl (fun resolved p =>
    match verb p.2 with
    | none => resolved
    | some cmdName => insert cmdName (b.1,p.1) resolved) resolved) []

def Claims (verb : γ → Option String) (mro : Order κ γ) (v : String) (level : Nat) : Prop :=
  ∃ registry, mro[level]? = some registry ∧
    ∃ type name command, own registry type name = some command ∧ verb command = some v

def Supplies (mro : Order κ γ) (level : Nat) (key : κ × String) : Prop :=
  (∃ registry, mro[level]? = some registry ∧ (own registry key.1 key.2).isSome) ∧
    ∀ above < level, ∀ registry, mro[above]? = some registry → own registry key.1 key.2 = none

def Shows (verb : γ → Option String) (mro : Order κ γ) (v : String) (key : κ × String) : Prop :=
  (mro.findSome? fun registry => own registry key.1 key.2).bind verb = some v
instance (verb : γ → Option String) (mro : Order κ γ) (v : String) (key : κ × String) :
    Decidable (Shows verb mro v key) := inferInstanceAs (Decidable (_ = _))

def VerbWins (verb : γ → Option String) (mro : Order κ γ) (v : String) : Prop :=
  ∀ level below, Claims verb mro v level → (∀ above < level, ¬Claims verb mro v above) →
    level < below → Claims verb mro v below →
      ∃ key, (createCmdTree verb mro).lookup v = some key ∧ Supplies mro level key

variable {α : Type}

theorem keysFold {β} [DecidableEq α] (e : List (α × β)) (d : List (α × β))
    (f : List (α × β) → α × β → β) :
    keys (e.foldl (fun d p => insert p.1 (f d p) d) d) = (keys e).foldl grow (keys d) := by
  induction e generalizing d with
  | nil => rfl
  | cons p rest ih =>
    rw [List.foldl_cons,ih,keysInsert]
    rfl

theorem growNodup [DecidableEq α] (l : List α) {seen} (nodup : seen.Nodup) :
    (l.foldl grow seen).Nodup := by
  induction l generalizing seen with
  | nil => exact nodup
  | cons a rest ih =>
    apply ih
    rw [grow]
    split
    · exact nodup
    · next fresh =>
      rw [← List.concat_eq_append]
      exact (List.nodup_concat seen a).mpr ⟨fresh,nodup⟩

theorem keysRegistry : keys (getRegistry mro) =
    firsts (mro.reverse.flatMap fun r => r.elim [] fun r => keys r.buckets) := by
  rw [firsts,List.foldl_flatMap]
  induction mro with
  | nil => rfl
  | cons registry rest ih =>
    rw [getRegistryCons,List.reverse_cons,List.foldl_append,← ih]
    cases registry with
    | none => rfl
    | some r => exact keysFold r.buckets _ fun merged b => update ((merged.lookup b.1).getD []) b.2

theorem namesBuckets {buckets} (distinct : Distinct buckets) (merged : Merged κ γ) (type : κ) :
    keys (((buckets.foldl mergeBucket merged).lookup type).getD []) =
      (keys ((buckets.lookup type).getD [])).foldl grow (keys ((merged.lookup type).getD [])) := by
  induction buckets generalizing merged with
  | nil => rfl
  | cons b rest ih =>
    obtain ⟨fresh,tail⟩ := List.nodup_cons.mp distinct
    rw [List.foldl_cons,ih tail,mergeBucket,lookupInsert,lookupCons]
    by_cases same : type = b.1
    · subst same
      rw [if_pos rfl,if_pos rfl,lookupNone.mpr fresh]
      exact keysFold b.2 _ fun _ p => p.2
    · rw [if_neg same,if_neg same]

theorem namesRegistry (type : κ) :
    keys (((getRegistry mro).lookup type).getD []) =
      firsts (mro.reverse.flatMap fun r => namesOf r type) := by
  rw [firsts,List.foldl_flatMap]
  induction mro with
  | nil => rfl
  | cons registry rest ih =>
    rw [getRegistryCons,List.reverse_cons,List.foldl_append,← ih]
    cases registry with
    | none => rfl
    | some r => exact namesBuckets r.distinct _ type

theorem registryDistinct : Distinct (getRegistry mro) := by
  rw [Distinct,keysRegistry]
  exact growNodup _ List.nodup_nil

theorem appearanceNodup : (appearance mro).Nodup := by
  rw [appearance,List.nodup_flatMap]
  refine ⟨fun type _ => ?_,?_⟩
  · exact (growNodup _ List.nodup_nil).map fun a b same => congrArg Prod.snd same
  · refine (growNodup _ List.nodup_nil).imp fun {s t} differ key left right => ?_
    obtain ⟨_,_,rfl⟩ := List.mem_map.mp left
    obtain ⟨_,_,same⟩ := List.mem_map.mp right
    exact differ (congrArg Prod.fst same).symm

theorem treeAppearance (verb : γ → Option String) (mro : Order κ γ) : createCmdTree verb mro =
    (appearance mro).foldl (fun resolved key =>
      match (find (getRegistry mro) key.1 key.2).bind verb with
      | none => resolved
      | some cmdName => insert cmdName key resolved) [] := by
  have distinct := registryDistinct mro
  have named : ∀ b ∈ getRegistry mro, (getRegistry mro).lookup b.1 = some b.2 :=
    fun b mem => lookupOfMem distinct mem
  have inner : ∀ b ∈ getRegistry mro, Distinct b.2 := by
    intro b mem
    have all := namesRegistry mro b.1
    rw [named b mem,Option.getD_some] at all
    rw [Distinct,all]
    exact growNodup _ List.nodup_nil
  rw [appearance,← keysRegistry,List.foldl_flatMap,keys,List.foldl_map]
  refine List.foldl_ext _ _ _ fun resolved b mem => ?_
  rw [← namesRegistry,named b mem,keys,List.map_map,List.foldl_map]
  refine List.foldl_ext _ _ _ fun resolved p held => ?_
  simp [find,named b mem,lookupOfMem (inner b mem) held]

theorem lastLookup (claim : α → Option String) (v : String) (l : List α)
    (d : List (String × α)) : (l.foldl (fun resolved key =>
      match claim key with
      | none => resolved
      | some cmdName => insert cmdName key resolved) d).lookup v =
        (l.reverse.find? fun key => claim key = some v).or (d.lookup v) := by
  induction l generalizing d with
  | nil => rfl
  | cons key rest ih =>
    rw [List.foldl_cons,ih,List.reverse_cons,List.find?_append]
    cases named : claim key with
    | none => simp [named]
    | some cmdName =>
      by_cases same : v = cmdName
      · simp [named,same]
      · simp [named,same,Ne.symm same]

theorem lastPlace [BEq α] [LawfulBEq α] {l : List α} (nodup : l.Nodup) (shows : α → Bool)
    (good : α → Prop) : (∃ key, l.reverse.find? shows = some key ∧ good key) ↔
      ∃ key ∈ l, shows key ∧ good key ∧
        ∀ other ∈ l, shows other → ¬good other → l.idxOf other < l.idxOf key := by
  have last : ∀ {key}, l.reverse.find? shows = some key →
      key ∈ l ∧ shows key ∧ ∀ other ∈ l, shows other → other ≠ key → l.idxOf other < l.idxOf key := by
    intro key found
    obtain ⟨holds,after,before,split,none⟩ := List.find?_eq_some_iff_append.mp found
    have whole : l = before.reverse ++ key::after.reverse := by
      rw [← List.reverse_reverse l,split]
      simp
    have fresh : key ∉ before.reverse := by
      rw [whole] at nodup
      exact fun mem => (List.nodup_append.mp nodup).2.2 key mem key List.mem_cons_self rfl
    refine ⟨by simp [whole],holds,fun other mem shown differ => ?_⟩
    have early : other ∈ before.reverse := by
      rw [whole,List.mem_append,List.mem_cons] at mem
      obtain early | rfl | late := mem
      · exact early
      · exact absurd rfl differ
      · have hidden := none other (List.mem_reverse.mp late)
        simp [shown] at hidden
    rw [whole,List.idxOf_append_of_mem early,List.idxOf_append_of_notMem fresh]
    exact Nat.lt_add_right _ (List.idxOf_lt_length_of_mem early)
  constructor
  · rintro ⟨key,found,held⟩
    obtain ⟨mem,shown,most⟩ := last found
    refine ⟨key,mem,shown,held,fun other there seen bad => most other there seen ?_⟩
    rintro rfl
    exact bad held
  · rintro ⟨key,mem,shown,held,least⟩
    obtain ⟨top,found⟩ : ∃ top, l.reverse.find? shows = some top :=
      Option.isSome_iff_exists.mp (List.find?_isSome.mpr ⟨key,List.mem_reverse.mpr mem,shown⟩)
    obtain ⟨there,seen,most⟩ := last found
    refine ⟨top,found,?_⟩
    by_contra bad
    have below := least top there seen bad
    have above := most key mem shown fun same => bad (same ▸ held)
    omega

/- A verb goes to the most derived level that claims it iff one of that level's commands appears
after every command with the verb of another level. -/
theorem vendorVerb (verb : γ → Option String) (mro : Order κ γ) (v : String) :
    VerbWins verb mro v ↔ ∀ level below, Claims verb mro v level →
      (∀ above < level, ¬Claims verb mro v above) → level < below → Claims verb mro v below →
        ∃ key ∈ appearance mro, Shows verb mro v key ∧ Supplies mro level key ∧
          ∀ other ∈ appearance mro, Shows verb mro v other → ¬Supplies mro level other →
            (appearance mro).idxOf other < (appearance mro).idxOf key := by
  have bound : ∀ level, (∃ key, (createCmdTree verb mro).lookup v = some key ∧
      Supplies mro level key) ↔ ∃ key ∈ appearance mro, Shows verb mro v key ∧
        Supplies mro level key ∧ ∀ other ∈ appearance mro, Shows verb mro v other →
          ¬Supplies mro level other → (appearance mro).idxOf other < (appearance mro).idxOf key := by
    intro level
    have place := lastPlace (appearanceNodup mro) (fun key => decide (Shows verb mro v key))
      (Supplies mro level)
    simp only [decide_eq_true_eq] at place
    rw [← place,treeAppearance,lastLookup]
    simp only [List.lookup_nil,Option.or_none,findRegistry]
    rfl
  unfold VerbWins
  simp only [bound]

end

def baseClass : Registry String (String × Option String) :=
  ⟨[("A",[("x",("C0",none))]),("B",[("b",("C1",some "v"))])],by decide,by decide⟩
def vendorClass : Registry String (String × Option String) :=
  ⟨[("A",[("a",("C2",some "v"))])],by decide,by decide⟩

theorem baseVerbKept : ¬VerbWins Prod.snd [some vendorClass,some baseClass] "v" := by
  intro wins
  obtain ⟨key,bound,⟨registry,at0,owned⟩,_⟩ := wins 0 1
    ⟨some vendorClass,rfl,"A","a",("C2",some "v"),rfl,rfl⟩ (fun above low => absurd low (by omega))
    Nat.one_pos ⟨some baseClass,rfl,"B","b",("C1",some "v"),rfl,rfl⟩
  have kept : (createCmdTree Prod.snd [some vendorClass,some baseClass]).lookup "v" =
    some ("B","b") := by decide
  rw [kept,Option.some.injEq] at bound
  rw [← bound,← Option.some.inj at0] at owned
  exact absurd owned (by decide)

end RedfishCtl.CommandRegistry
