import RedfishCtl.JsonSet
import RedfishCtl.MockConfined

/-! Overlays as documents. As long as every dictionary has one place, a write through the
references changes the document of one overlay at one path and nothing else. -/
namespace RedfishCtl.MockOverlay
open AssocList
open Heap (Reach)
open Json (setAt)
open Entries (refs viewWith viewWithLookup)

/- Under these keys of a resource's overlay, in or below a list, where no transition writes, or in
no overlay. -/
inductive Place where
  | overlay (resource : String) (keys : List String)
  | list
  | outside
  deriving DecidableEq

def Fits (place : Nat → Place) (resource : String) (keys : List String) : PyVal → Prop
  | .dict r => place r = .overlay resource keys
  | v => ∀ r ∈ v.refs, place r = .list

structure Placed (place : Nat → Place) (h : Heap) : Prop where
  member : ∀ r resource keys, place r = .overlay resource keys →
    ∀ p ∈ h.cell r, Fits place resource (keys ++ [p.1]) p.2
  list : ∀ r, place r = .list → ∀ c ∈ refs (h.cell r), place c = .list
  known : ∀ r, ∀ c ∈ refs (h.cell r), c < h.size
  distinct : ∀ r, Distinct (h.cell r)

section
variable {place : Nat → Place} {h : Heap} {resource : String} {keys : List String}

variable {v : PyVal}

theorem fitsRefs (fits : Fits place resource keys v) {r} (inside : r ∈ v.refs) :
    place r = .overlay resource keys ∨ place r = .list := by
  cases v with
  | dict c =>
    have same : r = c := by simpa [PyVal.refs] using inside
    exact .inl (same ▸ fits)
  | list items => exact .inr (fits r inside)
  | _ => simp [PyVal.refs] at inside

theorem fitsPlain (plain : ∀ c, v ≠ .dict c) (inLists : ∀ r ∈ v.refs, place r = .list) :
    Fits place resource keys v := by
  cases v with
  | dict c => exact absurd rfl (plain c)
  | _ => exact inLists

variable {place' : Nat → Place}

theorem fitsCongr (same : ∀ r ∈ v.refs, place' r = place r) :
    Fits place' resource keys v ↔ Fits place resource keys v := by
  cases v with
  | dict c => simp only [Fits,same c (by simp [PyVal.refs])]
  | list items => exact forall₂_congr fun r inside => by rw [same r inside]
  | _ => exact forall₂_congr fun r inside => by rw [same r inside]

theorem fitsUpdate {n} (other : ∀ r ∈ v.refs, r ≠ n) (p : Place) :
    Fits (Function.update place n p) resource keys v ↔ Fits place resource keys v :=
  fitsCongr fun r inside => Function.update_of_ne (other r inside) p place

theorem reachPlace (placed : Placed place h) (fits : Fits place resource keys v) {r}
    (reached : Reach h v r) : (∃ more, place r = .overlay resource (keys ++ more)) ∨ place r = .list := by
  induction reached with
  | here direct =>
    exact (fitsRefs fits direct).imp_left fun same => ⟨[],by simpa using same⟩
  | there before inside ih =>
    cases ih with
    | inl some =>
      obtain ⟨more,same⟩ := some
      obtain ⟨p,mem,among⟩ := Entries.refsMem.mp inside
      refine (fitsRefs (placed.member _ _ _ same p mem) among).imp_left fun deeper => ?_
      exact ⟨more ++ [p.1],by rw [deeper,List.append_assoc]⟩
    | inr same => exact .inr (placed.list _ same _ inside)

theorem reachKnown (placed : Placed place h) (known : ∀ r ∈ v.refs, r < h.size) {r}
    (reached : Reach h v r) : r < h.size := by
  cases reached with
  | here direct => exact known r direct
  | there before inside => exact placed.known _ r inside

theorem viewPlace (placed : Placed place h) (fits : Fits place resource keys v)
    (known : ∀ r ∈ v.refs, r < h.size) {h' : Heap}
    (same : ∀ r < h.size, (∃ more, place r = .overlay resource (keys ++ more)) ∨ place r = .list →
      h'.cells[r]? = h.cells[r]?) : h'.view v = h.view v :=
  Heap.viewAgree fun r reached =>
    same r (reachKnown placed known reached) (reachPlace placed fits reached)

theorem entryKnown (placed : Placed place h) {r p} (mem : p ∈ h.cell r) : ∀ c ∈ p.2.refs, c < h.size :=
  fun c inside => placed.known r c (Entries.refsMem.mpr ⟨p,mem,inside⟩)

variable {cursor : Nat} {key : String}

theorem placedPut (placed : Placed place h)
    (here : place cursor = .overlay resource keys)
    (fits : Fits place resource (keys ++ [key]) v) (known : ∀ r ∈ v.refs, r < h.size) :
    Placed place (h.put cursor key v) := by
  have size : (h.put cursor key v).size = h.size := by simp [Heap.put,Heap.size]
  refine ⟨?_,?_,?_,?_⟩
  · intro r resource' keys' stands p mem
    obtain same | ⟨rfl,changed⟩ := cellPut h cursor key v r
    · exact placed.member r resource' keys' stands p (same ▸ mem)
    rw [changed] at mem
    obtain rfl | old := insertMem mem
    · obtain ⟨rfl,rfl⟩ := Place.overlay.inj (stands.symm.trans here)
      exact fits
    · exact placed.member r resource' keys' stands p old
  · intro r stands c inside
    obtain same | ⟨rfl,-⟩ := cellPut h cursor key v r
    · exact placed.list r stands c (same ▸ inside)
    · simp [here] at stands
  · intro r c inside
    rw [size]
    obtain same | ⟨rfl,changed⟩ := cellPut h cursor key v r
    · exact placed.known r c (same ▸ inside)
    rw [changed] at inside
    obtain ⟨p,mem,among⟩ := Entries.refsMem.mp inside
    obtain rfl | old := insertMem mem
    · exact known c among
    · exact entryKnown placed old c among
  · intro r
    obtain same | ⟨rfl,changed⟩ := cellPut h cursor key v r
    · exact same ▸ placed.distinct r
    · rw [changed]
      exact distinctInsert (placed.distinct r) key v

theorem placedAlloc (placed : Placed place h) (p : Place) :
    Placed (Function.update place h.size p) h.alloc.2 := by
  have emptyCell : h.cell h.size = [] := by simp [Heap.cell,Heap.size]
  have older : ∀ r, ∀ c ∈ refs (h.cell r), c ≠ h.size :=
    fun r c inside => Nat.ne_of_lt (placed.known r c inside)
  refine ⟨?_,?_,?_,?_⟩
  · intro r resource' keys' stands q mem
    rw [cellAlloc] at mem
    by_cases new : r = h.size
    · subst new
      simp [emptyCell] at mem
    · rw [Function.update_of_ne new] at stands
      refine (fitsUpdate (fun c inside => ?_) p).mpr (placed.member r resource' keys' stands q mem)
      exact older r c (Entries.refsMem.mpr ⟨q,mem,inside⟩)
  · intro r stands c inside
    rw [cellAlloc] at inside
    by_cases new : r = h.size
    · subst new
      simp [emptyCell,refs] at inside
    · rw [Function.update_of_ne new] at stands
      rw [Function.update_of_ne (older r c inside)]
      exact placed.list r stands c inside
  · intro r c inside
    rw [cellAlloc] at inside
    exact (placed.known r c inside).trans (by simp [Heap.alloc,Heap.size])
  · intro r
    rw [cellAlloc]
    exact placed.distinct r

structure Written (place place' : Nat → Place) (h h' : Heap) (resource : String)
    (keys parts : List String) : Prop where
  placed : Placed place' h'
  grows : h.size ≤ h'.size
  extends_ : ∀ r < h.size, place' r = place r
  frame : ∀ r < h.size, h'.cells[r]? = h.cells[r]? ∨
    ∃ before after, after ≠ [] ∧ before ++ after = parts ∧
      place r = .overlay resource (keys ++ before)

variable {parts : List String}

theorem writtenView {h' : Heap} (placed : Placed place h)
    (written : Written place place' h h' resource keys parts) {resource' keys'}
    (fits : Fits place resource' keys' v) (known : ∀ r ∈ v.refs, r < h.size)
    (apart : resource' = resource → ∀ before after more, after ≠ [] → before ++ after = parts →
      keys ++ before ≠ keys' ++ more) : h'.view v = h.view v := by
  refine viewPlace placed fits known fun r live stands => ?_
  obtain same | ⟨before,after,rest,split,on⟩ := written.frame r live
  · exact same
  cases stands with
  | inl below =>
    obtain ⟨more,below⟩ := below
    obtain ⟨res,path⟩ := Place.overlay.inj (on.symm.trans below)
    exact absurd path (apart res.symm before after more rest split)
  | inr inList => simp [on] at inList

theorem cellLive {r} (live : r < h.size) : h.cells[r]? = some (h.cell r) := by
  have found : h.cells[r]? = some h.cells[r] := List.getElem?_eq_getElem live
  rw [Heap.cell,found]
  rfl

theorem viewLive {r} (live : r < h.size) {j} (seen : h.view (.dict r) = some j) :
    ∃ m, viewWith (fun c => h.view (.dict c)) (h.cell r) = some m ∧ j = .obj m := by
  rw [Heap.viewDict,cellLive live] at seen
  obtain ⟨m,inside,same⟩ := Option.map_eq_some_iff.mp seen
  exact ⟨m,inside,same.symm⟩

theorem viewMember {h' : Heap} {m j} (distinct : Distinct (h.cell cursor))
    (seen : viewWith (fun c => h.view (.dict c)) (h.cell cursor) = some m)
    (cell : h'.cells[cursor]? = some (insert key v (h.cell cursor)))
    (others : ∀ p ∈ h.cell cursor, p.1 ≠ key → h'.view p.2 = h.view p.2)
    (value : h'.view v = some j) : h'.view (.dict cursor) = some (.obj (insert key j m)) := by
  have inserted : viewWith (fun c => h'.view (.dict c))
      (insert key v (h.cell cursor)) = some (insert key j m) :=
    Entries.viewWithInsert seen distinct others value
  rw [Heap.viewDict,cell,Option.bind_some,inserted]
  rfl

theorem writtenPut (placed : Placed place h)
    (here : place cursor = .overlay resource keys)
    (fits : Fits place resource (keys ++ [key]) v) (known : ∀ r ∈ v.refs, r < h.size) :
    Written place place h (h.put cursor key v) resource keys [key] := by
  refine ⟨placedPut placed here fits known,by simp [Heap.put,Heap.size],fun _ _ => rfl,?_⟩
  intro r live
  by_cases same : cursor = r
  · subst same
    exact .inr ⟨[],[key],by simp,rfl,by simpa using here⟩
  · exact .inl (by simp [Heap.put,same])

theorem cellsPut (live : cursor < h.size) (key : String) (v : PyVal) :
    (h.put cursor key v).cells[cursor]? = some (insert key v (h.cell cursor)) := by
  simp only [Heap.put]
  rw [List.getElem?_set_self live]

theorem prefixApart {keys more key other} (different : other ≠ key) (rest : List String) :
    keys ++ key::rest ≠ keys ++ [other] ++ more := by
  intro same
  rw [List.append_assoc] at same
  have tails := List.append_cancel_left same
  exact different (List.cons.inj tails).1.symm

theorem longerApart (keys more : List String) (key : String) : keys ≠ keys ++ [key] ++ more := by
  intro same
  have lengths := congrArg List.length same
  simp at lengths

theorem writtenBelow {h'} (placed : Placed place h) (here : place cursor = .overlay resource keys)
    (written : Written place place' h h' resource (keys ++ [key]) parts) (live : cursor < h.size) :
    Written place place' h h' resource keys (key::parts) ∧ h'.cells[cursor]? = h.cells[cursor]? ∧
      ∀ p ∈ h.cell cursor, p.1 ≠ key → h'.view p.2 = h.view p.2 := by
  refine ⟨⟨written.placed,written.grows,written.extends_,?_⟩,?_,?_⟩
  · intro r alive
    refine (written.frame r alive).imp_right fun some => ?_
    obtain ⟨before,after,rest,split,stands⟩ := some
    exact ⟨key::before,after,rest,by simp [split],by simpa using stands⟩
  · obtain same | ⟨before,after,rest,split,stands⟩ := written.frame cursor live
    · exact same
    · have path := (Place.overlay.inj (here.symm.trans stands)).2
      exact absurd path (longerApart keys before key)
  intro p mem different
  refine writtenView placed written (placed.member cursor resource keys here p mem)
    (entryKnown placed mem) fun _ before after more rest split => ?_
  have apart := @prefixApart keys more key p.1 different before
  simpa using apart

theorem viewPut (placed : Placed place h) (here : place cursor = .overlay resource keys)
    (key : String) (v : PyVal) {w : PyVal} {other} (fits : Fits place resource (keys ++ [other]) w)
    (known : ∀ r ∈ w.refs, r < h.size) : (h.put cursor key v).view w = h.view w := by
  refine viewPlace placed fits known fun r live stands => ?_
  have different : cursor ≠ r := by
    intro same
    subst same
    cases stands with
    | inl below =>
      obtain ⟨more,below⟩ := below
      exact longerApart keys more other (Place.overlay.inj (here.symm.trans below)).2
    | inr inList => simp [here] at inList
  simp [Heap.put,different]

theorem writtenNew (placed : Placed place h) (live : cursor < h.size)
    (here : place cursor = .overlay resource keys) (key : String) :
    let place' := Function.update place h.size (.overlay resource (keys ++ [key]))
    let h' := h.alloc.2.put cursor key (.dict h.size)
    Written place place' h h' resource keys [key] ∧
      h'.cells[cursor]? = some (insert key (.dict h.size) (h.cell cursor)) ∧
      h'.view (.dict h.size) = some (.obj []) := by
  intro place' h'
  have stands : place' cursor = .overlay resource keys := by
    rw [← here]
    exact Function.update_of_ne (Nat.ne_of_lt live) _ _
  have new : place' h.size = .overlay resource (keys ++ [key]) := Function.update_self _ _ _
  have size : h.alloc.2.size = h.size + 1 := by simp [Heap.alloc,Heap.size]
  have allocated := placedAlloc placed (.overlay resource (keys ++ [key]))
  have put := placedPut allocated stands (v := .dict h.size) new (by simp [PyVal.refs,size])
  refine ⟨⟨put,?_,?_,?_⟩,?_,?_⟩
  · simp [h',Heap.put,Heap.alloc,Heap.size]
  · intro r alive
    exact Function.update_of_ne (Nat.ne_of_lt alive) _ _
  · intro r alive
    by_cases same : cursor = r
    · subst same
      exact .inr ⟨[],[key],by simp,rfl,by simpa using here⟩
    · refine .inl ?_
      simp only [h',Heap.put,List.getElem?_set,same,if_false,Heap.alloc]
      exact List.getElem?_append_left alive
  · have put := @cellsPut h.alloc.2 cursor (by omega) key (.dict h.size)
    rwa [cellAlloc] at put
  · have other : cursor ≠ h.size := Nat.ne_of_lt live
    have cell : h'.cells[h.size]? = some [] := by
      simp only [h',Heap.put,List.getElem?_set,other,if_false,Heap.alloc]
      simp [Heap.size]
    rw [Heap.viewDict,cell]
    rfl

theorem writtenThen {place₁ place₂ h₁ h₂} (first : Written place place₁ h h₁ resource keys [key])
    (second : Written place₁ place₂ h₁ h₂ resource keys (key::parts)) :
    Written place place₂ h h₂ resource keys (key::parts) := by
  refine ⟨second.placed,first.grows.trans second.grows,?_,?_⟩
  · intro r live
    exact (second.extends_ r (live.trans_le first.grows)).trans (first.extends_ r live)
  intro r live
  obtain same | ⟨before,after,rest,split,stands⟩ := second.frame r (live.trans_le first.grows)
  · obtain same' | ⟨before,after,rest,split,stands⟩ := first.frame r live
    · exact .inl (same.trans same')
    have start : before = [] := by
      cases before with
      | nil => rfl
      | cons b bs => exact absurd (List.append_eq_nil_iff.mp (List.cons.inj split).2).2 rest
    exact .inr ⟨[],key::parts,by simp,rfl,start ▸ stands⟩
  · exact .inr ⟨before,after,rest,split,(first.extends_ r live).symm.trans stands⟩

theorem stepView {h'} (placed : Placed place h)
    (written : Written place place' h h' resource keys [key]) {other rest}
    (fits : Fits place resource (keys ++ other::rest) v) (known : ∀ r ∈ v.refs, r < h.size) :
    h'.view v = h.view v := by
  refine writtenView placed written fits known fun _ before after more nonempty split => ?_
  cases before with
  | nil =>
    exact fun same => by simpa using congrArg List.length same
  | cons b bs => exact absurd (List.append_eq_nil_iff.mp (List.cons.inj split).2).2 nonempty

theorem viewPlain (plain : ∀ c, v ≠ .dict c) {j} (seen : h.view v = some j) : j.isObj = false := by
  cases v with
  | dict c => exact absurd rfl (plain c)
  | list items =>
    obtain ⟨js,-,rfl⟩ := Option.map_eq_some_iff.mp seen
    rfl
  | _ =>
    cases seen
    rfl

theorem viewChild {m r c} (members : viewWith (fun c => h.view (.dict c)) (h.cell r) = some m)
    (found : (h.cell r).lookup key = some (.dict c)) :
    ∃ o, h.view (.dict c) = some o ∧ m.lookup key = some o := by
  have all := Entries.viewWithSome.mp (Option.isSome_of_eq_some members)
  have inside : c ∈ refs (h.cell r) := Entries.refsMem.mpr ⟨_,lookupMem found,by simp [PyVal.refs]⟩
  obtain ⟨o,seen⟩ := Option.isSome_iff_exists.mp (all c inside)
  exact ⟨o,seen,by rw [viewWithLookup members,found]; exact seen⟩

theorem setAtFresh {m r} (members : viewWith (fun c => h.view (.dict c)) (h.cell r) = some m)
    (plain : ∀ c, (h.cell r).lookup key ≠ some (.dict c)) (next : String) (rest : List String)
    (j : Json) : setAt ((m.lookup key).getD (.obj [])) (next::rest) j =
      setAt (.obj []) (next::rest) j := by
  rw [viewWithLookup members]
  cases found : (h.cell r).lookup key with
  | none => rfl
  | some w =>
    rw [Option.bind_some]
    cases seen : w.viewWith fun c => h.view (.dict c) with
    | none => rfl
    | some o =>
      have value : o.isObj = false :=
        viewPlain (fun c same => plain c (found.trans (congrArg some same))) seen
      exact Json.setAtPlain value next rest j

theorem setValueFresh
    (plain : ∀ c, (h.cell cursor).lookup key ≠ some (.dict c)) (next : String) (rest : List String)
    (v : PyVal) : setValue h cursor (key::next::rest) v =
      setValue (h.alloc.2.put cursor key (.dict h.size)) h.size (next::rest) v := by
  rw [setValue]
  split
  · rename_i c found
    exact absurd found (plain c)
  · rfl

theorem setWritten (nonempty : parts ≠ []) {place : Nat → Place} {h keys} (placed : Placed place h)
    (live : cursor < h.size) (here : place cursor = .overlay resource keys)
    (fits : Fits place resource (keys ++ parts) v) (known : ∀ r ∈ v.refs, r < h.size) :
    ∃ place' h', setValue h cursor parts v = .ok h' ∧
      Written place place' h h' resource keys parts ∧
      ∀ o j, h.view (.dict cursor) = some o → h.view v = some j →
        h'.view (.dict cursor) = some (setAt o parts j) := by
  induction parts generalizing place h cursor keys with
  | nil => exact absurd rfl nonempty
  | cons key rest ih =>
    cases rest with
    | nil =>
      have written := writtenPut placed here fits known
      refine ⟨place,h.put cursor key v,rfl,written,fun o j seen value => ?_⟩
      obtain ⟨m,members,rfl⟩ := viewLive live seen
      have stored : (h.put cursor key v).view v = some j :=
        (viewPut placed here key v fits known).trans value
      refine viewMember (placed.distinct cursor) members (cellsPut live key v) ?_ stored
      intro p mem different
      exact viewPut placed here key v (placed.member cursor resource keys here p mem)
        (entryKnown placed mem)
    | cons next rest =>
      by_cases child : ∃ c, (h.cell cursor).lookup key = some (.dict c)
      · obtain ⟨c,found⟩ := child
        have mem := lookupMem found
        have below : place c = .overlay resource (keys ++ [key]) :=
          placed.member cursor resource keys here _ mem
        have alive : c < h.size := entryKnown placed mem c (by simp [PyVal.refs])
        obtain ⟨place',h',done,written,inner⟩ :=
          ih (by simp) placed alive below (by simpa using fits) known
        obtain ⟨whole,cell,others⟩ := writtenBelow placed here written live
        refine ⟨place',h',by simpa only [setValue,found] using done,whole,fun o j seen value => ?_⟩
        obtain ⟨m,members,rfl⟩ := viewLive live seen
        obtain ⟨o,seen,member⟩ := viewChild members found
        have kept : h'.cells[cursor]? = some (insert key (.dict c) (h.cell cursor)) := by
          rw [cell,cellLive live,insertSame found]
        rw [viewMember (placed.distinct cursor) members kept others (inner o j seen value)]
        rw [Json.setAtCons (.obj m) key,Json.getObj,member,Option.getD_some,Json.membersObj]
      · have plain := not_exists.mp child
        obtain ⟨step,cell,fresh⟩ := writtenNew placed live here key
        set place₁ := Function.update place h.size (.overlay resource (keys ++ [key]))
        set h₁ := h.alloc.2.put cursor key (.dict h.size)
        have size : h₁.size = h.size + 1 := by simp [h₁,Heap.put,Heap.alloc,Heap.size]
        have new : place₁ h.size = .overlay resource (keys ++ [key]) := Function.update_self _ _ _
        have stands : place₁ cursor = .overlay resource keys := (step.extends_ cursor live).trans here
        have later : Fits place₁ resource (keys ++ [key] ++ next::rest) v :=
          (fitsUpdate (fun r inside => Nat.ne_of_lt (known r inside)) _).mpr (by simpa using fits)
        obtain ⟨place₂,h₂,done,written,inner⟩ := ih (by simp) step.placed (by omega) new later
          fun r inside => by have := known r inside; omega
        obtain ⟨whole,cell₂,others⟩ := writtenBelow step.placed stands written (by omega)
        refine ⟨place₂,h₂,(setValueFresh plain next rest v).trans done,writtenThen step whole,?_⟩
        intro o j seen value
        obtain ⟨m,members,rfl⟩ := viewLive live seen
        have stored : h₁.view v = some j := (stepView placed step fits known).trans value
        have kept : h₂.cells[cursor]? =
            some (insert key (.dict h.size) (h.cell cursor)) := cell₂.trans cell
        have same : ∀ p ∈ h.cell cursor, p.1 ≠ key → h₂.view p.2 = h.view p.2 := by
          intro p mem different
          have still : p ∈ h₁.cell cursor := by
            rw [Heap.cellOf cell]
            exact memInsert mem different
          exact (others p still different).trans (stepView placed step
            (placed.member cursor resource keys here p mem) (entryKnown placed mem))
        rw [viewMember (placed.distinct cursor) members kept same (inner _ j fresh stored),
          Json.setAtCons (.obj m) key,Json.getObj,setAtFresh members plain,Json.membersObj]

end
end RedfishCtl.MockOverlay
