import RedfishCtl.CorpusTreeAccount

/-! The order of an archive's members and of the rows of its route map leaves no trace in a
conversion: every pass goes over sorted names or rows. -/
namespace RedfishCtl.CorpusTree
open AssocList Buckets Stateful
open PosixPath (parts)

section
variable (rt : Runtime)

def RowsReordered (first second : Bytes) : Prop :=
  ∃ document other rows others, rt.loads first = .ok document ∧ rt.loads second = .ok other ∧
    document.get? "schema" = other.get? "schema" ∧ document.get? "routes" = some (.arr rows) ∧
    other.get? "routes" = some (.arr others) ∧ rows.Perm others

structure MemberKept (m n : Member) : Prop where
  name : m.name = n.name
  kind : m.kind = n.kind
  size : m.size = n.size
  length : m.data.length = n.data.length
  data : m.data = n.data ∨ memberName m = safeRouteMap ∧ RowsReordered rt m.data n.data

def Reordered (a b : Archive) : Prop :=
  ∃ members, a.members.Perm members ∧ List.Forall₂ (MemberKept rt) members b.members

end

def Readable (root : List (List Char)) (m : Member) : Prop :=
  ∃ path, safeArchivePath (rstripSlashes m.name) = .ok path ∧ root <+: path ∧ m.kind ≠ .other ∧
    (m.kind = .regular → path.length = root.length + 1 ∧ m.size ≤ maxMemberBytes ∧
      m.data.length = m.size)

def regulars (members : List Member) : List Member := members.filter fun m => m.kind = .regular

def rowsIn (members : List Member) : List (String × Bytes) :=
  (regulars members).map fun m => (memberName m,m.data)

def bytesIn (members : List Member) : Nat := ((regulars members).map Member.size).sum

section
variable {arcname : String} {root : List (List Char)} {r t : Reading} {m : Member} {members : List Member}

theorem regularsCons : regulars (m::members) = regulars [m] ++ regulars members := by
  simp only [regulars,List.filter_cons,List.filter_nil]
  split <;> rfl

theorem rowsCons (m : Member) (members : List Member) :
    rowsIn (m::members) = rowsIn [m] ++ rowsIn members := by
  rw [rowsIn,regularsCons,List.map_append,rowsIn,rowsIn]

theorem bytesCons (m : Member) (members : List Member) :
    bytesIn (m::members) = bytesIn [m] + bytesIn members := by
  rw [bytesIn,regularsCons,List.map_append,List.sum_append,bytesIn,bytesIn]

theorem rowsRegular (regular : m.kind = .regular) :
    rowsIn [m] = [(memberName m,m.data)] ∧ bytesIn [m] = m.size := by
  simp [rowsIn,bytesIn,regulars,regular]

theorem rowsOther (other : m.kind ≠ .regular) : rowsIn [m] = [] ∧ bytesIn [m] = 0 := by
  simp [rowsIn,bytesIn,regulars,other]

theorem memberNameBelow {only}
    (safe : safeArchivePath (rstripSlashes m.name) = .ok (root ++ [only])) :
    memberName m = String.ofList only := by
  rw [memberName,← safeArchivePathOk safe]
  simp

theorem readMemberIff : readMember arcname root r m = .ok t ↔ Readable root m ∧
    (m.kind = .regular → r.total + m.size ≤ maxTotalBytes ∧ memberName m ∉ keys r.files) ∧
    t = ⟨r.files ++ rowsIn [m],r.total + bytesIn [m]⟩ := by
  cases safe : safeArchivePath (rstripSlashes m.name) with
  | error e =>
    constructor
    · intro done
      rw [readMember,safe] at done
      cases done
    · rintro ⟨⟨path,found,-⟩,-⟩
      rw [safe] at found
      cases found
  | ok path =>
    have readable : Readable root m ↔ root <+: path ∧ m.kind ≠ .other ∧ (m.kind = .regular →
        path.length = root.length + 1 ∧ m.size ≤ maxMemberBytes ∧ m.data.length = m.size) := by
      simp [Readable,safe]
    rw [readable,readMember,safe]
    simp only [bind,Except.bind]
    by_cases below : root <+: path
    · obtain ⟨tail,rfl⟩ := below
      have starts : root.isPrefixOf (root ++ tail) = true := by simp
      simp only [starts,Bool.not_true,Bool.false_eq_true,if_false,List.drop_left]
      cases kind : m.kind with
      | directory =>
        have rows := rowsOther (m := m) (by rw [kind]; decide)
        simp [rows,eq_comm (a := r)]
      | other => simp
      | regular =>
        obtain ⟨rows,bytes⟩ := rowsRegular kind
        rw [rows,bytes]
        rcases tail with _ | ⟨only,_ | ⟨next,rest⟩⟩
        · simp
        · dsimp only
          rw [← memberNameBelow safe]
          by_cases small : m.size ≤ maxMemberBytes
          · rw [if_neg (Nat.not_lt.mpr small)]
            by_cases fits : r.total + m.size ≤ maxTotalBytes
            · rw [if_neg (Nat.not_lt.mpr fits)]
              by_cases fresh : memberName m ∈ keys r.files
              · simp [fresh]
              · rw [insertAbsent fresh]
                by_cases whole : m.data.length = m.size
                · simp [fresh,whole,small,fits,eq_comm (b := t)]
                · simp [fresh,whole]
            · simp [Nat.not_le.mp fits]
          · simp [Nat.not_le.mp small]
        · simp
    · have outside :=
        Bool.eq_false_of_not_eq_true fun starts => below (List.isPrefixOf_iff_prefix.mp starts)
      simp [below,outside]

theorem readMembersIff (distinct : Distinct r.files) (fits : r.total ≤ maxTotalBytes) :
    members.foldlM (readMember arcname root) r = .ok t ↔ (∀ m ∈ members, Readable root m) ∧
      r.total + bytesIn members ≤ maxTotalBytes ∧ Distinct (r.files ++ rowsIn members) ∧
      t = ⟨r.files ++ rowsIn members,r.total + bytesIn members⟩ := by
  induction members generalizing r with
  | nil =>
    have none : rowsIn [] = [] ∧ bytesIn [] = 0 := ⟨rfl,rfl⟩
    simp only [none,List.foldlM_nil,List.append_nil,Nat.add_zero]
    simp [distinct,fits,pure,Except.pure,eq_comm (b := t)]
  | cons m rest ih =>
    rw [List.foldlM_cons,rowsCons,bytesCons,← List.append_assoc,← Nat.add_assoc]
    have grown : (m.kind = .regular → r.total + m.size ≤ maxTotalBytes ∧ memberName m ∉ keys r.files) ↔
        r.total + bytesIn [m] ≤ maxTotalBytes ∧ Distinct (r.files ++ rowsIn [m]) := by
      by_cases regular : m.kind = .regular
      · obtain ⟨rows,bytes⟩ := rowsRegular regular
        rw [rows,bytes]
        have apart : Distinct (r.files ++ [(memberName m,m.data)]) ↔ memberName m ∉ keys r.files := by
          simp only [Distinct,keys] at distinct ⊢
          rw [List.map_append,List.map_singleton,List.nodup_append_comm,List.singleton_append]
          simp [distinct]
        simp [regular,apart]
      · obtain ⟨rows,bytes⟩ := rowsOther regular
        simp [regular,rows,bytes,fits,distinct]
    constructor
    · intro done
      obtain ⟨s,first,later⟩ := okOfBind done
      obtain ⟨readable,room,rfl⟩ := readMemberIff.mp first
      obtain ⟨small,apart⟩ := grown.mp room
      obtain ⟨others,total,different,rfl⟩ := (ih apart small).mp later
      refine ⟨?_,total,different,rfl⟩
      rw [List.forall_mem_cons]
      exact ⟨readable,others⟩
    · rintro ⟨readable,total,different,rfl⟩
      rw [List.forall_mem_cons] at readable
      have small : r.total + bytesIn [m] ≤ maxTotalBytes := by omega
      have apart : Distinct (r.files ++ rowsIn [m]) :=
        different.sublist ((List.sublist_append_left _ _).map _)
      rw [readMemberIff.mpr ⟨readable.1,grown.mpr ⟨small,apart⟩,rfl⟩]
      exact (ih apart small).mpr ⟨readable.2,total,different,rfl⟩

theorem readArchiveIff {archive files} :
    readArchive archive arcname = .ok files ↔ ∃ root, safeSourceRoot arcname = .ok root ∧
      archive.members.length ≤ maxArchiveMembers ∧ (∀ m ∈ archive.members, Readable root m) ∧
      bytesIn archive.members ≤ maxTotalBytes ∧ Distinct (rowsIn archive.members) ∧
      rowsIn archive.members ≠ [] ∧ files = rowsIn archive.members := by
  have start : Distinct (⟨[],0⟩ : Reading).files := List.nodup_nil
  constructor
  · intro done
    obtain ⟨root,rooted,rest⟩ := okOfBind done
    split at rest
    · cases rest
    rename_i few
    obtain ⟨read,reading,rest⟩ := okOfBind rest
    obtain ⟨readable,total,different,rfl⟩ := (readMembersIff start (Nat.zero_le _)).mp reading
    rw [Nat.zero_add] at *
    split at rest
    · cases rest
    rename_i full
    refine ⟨root,rooted,Nat.not_lt.mp few,readable,total,different,fun none => full ?_,
      (Except.ok.inj rest).symm⟩
    rw [none]
    rfl
  · rintro ⟨root,rooted,few,readable,total,different,full,rfl⟩
    have reading : archive.members.foldlM (readMember arcname root) ⟨[],0⟩ =
        .ok ⟨rowsIn archive.members,bytesIn archive.members⟩ :=
      (readMembersIff start (Nat.zero_le _)).mpr
        ⟨readable,by simpa using total,by simpa using different,by simp⟩
    rw [readArchive,rooted]
    simp only [bind,Except.bind,Nat.not_lt.mpr few,if_false,reading,List.isEmpty_iff,full]

end

structure SameFiles (rt : Runtime) (files others : List (String × Bytes)) : Prop where
  names : (keys files).Perm (keys others)
  plain : ∀ {name}, name ≠ safeRouteMap → files.lookup name = others.lookup name
  routeMap : files.lookup safeRouteMap = others.lookup safeRouteMap ∨
    ∃ first second, files.lookup safeRouteMap = some first ∧ others.lookup safeRouteMap = some second ∧
      RowsReordered rt first second

section
variable {rt : Runtime} {m n : Member} {members later : List Member} {root : List (List Char)}
  {files others : List (String × Bytes)}

theorem RowsReordered.symm {first second} (reordered : RowsReordered rt first second) :
    RowsReordered rt second first := by
  obtain ⟨document,other,rows,others,loaded,loadedOther,schema,routes,otherRoutes,perm⟩ := reordered
  exact ⟨other,document,others,rows,loadedOther,loaded,schema.symm,otherRoutes,routes,perm.symm⟩

theorem MemberKept.named (kept : MemberKept rt m n) : memberName m = memberName n := by
  rw [memberName,memberName,kept.name]

theorem MemberKept.symm (kept : MemberKept rt m n) : MemberKept rt n m := by
  refine ⟨kept.name.symm,kept.kind.symm,kept.size.symm,kept.length.symm,?_⟩
  rcases kept.data with same | ⟨name,reordered⟩
  · exact .inl same.symm
  · exact .inr ⟨kept.named.symm.trans name,reordered.symm⟩

theorem MemberKept.readable (kept : MemberKept rt m n) (readable : Readable root m) : Readable root n := by
  obtain ⟨path,safe,below,kind,regular⟩ := readable
  rw [Readable,← kept.name,← kept.kind,← kept.size,← kept.length]
  exact ⟨path,safe,below,kind,regular⟩

theorem Reordered.symm {a b} (reordered : Reordered rt a b) : Reordered rt b a := by
  obtain ⟨members,perm,kept⟩ := reordered
  obtain ⟨others,standing,moved⟩ := List.perm_comp_forall₂ perm kept
  refine ⟨others,moved.symm,?_⟩
  exact standing.flip.imp fun _ _ kept => MemberKept.symm kept

theorem keptRows (kept : List.Forall₂ (MemberKept rt) members later) :
    bytesIn members = bytesIn later ∧ List.Forall₂ (fun p q => p.1 = q.1 ∧
      (p.2 = q.2 ∨ p.1 = safeRouteMap ∧ RowsReordered rt p.2 q.2)) (rowsIn members) (rowsIn later) := by
  induction kept with
  | nil => exact ⟨rfl,.nil⟩
  | @cons m n members later first rest ih =>
    rw [rowsCons m,rowsCons n,bytesCons m,bytesCons n,ih.1]
    by_cases regular : m.kind = .regular
    · obtain ⟨rows,bytes⟩ := rowsRegular regular
      obtain ⟨otherRows,otherBytes⟩ := rowsRegular (first.kind ▸ regular)
      rw [rows,bytes,otherRows,otherBytes,first.size]
      exact ⟨rfl,.cons ⟨first.named,first.data⟩ ih.2⟩
    · obtain ⟨rows,bytes⟩ := rowsOther regular
      obtain ⟨otherRows,otherBytes⟩ := rowsOther (first.kind ▸ regular)
      rw [rows,bytes,otherRows,otherBytes]
      exact ⟨rfl,ih.2⟩

theorem keptReadable (kept : List.Forall₂ (MemberKept rt) members later)
    (readable : ∀ m ∈ members, Readable root m) : ∀ n ∈ later, Readable root n := by
  induction kept with
  | nil => exact fun n mem => absurd mem List.not_mem_nil
  | cons first rest ih =>
    rw [List.forall_mem_cons] at readable ⊢
    exact ⟨first.readable readable.1,ih readable.2⟩

theorem keptFiles (kept : List.Forall₂ (fun p q => p.1 = q.1 ∧
    (p.2 = q.2 ∨ p.1 = safeRouteMap ∧ RowsReordered rt p.2 q.2)) files others) :
    SameFiles rt files others := by
  induction kept with
  | nil => exact ⟨.refl _,fun _ => rfl,.inl rfl⟩
  | @cons p q files others first rest ih =>
    obtain ⟨name,data⟩ := p
    obtain ⟨name',data'⟩ := q
    obtain ⟨rfl,same⟩ := first
    refine ⟨ih.names.cons name,fun {asked} plain => ?_,?_⟩
    · rw [lookupCons,lookupCons,ih.plain plain]
      split
      · rename_i here
        rcases same with same | ⟨special,-⟩
        · exact congrArg some same
        · exact absurd (here.trans special) plain
      · rfl
    · rw [lookupCons,lookupCons]
      split
      · rcases same with same | ⟨-,reordered⟩
        · exact .inl (congrArg some same)
        · exact .inr ⟨data,data',rfl,rfl,reordered⟩
      · exact ih.routeMap

theorem readReordered {a b arcname} (reordered : Reordered rt a b)
    (done : readArchive a arcname = .ok files) :
    ∃ others, readArchive b arcname = .ok others ∧ SameFiles rt files others := by
  obtain ⟨members,perm,kept⟩ := reordered
  obtain ⟨root,rooted,few,readable,total,distinct,full,rfl⟩ := readArchiveIff.mp done
  have rows : (rowsIn a.members).Perm (rowsIn members) := (perm.filter _).map _
  have bytes : bytesIn a.members = bytesIn members := ((perm.filter _).map _).sum_eq
  obtain ⟨sizes,standing⟩ := keptRows kept
  have placed := keptFiles standing
  have same : SameFiles rt (rowsIn a.members) (rowsIn b.members) := by
    refine ⟨(rows.map _).trans placed.names,fun plain => ?_,?_⟩
    · rw [lookupPerm distinct rows]
      exact placed.plain plain
    · rw [lookupPerm distinct rows]
      exact placed.routeMap
  refine ⟨rowsIn b.members,readArchiveIff.mpr ⟨root,rooted,?_,?_,?_,?_,?_,rfl⟩,same⟩
  · rw [← kept.length_eq,← perm.length_eq]
    exact few
  · exact keptReadable kept fun m mem => readable m (perm.mem_iff.mpr mem)
  · rw [← sizes,← bytes]
    exact total
  · exact same.names.nodup_iff.mp distinct
  intro none
  have count := same.names.length_eq
  rw [none] at count
  simp only [keys,List.length_map,List.length_nil,List.length_eq_zero_iff] at count
  exact full count

def rowOf (j : Json) : Option (String × String) := (loadRow 0 j).toOption

theorem loadRowPlace (index : Nat) (j : Json) : (loadRow index j).toOption = rowOf j := by
  unfold rowOf loadRow
  split
  · split
    · split
      · rfl
      split
      · split
        · rfl
        · split <;> rfl
      · rfl
    · rfl
  · rfl

variable {routeMap : List (String × String)}

theorem loadRowsIff {rows : List Json} {place} :
    ((rows.zipIdx place).mapM fun p => loadRow p.2 p.1) = .ok routeMap ↔
      (∀ j ∈ rows, (rowOf j).isSome) ∧ routeMap = rows.filterMap rowOf := by
  induction rows generalizing place routeMap with
  | nil =>
    constructor
    · intro done
      exact ⟨fun j mem => absurd mem List.not_mem_nil,(Except.ok.inj done).symm⟩
    · rintro ⟨-,rfl⟩
      rfl
  | cons j rest ih =>
    rw [List.zipIdx_cons,List.mapM_cons,List.forall_mem_cons,List.filterMap_cons]
    have here := loadRowPlace place j
    constructor
    · intro done
      obtain ⟨row,loaded,later⟩ := okOfBind done
      obtain ⟨tail,loadedRest,last⟩ := okOfBind later
      cases Except.ok.inj last
      rw [loaded] at here
      obtain ⟨readable,rfl⟩ := ih.mp loadedRest
      rw [← here]
      exact ⟨⟨rfl,readable⟩,rfl⟩
    · rintro ⟨⟨first,readable⟩,rfl⟩
      cases loaded : loadRow place j with
      | error e =>
        rw [loaded] at here
        rw [← here] at first
        cases first
      | ok row =>
        rw [loaded] at here
        rw [← here]
        simp only [bind,Except.bind,ih.mpr ⟨readable,rfl⟩]
        rfl

theorem loadReordered (same : SameFiles rt files others)
    (done : loadRouteMap rt files = .ok routeMap) :
    ∃ rows, loadRouteMap rt others = .ok rows ∧ routeMap.Perm rows := by
  rcases same.routeMap with equal | ⟨first,second,found,foundOther,reordered⟩
  · refine ⟨routeMap,?_,.refl _⟩
    rw [loadRouteMap,← equal]
    exact done
  obtain ⟨document,other,rows,later,loaded,loadedOther,schema,routes,otherRoutes,perm⟩ := reordered
  rw [loadRouteMap,found] at done
  rw [loadRouteMap,foundOther]
  simp only [jsonLoadBytes,loaded,loadedOther,routes,otherRoutes,← schema] at done ⊢
  split at done
  · cases done
  rename_i declared
  rw [if_neg declared]
  obtain ⟨readable,rfl⟩ := loadRowsIff.mp done
  refine ⟨later.filterMap rowOf,loadRowsIff.mpr ⟨fun j mem => ?_,rfl⟩,perm.filterMap _⟩
  exact readable j (perm.mem_iff.mpr mem)

end

theorem sortedNamesPerm {names others} (perm : names.Perm others) :
    sortedNames names = sortedNames others := by
  exact insertionSortPerm (fun _ _ _ _ => String.le_antisymm) perm

theorem pairTotal (a b : String × String) : pairLe a b ∨ pairLe b a := by
  by_cases same : a.1 = b.1
  · rcases String.le_total a.2 b.2 with le | le
    · exact .inl (.inr ⟨same,le⟩)
    · exact .inr (.inr ⟨same.symm,le⟩)
  · rcases String.le_total a.1 b.1 with le | le
    · exact .inl (.inl (String.not_le.mp fun ge => same (String.le_antisymm le ge)))
    · exact .inr (.inl (String.not_le.mp fun ge => same (String.le_antisymm ge le)))

theorem pairTrans {a b c} (first : pairLe a b) (second : pairLe b c) : pairLe a c := by
  rcases first with before | ⟨same,le⟩
  · rcases second with later | ⟨same,-⟩
    · exact .inl (String.lt_trans before later)
    · exact .inl (same ▸ before)
  · rcases second with later | ⟨equal,above⟩
    · exact .inl (same ▸ later)
    · exact .inr ⟨same.trans equal,String.le_trans le above⟩

theorem pairAntisymm {a b} (first : pairLe a b) (second : pairLe b a) : a = b := by
  rcases first with before | ⟨same,le⟩
  · rcases second with after | ⟨same,-⟩
    · exact absurd (String.lt_trans before after) (String.lt_irrefl _)
    · exact absurd before (same ▸ String.lt_irrefl _)
  · rcases second with after | ⟨-,above⟩
    · exact absurd after (same ▸ String.lt_irrefl _)
    · exact Prod.ext same (String.le_antisymm le above)

theorem sortedPairsPerm {rows others : List (String × String)} (perm : rows.Perm others) :
    rows.insertionSort pairLe = others.insertionSort pairLe := by
  have : Std.Total pairLe := ⟨pairTotal⟩
  have : IsTrans (String × String) pairLe := ⟨fun _ _ _ => pairTrans⟩
  exact insertionSortPerm (fun _ _ _ _ => pairAntisymm) perm

structure ReadAlike (files others : List (String × Bytes)) : Prop where
  names : fixtureNames files = fixtureNames others
  payloads : ∀ {f}, f ∈ fixtureNames files → payloadOf files f = payloadOf others f
  count : files.length = others.length
  sidecars : sidecars files = sidecars others

section
variable {rt : Runtime} {files others : List (String × Bytes)} {w : Work}

theorem fixtureNotMap {f} (named : f ∈ fixtureNames files) : f ≠ safeRouteMap := by
  rintro rfl
  have fixture := (memFixtureNames.mp named).2
  revert fixture
  decide +kernel

theorem SameFiles.alike (same : SameFiles rt files others) : ReadAlike files others := by
  have names : fixtureNames files = fixtureNames others := sortedNamesPerm (same.names.filter _)
  refine ⟨names,fun named => ?_,?_,?_⟩
  · rw [payloadOf,payloadOf,same.plain (fixtureNotMap named)]
  · simpa [keys] using same.names.length_eq
  · rw [sidecars,names]
    exact sortedNamesPerm (same.names.filter _)

theorem gatherAlike (alike : ReadAlike files others) {routeMap rows : List (String × String)}
    (perm : routeMap.Perm rows) : gather rt files routeMap = gather rt others rows := by
  have parsing : ∀ w, ∀ f ∈ fixtureNames files, parseFixture rt files w f = parseFixture rt others w f := by
    intro w f named
    rw [parseFixture,parseFixture,alike.payloads named]
  rw [gather,gather,sortedPairsPerm perm,foldlMCongr parsing,alike.names]

theorem aliasAlike (alike : ReadAlike files others) {e f} (named : f ∈ fixtureNames files) :
    canonicalAliasExclusion rt files (fixtureLookup rt (fixtureNames files)) e f =
      canonicalAliasExclusion rt others (fixtureLookup rt (fixtureNames files)) e f := by
  unfold canonicalAliasExclusion
  split
  · dsimp only
    split
    · rfl
    split
    · rename_i canonical matched
      have inside : canonical ∈ fixtureNames files := by
        have grouped : canonical ∈ bucket (fixtureLookup rt (fixtureNames files)) _ :=
          matched ▸ List.mem_singleton_self canonical
        rw [fixtureLookup,bucketGroup] at grouped
        exact (List.mem_filter.mp grouped).1
      rw [alike.payloads named,alike.payloads inside]
    · rfl
  · rfl

theorem routedAlike (alike : ReadAlike files others) : routed rt files w = routed rt others w := by
  have aliases : ∀ v, ∀ f ∈ fixtureNames files,
      excludeAlias rt files (fixtureLookup rt (fixtureNames files)) w.evidence v f =
        excludeAlias rt others (fixtureLookup rt (fixtureNames files)) w.evidence v f := by
    intro v f named
    rw [excludeAlias,excludeAlias,aliasAlike alike named]
  rw [routed,routed,List.foldl_ext _ _ _ aliases,alike.names]

theorem classifyAlike (alike : ReadAlike files others) : classify rt files w = classify rt others w := by
  rw [classifyEq,classifyEq,routedAlike alike]

theorem emittedAlike (alike : ReadAlike files others) (sound : Sound rt files w) {p}
    (mem : p ∈ emissions (classify rt files w).routes) : payloadOf files p.1 = payloadOf others p.1 :=
  alike.payloads ((classifyRouted sound).1.routed p (memEmissions.mp mem)).named

theorem payloadsAlike (alike : ReadAlike files others) (sound : Sound rt files w) :
    payloadsOf files (classify rt files w).routes = payloadsOf others (classify rt files w).routes := by
  exact List.foldl_ext _ _ _ fun d p mem => by rw [emittedAlike alike sound mem]

theorem mappingsAlike (alike : ReadAlike files others) (sound : Sound rt files w) :
    (emissions (classify rt files w).routes).map (mappingOf files) =
      (emissions (classify rt files w).routes).map (mappingOf others) := by
  refine List.map_congr_left fun p mem => ?_
  rw [mappingOf,mappingOf,emittedAlike alike sound mem]

theorem finalAlike (alike : ReadAlike files others) : finalVerdicts rt files w = finalVerdicts rt others w := by
  rw [finalVerdicts,finalVerdicts,classifyAlike alike,alike.names]

def withoutSource (c : Conversion) : Conversion := ⟨{ c.report with sourceSha256 := "" },c.payloads⟩

theorem reportAlike (alike : ReadAlike files others) (sound : Sound rt files w) (row : Row)
    (sha256 sha256' : String) (links : List MissingLink) :
    { reportOf rt row sha256 files w links with sourceSha256 := "" } =
      { reportOf rt row sha256' others w links with sourceSha256 := "" } := by
  have counts : ∀ v, countsOf files v = countsOf others v := by
    intro v
    rw [countsOf,countsOf,alike.count,alike.sidecars,alike.names]
  unfold reportOf
  dsimp only
  rw [mappingsAlike alike sound,payloadsAlike alike sound,finalAlike alike,counts,alike.names,
    classifyAlike alike]

theorem concludeAlike (alike : ReadAlike files others) (sound : Sound rt files w) {row sha256 c}
    (sha256' : String) (done : conclude rt row sha256 files w = .ok c) :
    ∃ d, conclude rt row sha256' others w = .ok d ∧ withoutSource d = withoutSource c := by
  obtain ⟨links,found,last⟩ := okOfBind done
  cases Except.ok.inj last
  refine ⟨⟨reportOf rt row sha256' others w links,payloadsOf others (classify rt others w).routes⟩,?_,?_⟩
  · rw [conclude,← classifyAlike alike,← alike.names,found]
    rfl
  · rw [withoutSource,withoutSource,reportAlike alike sound row sha256 sha256' links,
      payloadsAlike alike sound,classifyAlike alike]

theorem buildReordered {a b} (reordered : Reordered rt a b) {row c}
    (done : buildConversion rt row a = .ok c) :
    ∃ d, buildConversion rt row b = .ok d ∧ withoutSource d = withoutSource c := by
  unfold buildConversion at done
  split at done
  · cases done
  rename_i named
  obtain ⟨files,read,rest⟩ := okOfBind done
  obtain ⟨routeMap,loaded,rest⟩ := okOfBind rest
  obtain ⟨w,gathering,finished⟩ := okOfBind rest
  obtain ⟨others,readOther,same⟩ := readReordered reordered read
  obtain ⟨rows,loadedOther,perm⟩ := loadReordered same loaded
  obtain ⟨d,concluded,equal⟩ := concludeAlike same.alike (gathered gathering).sound b.sha256 finished
  rw [gatherAlike same.alike perm] at gathering
  refine ⟨d,?_,equal⟩
  rw [buildConversion,if_neg named,readOther]
  simp only [bind,Except.bind,loadedOther,gathering,concluded]

theorem conversionOrderFree (rt : Runtime) (row : Row) {a b : Archive} (reordered : Reordered rt a b) :
    (buildConversion rt row a).toOption.map withoutSource =
      (buildConversion rt row b).toOption.map withoutSource := by
  cases first : buildConversion rt row a with
  | ok c =>
    obtain ⟨d,second,same⟩ := buildReordered reordered first
    rw [second]
    exact congrArg some same.symm
  | error e =>
    cases second : buildConversion rt row b with
    | error e' => rfl
    | ok d =>
      -- what one archive gives, the other gives too
      obtain ⟨c,found,-⟩ := buildReordered reordered.symm second
      rw [first] at found
      cases found

end

namespace Sample

def mapRowOf (route fixture : String) : Json :=
  .obj [("route",.str route),("sourceFixture",.str fixture)]

def mapDocument (rows : List Json) : Json :=
  .obj [("schema",.str safeRouteMapSchema),("routes",.arr rows)]

def mapRows : List Json :=
  [mapRowOf "/redfish/v1/Systems" "_redfish_v1_Systems.json",mapRowOf "/redfish/v1" "_redfish_v1.json"]

def mapped : List Json := small ++ [mapDocument mapRows,mapDocument mapRows.reverse]

def mappedMembers (routeMap : UInt8) : List Member :=
  [member "_redfish_v1.json" [0],member "_redfish_v1_Systems.json" [1],member safeRouteMap [routeMap]]

def mappedArchive : Archive := ⟨mappedMembers 2,"first"⟩

def turnedArchive : Archive := ⟨(mappedMembers 3).reverse,"second"⟩

theorem turnedReordered : Reordered (runtime mapped) mappedArchive turnedArchive := by
  have kept : ∀ m, MemberKept (runtime mapped) m m := fun m => ⟨rfl,rfl,rfl,rfl,.inl rfl⟩
  have rows : RowsReordered (runtime mapped) [2] [3] :=
    ⟨mapDocument mapRows,mapDocument mapRows.reverse,mapRows,mapRows.reverse,rfl,rfl,rfl,rfl,rfl,
      mapRows.reverse_perm.symm⟩
  have named : memberName (member safeRouteMap [2]) = safeRouteMap := by decide +kernel
  refine ⟨(mappedMembers 2).reverse,(List.reverse_perm _).symm,?_⟩
  exact .cons ⟨rfl,rfl,rfl,rfl,.inr ⟨named,rows⟩⟩ (.cons (kept _) (.cons (kept _) .nil))

end Sample

open Sample in
theorem turnedArchiveAgrees : ∃ c d, buildConversion (runtime mapped) row mappedArchive = .ok c ∧
    c.report.passed = true ∧ buildConversion (runtime mapped) row turnedArchive = .ok d ∧
    withoutSource c = withoutSource d ∧ c.report.sourceSha256 ≠ d.report.sourceSha256 := by
  have passed : (buildConversion (runtime mapped) row mappedArchive).toOption.map
      (fun c => (c.report.passed,c.report.sourceSha256)) = some (true,"first") := by
    decide +kernel
  have other : (buildConversion (runtime mapped) row turnedArchive).toOption.map
      (fun c => c.report.sourceSha256) = some "second" := by
    decide +kernel
  have agree := conversionOrderFree (runtime mapped) row turnedReordered
  cases first : buildConversion (runtime mapped) row mappedArchive with
  | error e =>
    rw [first] at passed
    cases passed
  | ok c =>
    cases second : buildConversion (runtime mapped) row turnedArchive with
    | error e =>
      rw [second] at other
      cases other
    | ok d =>
      rw [first] at passed agree
      rw [second] at other agree
      obtain ⟨result,source⟩ := Prod.mk.inj (Option.some.inj passed)
      have sourceOther : d.report.sourceSha256 = "second" := Option.some.inj other
      refine ⟨c,d,rfl,result,rfl,Option.some.inj agree,?_⟩
      rw [source,sourceOther]
      decide

end RedfishCtl.CorpusTree
