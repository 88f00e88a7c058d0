import RedfishCtl.JsonMask

/-! The payload of a write in the debug log, as the generic manager and the Dell manager mask it. -/
namespace RedfishCtl.WriteLog
open Json (EqualBut MembersBut ItemsBut mask Covers maskEqual)

section
variable (lower : String → String)

def hasPassword (key : String) : Bool := decide ("password".toList <:+: (lower key).toList)

def genericRedact : Json → Json
  | .obj payload => .obj (payload.map fun p => if hasPassword lower p.1 then (p.1,.str "***") else p)
  | payload => payload

def sensitiveExact : List String := ["apikey","api_key","accesskey","access_key"]
def sensitiveSuffixes : List String := ["password","secret","token"]

def isSensitive (key : String) : Bool :=
  sensitiveExact.contains (lower key) ||
    sensitiveSuffixes.any fun suffix => suffix.toList.isSuffixOf (lower key).toList

def dellRedact : Json → Json :=
  mask (fun key _ => if isSensitive lower key then some (.str "********") else none) id

def genericLog {τ : Type} (dumps : Json → τ) (payload : Option Json) : τ :=
  dumps (genericRedact lower (payload.getD (.obj [])))

def dellLog {τ : Type} (dumps : Json → τ) (payload : Option Json) : τ :=
  dumps (dellRedact lower (payload.getD (.obj [])))

def Secret (key : String) (_ _ : Json) : Prop := "password".toList <:+ (lower key).toList

/- Nothing differs but values under password keys of the payload itself. -/
def Shallow : Json → Json → Prop
  | .obj m, .obj n => List.Forall₂ (fun a b => hasPassword lower a.1 = true ∨ a.2 = b.2) m n
  | x, y => x = y

end

variable {lower : String → String}

theorem dellEqual {x y} (same : EqualBut (Secret lower) x y) :
    dellRedact lower x = dellRedact lower y := by
  have covers : Covers (Secret lower)
      (fun key _ => if isSensitive lower key then some (.str "********") else none) := by
    refine ⟨fun {key _ _} secret => ?_,fun _ => rfl⟩
    have sensitive : isSensitive lower key = true := by
      rw [isSensitive,Bool.or_eq_true,List.any_eq_true]
      exact .inr ⟨_,List.mem_cons_self,List.isSuffixOf_iff_suffix.mpr secret⟩
    exact ⟨_,if_pos sensitive,if_pos sensitive⟩
  exact maskEqual covers x y same

theorem membersEqual {m n} (same : MembersBut (Secret lower) m n) :
    (m.map fun p => if hasPassword lower p.1 then (p.1,.str "***") else p) =
        (n.map fun p => if hasPassword lower p.1 then (p.1,.str "***") else p) ↔
      List.Forall₂ (fun a b => hasPassword lower a.1 = true ∨ a.2 = b.2) m n := by
  induction m generalizing n with
  | nil =>
    simp
  | cons p rest ih =>
    obtain ⟨y,others,rfl,_,tail⟩ := same
    rw [List.map_cons,List.map_cons,List.cons.injEq,List.forall₂_cons,ih tail]
    cases masked : hasPassword lower p.1 <;> simp [Prod.ext_iff]

theorem genericEqual {x y} (same : EqualBut (Secret lower) x y) :
    genericRedact lower x = genericRedact lower y ↔ Shallow lower x y := by
  cases x with
  | obj m =>
    obtain ⟨n,rfl,members⟩ := same
    rw [genericRedact,genericRedact,Json.obj.injEq,membersEqual members,Shallow]
  | arr items =>
    obtain ⟨others,rfl,_⟩ := same
    rfl
  | _ =>
    rw [same]
    exact iff_of_true rfl rfl

/- The Dell log never shows the values of password keys; the generic one does not exactly if none is
below the top of the payload. -/
theorem logsHidePasswords {τ : Type} {dumps : Json → τ} (faithful : Function.Injective dumps)
    {p q : Json} (same : EqualBut (Secret lower) p q) :
    dellLog lower dumps (some p) = dellLog lower dumps (some q) ∧
      (genericLog lower dumps (some p) = genericLog lower dumps (some q) ↔ Shallow lower p q) :=
  ⟨congrArg dumps (dellEqual same),faithful.eq_iff.trans (genericEqual same)⟩

def asciiLower (text : String) : String := String.ofList (text.toList.map Char.toLower)

def account (password : String) : Json := .obj [("Password",.str password)]

theorem accountSecret (a b : String) : EqualBut (Secret asciiLower) (account a) (account b) := by
  refine ⟨_,rfl,_,_,rfl,.inl ?_,rfl⟩
  change "password".toList <:+ (asciiLower "Password").toList
  decide

theorem accountLogged :
    dellLog asciiLower id (some (account "a")) = dellLog asciiLower id (some (account "b")) ∧
      genericLog asciiLower id (some (account "a")) =
        genericLog asciiLower id (some (account "b")) := by
  obtain ⟨dell,generic⟩ := logsHidePasswords Function.injective_id (accountSecret "a" "b")
  exact ⟨dell,generic.mpr (.cons (.inl (by decide)) .nil)⟩

theorem nestedPasswordLogged :
    EqualBut (Secret asciiLower) (.obj [("Account",account "a")]) (.obj [("Account",account "b")]) ∧
      genericLog asciiLower id (some (.obj [("Account",account "a")])) ≠
        genericLog asciiLower id (some (.obj [("Account",account "b")])) :=
  ⟨⟨_,rfl,_,_,rfl,.inr (accountSecret "a" "b"),rfl⟩,by decide⟩

end RedfishCtl.WriteLog
