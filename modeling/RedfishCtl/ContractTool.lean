import RedfishCtl.JsonAccess

/-! The contract tool on one observed response. The expectation and its alternatives are tried in
order, and the first whose status takes the code decides by headers and body. -/
namespace RedfishCtl.ContractTool
open Actions (noAttribute typeName)
open JsonAccess (getOr get iterate)
open Json (pyEq)

/- isinstance(value, int), which truth values are. -/
def asInt : Json → Option Int
  | .int n => some n
  | .bool b => some (if b then 1 else 0)
  | _ => none

def orList (j : Json) : Json := if j.truthy then j else .arr []

def within (needle : Json) : Json → Except PyError Bool
  | .arr items => .ok (items.any fun item => pyEq item needle)
  | .obj m => .ok (m.any fun p => pyEq (.str p.1) needle)
  | .str text => match needle with
      | .str part => .ok (decide (part.toList <:+: text.toList))
      | other => .error (.typeError
          ("'in <string>' requires string as left operand, not " ++ typeName other))
  | j => .error (.typeError ("argument of type '" ++ typeName j ++ "' is not iterable"))

def codeClass (n : Int) : String := toString (n / 100) ++ "xx"

def statusNodeAccepts (node code : Json) (n : Int) : Except PyError Bool := do
  let accept ← getOr node "accept" (.obj [])
  let matcher ← get accept "matcher"
  let values ← getOr accept "values" (.arr [])
  match matcher with
  | .str "exact" => within code (orList values)
  | .str "one_of" => within code (orList values)
  | .str "class" => within (.str (codeClass n)) (orList values)
  | .str "derived" => do
      let required ← get accept "requiredClass"
      .ok (pyEq required (.str (codeClass n)))
  | .arr _ => .error (.typeError "unhashable type: 'list'")
  | .obj _ => .error (.typeError "unhashable type: 'dict'")
  | _ => .ok false

def demands (presence : String) (contract : Json) : Bool :=
  contract.get? "presence" = some (.str presence)

def items : Json → Except PyError (List (String × Json))
  | .obj m => .ok m
  | j => .error (noAttribute j "items")

def bodyContract (expectation code : Json) : Json :=
  let body := (expectation.get? "body").getD .null
  match expectation.get? "bodyByStatus" with
  | some (.obj m) => (m.lookup (PyText.str code)).getD body
  | _ => body

def bodyMatches (contract response : Json) : Bool :=
  let present := decide ((response.get? "body").getD .null ≠ .null)
  !(demands "required" contract && !present) && !(demands "forbidden" contract && present)

section
variable (lower : String → String) (response : Json)

def responseShapeMatches (expectation code : Json) : Except PyError Bool := do
  let actual ← items (← getOr response "headers" (.obj []))
  let contracts ← items (← getOr expectation "headers" (.obj []))
  if contracts.any fun p =>
      demands "required" p.2 && !(actual.map fun q => lower q.1).contains (lower p.1) then .ok false
  else .ok (bodyMatches (bodyContract expectation code) response)

def candidates (rule : Json) : Except PyError (List Json) := do
  let expect ← getOr rule "expect" (.obj [])
  let alternatives ← getOr expect "alternatives" (.arr [])
  match iterate (orList alternatives) with
  | .ok others => .ok (expect::others)
  | .error _ => .error (.typeError
      ("Value after * must be an iterable, not " ++ typeName alternatives))

section
variable (code : Json) (n : Int)

def statusAccepts (candidate : Json) : Except PyError Bool := do
  let status ← get candidate "status"
  if status.isObj then statusNodeAccepts status code n else .ok false

def firstDecides : List Json → Except PyError Bool
  | [] => .ok false
  | candidate::rest => do
      if ← statusAccepts code n candidate then responseShapeMatches lower response candidate code
      else firstDecides rest

def AcceptsBoth (candidate : Json) : Prop :=
  statusAccepts code n candidate = .ok true ∧
    responseShapeMatches lower response candidate code = .ok true

/- Before the first candidate that takes everything each rejects the status. -/
def Unhidden : List Json → Prop
  | [] => True
  | candidate::rest => AcceptsBoth lower response code n candidate ∨
      statusAccepts code n candidate = .ok false ∧ Unhidden rest ∨
      ∀ later ∈ rest, ¬ AcceptsBoth lower response code n later

end

def responseAccepts (rule : Json) : Except PyError Bool := do
  let code ← get response "status"
  match asInt code with
  | none => .ok false
  | some n => do firstDecides lower response code n (← candidates rule)

section
variable {lower response} {code : Json} {n : Int} {candidate : Json} {rest : List Json}

theorem firstCons : firstDecides lower response code n (candidate::rest) = .ok true ↔
    AcceptsBoth lower response code n candidate ∨
      statusAccepts code n candidate = .ok false ∧ firstDecides lower response code n rest = .ok true := by
  unfold AcceptsBoth
  rw [firstDecides]
  cases statusAccepts code n candidate with
  | error e => simp [bind,Except.bind]
  | ok accepted => cases accepted <;> simp [bind,Except.bind]

theorem firstSome (first : firstDecides lower response code n rest = .ok true) :
    ∃ c ∈ rest, AcceptsBoth lower response code n c := by
  induction rest with
  | nil => cases first
  | cons candidate rest ih =>
    rw [List.exists_mem_cons_iff]
    exact (firstCons.mp first).imp_right fun later => ih later.2

theorem firstExact (cs : List Json) :
    (firstDecides lower response code n cs = .ok true ↔
      ∃ c ∈ cs, AcceptsBoth lower response code n c) ↔ Unhidden lower response code n cs := by
  induction cs with
  | nil => simp [firstDecides,Unhidden]
  | cons candidate rest ih =>
    rw [firstCons,List.exists_mem_cons_iff,Unhidden]
    by_cases both : AcceptsBoth lower response code n candidate
    · simp [both]
    by_cases passed : statusAccepts code n candidate = .ok false
    · -- Without a candidate that takes everything the rest is unhidden as well.
      have nothing (none : ∀ later ∈ rest, ¬ AcceptsBoth lower response code n later) :
          Unhidden lower response code n rest :=
        ih.mp ⟨firstSome,fun ⟨c,mem,takes⟩ => absurd takes (none c mem)⟩
      simp only [both,passed,false_or,true_and,ih]
      exact (or_iff_left_of_imp nothing).symm
    · simp [both,passed]

end

section
variable (rule : Json)

/- The status code of the response and the candidates of the rule, if both can be read. -/
def tried : Option (Json × Int × List Json) :=
  match get response "status" with
  | .error _ => none
  | .ok code => match asInt code, candidates rule with
      | some n, .ok cs => some (code,n,cs)
      | _, _ => none

def SomeAccepts : Prop :=
  match tried response rule with
  | none => False
  | some (code,n,cs) => ∃ c ∈ cs, AcceptsBoth lower response code n c

def NoneHidden : Prop :=
  match tried response rule with
  | none => True
  | some (code,n,cs) => Unhidden lower response code n cs

theorem acceptanceOrder :
    (responseAccepts lower response rule = .ok true ↔ SomeAccepts lower response rule) ↔
      NoneHidden lower response rule := by
  unfold responseAccepts SomeAccepts NoneHidden tried
  cases get response "status" with
  | error e => simp [bind,Except.bind]
  | ok code =>
    cases whole : asInt code with
    | none => simp [bind,Except.bind,whole]
    | some n =>
      cases candidates rule with
      | error e => simp [bind,Except.bind,whole]
      | ok cs =>
        simp only [bind,Except.bind,whole]
        exact firstExact cs

end
end

def accepting (headers : List (String × Json)) : Json :=
  .obj [("status",.obj [("accept",.obj [("matcher",.str "exact"),("values",.arr [.int 200])])]),
    ("headers",.obj headers)]

def tagged : Json := accepting [("ETag",.obj [("presence",.str "required")])]

def ruleOf (alternatives : List Json) : Json :=
  .obj [("expect",.obj [("alternatives",.arr alternatives)])]

def bare : Json := .obj [("status",.int 200)]

theorem alternativesOrdered : responseAccepts id bare (ruleOf [tagged,accepting []]) = .ok false ∧
    SomeAccepts id bare (ruleOf [tagged,accepting []]) ∧
    responseAccepts id bare (ruleOf [accepting [],tagged]) = .ok true := by
  have both : AcceptsBoth id bare (.int 200) 200 (accepting []) := ⟨by decide,by decide⟩
  refine ⟨by decide,⟨accepting [],?_,both⟩,by decide⟩
  simp

end RedfishCtl.ContractTool
