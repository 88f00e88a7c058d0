import RedfishCtl.Connection
import RedfishCtl.DoubleChecked
import RedfishCtl.Sha256

/-! One command instance per class and connection. The table key is made of the raw keyword
arguments, the connection of the normalised ones, each with defaults of its own. -/
namespace RedfishCtl.Singleton
open Connection (init initOk)
open DoubleChecked (returnedBuilt sameObject soundRun start step)

open Connection (Arguments Effective Port truth)

variable {γ : Type}

structure Construction (γ : Type) where
  cls : γ
  arguments : Arguments
  deriving DecidableEq, Repr

structure ConnectionKey (γ : Type) where
  cls : γ
  host : Option String
  username : Option String
  password : String
  port : Port
  isHttp : Bool
  insecure : Bool
  xAuth : String
  deriving DecidableEq, Repr

def textOr (value : Option String) : String := value.getD ""

def passwordText (a : Arguments) : String := textOr (a.password.getD (some ""))

def passwordDigest (a : Arguments) : String := Sha256.hexdigest (passwordText a).toUTF8.toList

def connectionKey (call : Construction γ) : ConnectionKey γ where
  cls := call.cls
  host := call.arguments.host.getD (some "")
  username := call.arguments.username.getD (some "")
  password := passwordDigest call.arguments
  port := call.arguments.port.getD (.number 443)
  isHttp := truth (call.arguments.isHttp.getD (some false))
  insecure := truth (call.arguments.insecure.getD (some true))
  xAuth := textOr (call.arguments.xAuth.getD (some ""))

def builds (call : Construction γ) : Bool := (init call.arguments).isOk

def constructed [DecidableEq γ] (calls : Nat → Construction γ) (schedule : List Nat) :
    DoubleChecked.State (ConnectionKey γ) :=
  Runs.run (step (fun i => connectionKey (calls i)) (fun i => builds (calls i))) start schedule

/- Two constructions that write nothing in one of the ways in which key and connection differ: user
name, password and token are omitted, `None` or empty in both or neither, save where the two agree,
and a port number is in one form. -/
structure Compatible (a b : Arguments) : Prop where
  username : (a.username = none ↔ b.username = none) ∨
    ∀ u ∈ [a.username,b.username], u ≠ some (some "") ∧ u ≠ some (some "root")
  password : (a.password = some none ↔ b.password = some none) ∨
    ∀ p ∈ [a.password,b.password], p ≠ none ∧ p ≠ some (some "")
  port : (a.port.getD (.number 443)).value = (b.port.getD (.number 443)).value →
    a.port.getD (.number 443) = b.port.getD (.number 443)
  xAuth : (a.xAuth = some (some "") ↔ b.xAuth = some (some "")) ∨
    ∀ t ∈ [a.xAuth,b.xAuth], t ≠ none ∧ t ≠ some none

variable {x y : Option (Option String)}

theorem usernameAgree (clear : (x = none ↔ y = none) ∨
    ∀ u ∈ [x,y], u ≠ some (some "") ∧ u ≠ some (some "root")) :
    x.getD (some "") = y.getD (some "") ↔ x.getD (some "root") = y.getD (some "root") := by
  cases x with
  | none =>
    cases y with
    | none => simp
    | some v => simp_all [eq_comm]
  | some u =>
    cases y with
    | none => simp_all
    | some v => exact Iff.rfl

theorem textOrCases {u v} (same : textOr u = textOr v) :
    u = v ∨ (u = none ∧ v = some "") ∨ (u = some "" ∧ v = none) := by
  cases u with
  | none =>
    cases v with
    | none => exact .inl rfl
    | some t => exact .inr (.inl ⟨rfl,congrArg some same.symm⟩)
  | some s =>
    cases v with
    | none => exact .inr (.inr ⟨congrArg some same,rfl⟩)
    | some t => exact .inl (congrArg some same)

theorem passwordAgree (clear : (x = some none ↔ y = some none) ∨
    ∀ p ∈ [x,y], p ≠ none ∧ p ≠ some (some "")) :
    textOr (x.getD (some "")) = textOr (y.getD (some "")) ↔
      x.getD (some "") = y.getD (some "") := by
  refine ⟨fun same => ?_,congrArg textOr⟩
  -- The texts agree and the values do not only where one is None and the other empty.
  rcases textOrCases same with equal | ⟨left,right⟩ | ⟨left,right⟩
  · exact equal
  · rcases x with _ | x <;> rcases y with _ | y <;> simp_all
  · rcases x with _ | x <;> rcases y with _ | y <;> simp_all

theorem tokenAgree (clear : (x = some (some "") ↔ y = some (some "")) ∨
      ∀ t ∈ [x,y], t ≠ none ∧ t ≠ some none) :
    textOr (x.getD (some "")) = textOr (y.getD (some "")) ↔ x.getD none = y.getD none := by
  have text (t : Option (Option String)) : textOr (t.getD (some "")) = textOr (t.getD none) := by
    cases t <;> rfl
  rw [text,text]
  refine ⟨fun same => ?_,congrArg textOr⟩
  rcases textOrCases same with equal | ⟨left,right⟩ | ⟨left,right⟩
  · exact equal
  · rcases x with _ | x <;> rcases y with _ | y <;> simp_all
  · rcases x with _ | x <;> rcases y with _ | y <;> simp_all

theorem keyExact {a b : Construction γ} {c d} (first : init a.arguments = .ok c)
    (second : init b.arguments = .ok d) (compatible : Compatible a.arguments b.arguments)
    (digests : passwordDigest a.arguments = passwordDigest b.arguments →
      passwordText a.arguments = passwordText b.arguments) :
    connectionKey a = connectionKey b ↔ a.cls = b.cls ∧ c.effective = d.effective := by
  obtain ⟨portA,fieldsA⟩ := initOk first
  obtain ⟨portB,fieldsB⟩ := initOk second
  have password : passwordDigest a.arguments = passwordDigest b.arguments ↔
      a.arguments.password.getD (some "") = b.arguments.password.getD (some "") :=
    ⟨fun same => (passwordAgree compatible.password).mp (digests same),
      fun same => by rw [passwordDigest,passwordText,same]; rfl⟩
  have port : a.arguments.port.getD (.number 443) = b.arguments.port.getD (.number 443) ↔
      c.port = d.port := by
    constructor
    · intro same
      rw [same,portB] at portA
      exact (Except.ok.inj portA).symm
    · intro same
      exact compatible.port (by rw [portA,portB,same])
  rw [fieldsA,fieldsB]
  simp [connectionKey,ConnectionKey.mk.injEq,Effective.mk.injEq,usernameAgree compatible.username,password,port,tokenAgree compatible.xAuth]

theorem builtOk {a : Construction γ} (built : builds a) : ∃ c, init a.arguments = .ok c := by
  unfold builds at built
  cases done : init a.arguments with
  | error e =>
    rw [done] at built
    cases built
  | ok c => exact ⟨c,rfl⟩

theorem keyBuilds {a b : Construction γ} (same : connectionKey a = connectionKey b)
    (built : builds b) : ∃ c, init a.arguments = .ok c := by
  obtain ⟨c,done⟩ := builtOk built
  have port : a.arguments.port.getD (.number 443) = b.arguments.port.getD (.number 443) :=
    congrArg ConnectionKey.port same
  exact Connection.initOfPort (port ▸ (initOk done).1)

/- In every interleaving two constructions give the same instance exactly when they name one class
and one connection. -/
theorem onePerConnection [DecidableEq γ] (calls : Nat → Construction γ) (schedule : List Nat)
    {i j n m : Nat} (first : (constructed calls schedule).phase i = .done (some n))
    (second : (constructed calls schedule).phase j = .done (some m))
    (compatible : Compatible (calls i).arguments (calls j).arguments)
    (digests : passwordDigest (calls i).arguments = passwordDigest (calls j).arguments →
      passwordText (calls i).arguments = passwordText (calls j).arguments) :
    ∃ c d, init (calls i).arguments = .ok c ∧ init (calls j).arguments = .ok d ∧
      (n = m ↔ (calls i).cls = (calls j).cls ∧ c.effective = d.effective) := by
  have sound : DoubleChecked.Sound (fun i => connectionKey (calls i)) (fun i => builds (calls i))
      (constructed calls schedule) := soundRun schedule
  obtain ⟨i',sameI,builtI⟩ := returnedBuilt sound first
  obtain ⟨j',sameJ,builtJ⟩ := returnedBuilt sound second
  obtain ⟨c,doneI⟩ := keyBuilds sameI.symm builtI
  obtain ⟨d,doneJ⟩ := keyBuilds sameJ.symm builtJ
  refine ⟨c,d,doneI,doneJ,?_⟩
  rw [sameObject sound first second]
  exact keyExact doneI doneJ compatible digests

namespace Sample

def command (username : Option String) (port : Option Connection.Port) : Construction String :=
  ⟨"ChassisQuery",⟨some (some "bmc"),username.map some,some (some "calvin"),port,none,none,none⟩⟩

def ports : Nat → Construction String
  | 0 => command (some "root") none
  | _ => command (some "root") (some (.number 443))

def race : List Nat := [0,1,0,1,0,0,1,0,0,1,1,1]

def users : Nat → Construction String
  | 0 => command none none
  | 1 => command (some "root") none
  | _ => command (some "") none

def inTurn : List Nat := List.replicate 6 0 ++ List.replicate 6 1 ++ List.replicate 6 2

def effective (call : Construction String) : Except PyError Effective :=
  (init call.arguments).map Connection.effective

end Sample

theorem onePerConnectionRaced : (constructed Sample.ports Sample.race).phase 0 = .done (some 0) ∧
    (constructed Sample.ports Sample.race).phase 1 = .done (some 0) ∧
    ∃ c d, init (Sample.ports 0).arguments = .ok c ∧ init (Sample.ports 1).arguments = .ok d ∧
      (0 = 0 ↔ (Sample.ports 0).cls = (Sample.ports 1).cls ∧ c.effective = d.effective) := by
  have first : (constructed Sample.ports Sample.race).phase 0 = .done (some 0) := by
    decide +kernel
  have second : (constructed Sample.ports Sample.race).phase 1 = .done (some 0) := by
    decide +kernel
  have compatible : Compatible (Sample.ports 0).arguments (Sample.ports 1).arguments :=
    ⟨.inl (by decide),.inl (by decide),by decide,.inl (by decide)⟩
  exact ⟨first,second,onePerConnection _ _ first second compatible fun _ => rfl⟩

theorem connectionsConfused : (constructed Sample.users Sample.inTurn).phase 0 = .done (some 0) ∧
    (constructed Sample.users Sample.inTurn).phase 1 = .done (some 1) ∧
    (constructed Sample.users Sample.inTurn).phase 2 = .done (some 0) ∧
    Sample.effective (Sample.users 0) = Sample.effective (Sample.users 1) ∧
    Sample.effective (Sample.users 0) ≠ Sample.effective (Sample.users 2) := by
  decide +kernel

end RedfishCtl.Singleton
