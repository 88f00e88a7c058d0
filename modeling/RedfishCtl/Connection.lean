import RedfishCtl.PyText
import RedfishCtl.Stateful

/-! The connection of a manager: the keyword arguments of its construction, the fields `__init__`
sets, the authority of its request URLs, and what `sync_invoke` forwards. -/
namespace RedfishCtl

structure Connection where
  host : Option String
  username : Option String
  password : Option String
  port : Option Int
  isVerifyCert : Bool
  xAuth : Option String
  isHttp : Option Bool
  deriving DecidableEq, Repr

namespace Connection

inductive Port where
  | none
  | number (n : Int)
  | text (s : String)
  deriving DecidableEq, Repr

/- The keyword arguments of a construction: none where omitted, and some none for `None`. -/
structure Arguments where
  host : Option (Option String)
  username : Option (Option String)
  password : Option (Option String)
  port : Option Port
  insecure : Option (Option Bool)
  isHttp : Option (Option Bool)
  xAuth : Option (Option String)
  deriving DecidableEq, Repr

structure Effective where
  host : Option String
  username : Option String
  password : Option String
  port : Option Int
  isHttp : Bool
  insecure : Bool
  xAuth : Option String
  deriving DecidableEq, Repr

def Port.value : Port → Except PyError (Option Int)
  | .none => .ok Option.none
  | .number n => .ok (some n)
  | .text s => (PyText.int (.str s)).map some

def truth (flag : Option Bool) : Bool := flag.getD false

def init (a : Arguments) : Except PyError Connection := do
  let port ← (a.port.getD (.number 443)).value
  .ok {
    host := a.host.getD (some "")
    username := a.username.getD (some "root")
    password := a.password.getD (some "")
    port := port
    isVerifyCert := !truth (a.insecure.getD (some true))
    xAuth := a.xAuth.getD none
    isHttp := a.isHttp.getD (some false) }

def effective (c : Connection) : Effective where
  host := c.host
  username := c.username
  password := c.password
  port := c.port
  isHttp := truth c.isHttp
  insecure := !c.isVerifyCert
  xAuth := c.xAuth

theorem initOk {a c} (done : init a = .ok c) : (a.port.getD (.number 443)).value = .ok c.port ∧
    c.effective = ⟨a.host.getD (some ""),a.username.getD (some "root"),
      a.password.getD (some ""),c.port,truth (a.isHttp.getD (some false)),
      truth (a.insecure.getD (some true)),a.xAuth.getD none⟩ := by
  obtain ⟨port,value,done⟩ := Stateful.okOfBind done
  cases done
  exact ⟨value,by simp [effective]⟩

theorem initOfPort {a port} (value : (a.port.getD (.number 443)).value = .ok port) :
    ∃ c, init a = .ok c := by
  rw [init,value]
  exact ⟨_,rfl⟩

def redfishIp (c : Connection) : Except PyError String :=
  match c.host with
  | none => .error (.typeError "argument of type 'NoneType' is not iterable")
  | some host =>
    if host.toList.contains ':' then .ok host
    else
      match c.port with
      | none => .ok host
      | some n => .ok (if n ≠ 0 ∧ n ≠ 443 then host ++ ":" ++ toString n else host)

def len (value : Option String) : Except PyError Nat :=
  match value with
  | none => .error (.typeError "object of type 'NoneType' has no len()")
  | some text => .ok text.length

def forwarded (c : Connection) : Except PyError Arguments := do
  if (← len c.username) = 0 then throw (.valueError "Username is empty string.")
  if (← len c.password) = 0 then throw (.valueError "Password is empty string.")
  let redfishHost ← c.redfishIp
  if redfishHost.length = 0 then throw (.valueError "Redfish host is empty string.")
  .ok {
    host := some (some redfishHost)
    username := some c.username
    password := some c.password
    port := some (match c.port with | none => .none | some n => .number n)
    insecure := some (some (!c.isVerifyCert))
    isHttp := some c.isHttp
    xAuth := none }

def syncInvoke (c : Connection) : Except PyError Connection := do
  let a ← c.forwarded
  init a

def nested : Nat → Connection → Except PyError Connection
  | 0, c => .ok c
  | n+1, c => do
    let dispatched ← c.syncInvoke
    nested n dispatched

inductive Authentication where
  | token (xAuth : String)
  | basic (username password : Option String)
  deriving DecidableEq, Repr

structure HttpRequest where
  url : String
  auth : Authentication
  verify : Bool
  deriving DecidableEq, Repr

def defaultMethod (c : Connection) : String := if truth c.isHttp then "http://" else "https://"

def request (c : Connection) (resource : String) : Except PyError HttpRequest := do
  let redfishIp ← c.redfishIp
  .ok {
    url := c.defaultMethod ++ redfishIp ++ resource
    auth := match c.xAuth with
      | some token => .token token
      | none => .basic c.username c.password
    verify := c.isVerifyCert }

end Connection

end RedfishCtl
