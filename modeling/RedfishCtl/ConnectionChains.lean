import RedfishCtl.Connection
import RedfishCtl.HttpOrigin

/-! Where the requests of nested commands go. Every `sync_invoke` constructs the next command from
the text of the authority, so a chain keeps the authority of its first manager; the token is not
forwarded. -/
namespace RedfishCtl.ConnectionChains
open HttpOrigin (defaultPort hostPort hostPortName origin originRead portInt scheme special)
open Connection (forwarded len nested redfishIp request)

open Connection (Arguments Authentication HttpRequest truth)

structure Manager where
  host : String
  username : String
  password : String
  port : Int
  isHttp : Bool
  insecure : Bool
  xAuth : Option String
  deriving DecidableEq, Repr

structure Destination where
  https : Bool
  host : String
  port : Int
  auth : Authentication
  verify : Bool
  deriving DecidableEq, Repr

def destination (r : HttpRequest) : Option Destination :=
  (origin r.url).map fun o => ⟨o.https,o.host,o.port,r.auth,r.verify⟩

namespace Manager

def arguments (m : Manager) : Arguments :=
  ⟨some (some m.host),some (some m.username),some (some m.password),some (.number m.port),
    some (some m.insecure),some (some m.isHttp),some m.xAuth⟩

def connection (m : Manager) : Connection :=
  ⟨some m.host,some m.username,some m.password,some m.port,!m.insecure,m.xAuth,some m.isHttp⟩

def configured (m : Manager) : Destination where
  https := !m.isHttp
  host := m.host
  port := m.port
  auth := match m.xAuth with
    | some token => .token token
    | none => .basic m.username m.password
  verify := !m.insecure

def authority (m : Manager) : String :=
  if m.host.toList.contains ':' then m.host
  else if m.port ≠ 0 ∧ m.port ≠ 443 then m.host ++ ":" ++ toString m.port else m.host

def dispatched (m : Manager) : Manager := { m with host := m.authority, xAuth := none }

theorem redfishIpAuthority (m : Manager) : m.connection.redfishIp = .ok m.authority := by
  simp only [connection,redfishIp,authority]
  split <;> rfl

theorem authorityAgain (m : Manager) : m.dispatched.authority = m.authority := by
  have again (text : String) (colon : text.toList.contains ':') :
      ({ m with host := text } : Manager).authority = text := by
    simp only [authority,colon,if_true]
  unfold dispatched
  by_cases colon : m.host.toList.contains ':'
  · have same : m.authority = m.host := by simp only [authority,colon,if_true]
    rw [same]
    exact again m.host colon
  by_cases suffix : m.port ≠ 0 ∧ m.port ≠ 443
  · have same : m.authority = m.host ++ ":" ++ toString m.port := by
      simp only [authority,if_neg colon,if_pos suffix]
    rw [same]
    exact again _ (by simp)
  · have same : m.authority = m.host := by
      simp only [authority,if_neg colon,if_neg suffix]
    simp only [authority,if_neg colon,if_neg suffix]

theorem dispatchedAgain (m : Manager) : m.dispatched.dispatched = m.dispatched := by
  have same := authorityAgain m
  unfold dispatched at same ⊢
  rw [same]

structure Ready (m : Manager) : Prop where
  username : m.username ≠ ""
  password : m.password ≠ ""
  authority : m.authority ≠ ""

theorem lengthNonzero {text} (nonempty : text ≠ "") : ¬ text.length = 0 := by
  simpa using nonempty

variable {m : Manager}

theorem forwardedReady (ready : m.Ready) :
    m.connection.forwarded = .ok { m.dispatched.arguments with xAuth := none } := by
  have ip := redfishIpAuthority m
  have username : len m.connection.username = .ok m.username.length := rfl
  have password : len m.connection.password = .ok m.password.length := rfl
  simp only [forwarded,username,password,ip,bind,Except.bind,
    if_neg (lengthNonzero ready.username),if_neg (lengthNonzero ready.password),
    if_neg (lengthNonzero ready.authority)]
  simp [connection,dispatched,arguments]

theorem syncInvokeReady (ready : m.Ready) :
    m.connection.syncInvoke = .ok m.dispatched.connection := by
  rw [Connection.syncInvoke,forwardedReady ready]
  rfl

theorem dispatchedReady (ready : m.Ready) : m.dispatched.Ready where
  username := ready.username
  password := ready.password
  authority := by
    rw [authorityAgain]
    exact ready.authority

theorem nestedReady (ready : m.Ready) (n : Nat) :
    nested (n+1) m.connection = .ok m.dispatched.connection := by
  induction n generalizing m with
  | zero =>
    rw [nested,syncInvokeReady ready]
    rfl
  | succ n ih =>
    rw [nested,syncInvokeReady ready]
    change nested (n+1) m.dispatched.connection = _
    rw [ih (dispatchedReady ready),dispatchedAgain]

theorem requestDispatched (m : Manager) (resource : String) :
    m.dispatched.connection.request resource =
      .ok ⟨scheme (!m.isHttp) ++ m.authority ++ resource,
        .basic m.username m.password,!m.insecure⟩ := by
  rw [request,redfishIpAuthority,authorityAgain]
  cases http : m.isHttp <;>
    simp [bind,Except.bind,connection,dispatched,Connection.defaultMethod,truth,http, scheme]

theorem nestedDestination (ready : m.Ready) (n : Nat) (path : String)
    (expected : Destination) :
    (∃ c r, nested (n+1) m.connection = .ok c ∧ c.request ("/" ++ path) = .ok r ∧
      destination r = some expected) ↔
    destination ⟨scheme (!m.isHttp) ++ m.authority ++ ("/" ++ path),
      .basic m.username m.password,!m.insecure⟩ = some expected := by
  constructor
  · rintro ⟨c,r,chain,sent,reached⟩
    rw [nestedReady ready] at chain
    cases chain
    rw [requestDispatched] at sent
    cases sent
    exact reached
  · intro reached
    exact ⟨_,_,nestedReady ready n,requestDispatched m _,reached⟩

theorem nameColon {host} (name : HttpOrigin.Name host) : ¬ host.toList.contains ':' = true := by
  simp only [List.contains_eq_mem,decide_eq_true_eq]
  exact fun mem => (name.clear _ mem).2 rfl

theorem literalColon {host} (literal : HttpOrigin.Literal host) : host.toList.contains ':' = true := by
  have twice := literal.1
  simp only [List.contains_eq_mem,decide_eq_true_eq]
  exact List.count_pos_iff.mp (by omega)

theorem originLiteral (literal : HttpOrigin.Literal m.host) (https : Bool) (path : String) :
    origin (scheme https ++ m.authority ++ ("/" ++ path)) = none := by
  rw [authority,if_pos (literalColon literal),originRead https _ _ literal.clear,
    HttpOrigin.hostPortLiteral literal]
  rfl

def authorityPort (m : Manager) (https : Bool) : Option Int :=
  if m.port ≠ 0 ∧ m.port ≠ 443 then if 0 ≤ m.port ∧ m.port < 65536 then some m.port else none
  else some (defaultPort https)

theorem originName (name : HttpOrigin.Name m.host) (https : Bool) (path : String) :
    (origin (scheme https ++ m.authority ++ ("/" ++ path))).map
      (fun o => (o.https,o.host,(o.port : Int))) =
    (m.authorityPort https).map fun port => (https,m.host,port) := by
  have clear : ∀ c ∈ m.host.toList, !special c := fun c mem => (name.clear c mem).1
  rw [authority,if_neg (nameColon name),authorityPort]
  by_cases suffix : m.port ≠ 0 ∧ m.port ≠ 443
  · have chars : (m.host ++ ":" ++ toString m.port).toList =
        m.host.toList ++ ':' :: (toString m.port).toList := by
      simp
    have whole : ∀ c ∈ (m.host ++ ":" ++ toString m.port).toList, !special c := by
      intro c mem
      rw [chars] at mem
      rcases List.mem_append.mp mem with inHost | inPort
      · exact clear c inHost
      · rcases List.mem_cons.mp inPort with rfl | digit
        · decide
        · exact HttpOrigin.intOrdinary _ c digit
    rw [if_pos suffix,originRead https _ _ whole,chars,
      hostPortName name _ (by simp),portInt]
    split
    · rename_i range
      simp [Int.toNat_of_nonneg range.1]
    · rfl
  · rw [if_neg suffix,if_neg suffix,originRead https _ _ clear]
    have bare : hostPort (defaultPort https) (m.host.toList ++ []) =
        some (m.host,defaultPort https) := hostPortName name _ (by simp)
    rw [List.append_nil] at bare
    rw [bare]
    rfl

theorem authorityPortExact (m : Manager) : m.authorityPort (!m.isHttp) = some m.port ↔
    0 < m.port ∧ m.port < 65536 ∧ (m.port = 443 → m.isHttp = false) := by
  unfold authorityPort defaultPort
  split
  · rename_i suffix
    constructor
    · intro same
      split at same
      · rename_i range
        exact ⟨by omega,range.2,fun default => absurd default suffix.2⟩
      · cases same
    · rintro ⟨positive,small,_⟩
      rw [if_pos ⟨by omega,small⟩]
  · rename_i bare
    have cases' : m.port = 0 ∨ m.port = 443 := by omega
    rcases cases' with zero | default
    · rw [zero]
      cases m.isHttp <;> simp
    · rw [default]
      cases m.isHttp <;> simp

theorem destinationName (name : HttpOrigin.Name m.host) (path : String) :
    destination ⟨scheme (!m.isHttp) ++ m.authority ++ ("/" ++ path),
      .basic m.username m.password,!m.insecure⟩ = some m.configured ↔
    m.xAuth = none ∧ 0 < m.port ∧ m.port < 65536 ∧ (m.port = 443 → m.isHttp = false) := by
  rw [← authorityPortExact]
  have read := originName name (!m.isHttp) path
  unfold destination
  cases found : origin (scheme (!m.isHttp) ++ m.authority ++ ("/" ++ path)) with
  | none =>
    rw [found,Option.map_none,eq_comm,Option.map_eq_none_iff] at read
    simp [read]
  | some o =>
    rw [found,Option.map_some,eq_comm,Option.map_eq_some_iff] at read
    obtain ⟨port,known,same⟩ := read
    simp only [Prod.mk.injEq] at same
    obtain ⟨https,host,number⟩ := same
    simp only [known,Option.map_some,← https,← host,← number]
    cases token : m.xAuth <;> simp [configured,token]

theorem readyOf (username : m.username ≠ "") (password : m.password ≠ "")
    (host : HttpOrigin.Name m.host ∨ HttpOrigin.Literal m.host) : m.Ready := by
  refine ⟨username,password,?_⟩
  unfold authority
  rcases host with name | literal
  · rw [if_neg (nameColon name)]
    split
    · simp
    · exact name.1
  · rw [if_pos (literalColon literal)]
    intro empty
    have twice := literal.1
    simp [empty] at twice

/- Every request of every nested command reaches what the first manager is configured to reach
exactly when the manager has no token, its host is not an IPv6 address, and its port is a TCP port
other than 443 over plain HTTP. -/
theorem connectionPreserved (m : Manager) (username : m.username ≠ "")
    (password : m.password ≠ "") (host : HttpOrigin.Name m.host ∨ HttpOrigin.Literal m.host) :
    (∀ n path, ∃ c r, nested (n+1) m.connection = .ok c ∧
      c.request ("/" ++ path) = .ok r ∧ destination r = some m.configured) ↔
    HttpOrigin.Name m.host ∧ m.xAuth = none ∧ 0 < m.port ∧ m.port < 65536 ∧
      (m.port = 443 → m.isHttp = false) := by
  have ready := readyOf username password host
  simp only [nestedDestination ready]
  constructor
  · intro reached
    rcases host with name | literal
    · exact ⟨name,(destinationName name "").mp (reached 0 "")⟩
    · have lost := reached 0 ""
      rw [destination,originLiteral literal] at lost
      cases lost
  · rintro ⟨name,settings⟩ _ path
    exact (destinationName name path).mpr settings

namespace Sample

def bmc : Manager := ⟨"bmc","root","calvin",8443,false,true,none⟩

end Sample

theorem connectionPreservedBmc :
    Sample.bmc.configured = ⟨true,"bmc",8443,.basic "root" "calvin",false⟩ ∧
    ∀ n path, ∃ c r, nested (n+1) Sample.bmc.connection = .ok c ∧
      c.request ("/" ++ path) = .ok r ∧ destination r = some Sample.bmc.configured :=
  ⟨rfl,(connectionPreserved Sample.bmc (by decide) (by decide) (.inl (by decide +kernel))).mpr
    (by decide +kernel)⟩

theorem connectionLost : let sent (m : Manager) := do
      let c ← nested 1 m.connection
      c.request "/redfish/v1"
    let token : Manager := { Sample.bmc with xAuth := some "t0ken" }
    let address : Manager := { Sample.bmc with host := "fe80::1" }
    let plain : Manager := { Sample.bmc with port := 443, isHttp := true }
    sent token = .ok ⟨"https://bmc:8443/redfish/v1",.basic "root" "calvin",false⟩ ∧
    token.configured.auth = .token "t0ken" ∧
    sent address = .ok ⟨"https://fe80::1/redfish/v1",.basic "root" "calvin",false⟩ ∧
    origin "https://fe80::1/redfish/v1" = none ∧
    sent plain = .ok ⟨"http://bmc/redfish/v1",.basic "root" "calvin",false⟩ ∧
    origin "http://bmc/redfish/v1" = some ⟨false,"bmc",80⟩ := by
  decide +kernel

end Manager

end RedfishCtl.ConnectionChains
