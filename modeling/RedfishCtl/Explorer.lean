import RedfishCtl.PyUrl

/-! The invoke request of the explorer: one POST, from its path, header and body to what is sent. -/
namespace RedfishCtl.Explorer
open PyUrl (urlsplitPath)

structure CommandEntry where
  command : String
  api : String

inductive Loaded where
  | document (payload : Json)
  | decodeError
  | raised (e : PyError)

/- An exception with its text, or a result that json.dumps takes or refuses. -/
inductive Invoked where
  | raised (text : String)
  | result (document : Json)
  | unserialisable (text : String)

/- json.loads on bytes, the catalogue, and what its commands come to. -/
structure Server where
  loads : List UInt8 → Loaded
  catalog : List CommandEntry
  invoke : CommandEntry → Invoked

structure Post where
  path : String
  contentLength : Option String
  read : Int → List UInt8

structure Response where
  code : Nat
  body : Json

/- What one call of do_POST sends, lets out, and dispatches. -/
structure Handled where
  sent : List Response
  raised : Option PyError
  dispatched : Option String

namespace Server

def answer (code : Nat) (body : Json) : Handled := ⟨[⟨code,body⟩],none,none⟩

def resolve (server : Server) (command : String) : Option CommandEntry :=
  server.catalog.find? fun entry => entry.command = command

def commandOf (payload : List (String × Json)) : String :=
  match payload.lookup "command" with
  | none => ""
  | some value => if value.truthy then PyText.str value else ""

def failed (entry : CommandEntry) (text : String) : Response :=
  ⟨502,.obj [("ok",.bool false),("error",.str text),("api",.str entry.api),("data",.null)]⟩

def run (server : Server) (entry : CommandEntry) : Handled :=
  match server.invoke entry with
  | .raised text => ⟨[failed entry text],none,some entry.command⟩
  | .unserialisable text => ⟨[failed entry text],none,some entry.command⟩
  | .result document => ⟨[⟨200,document⟩],none,some entry.command⟩

def length (post : Post) : Option Int :=
  match post.contentLength with
  | none => some 0
  | some text => if text = "" then some 0 else PyText.intOfString text

def loaded (server : Server) (post : Post) (n : Int) : Loaded :=
  server.loads (if post.read n = [] then [123,125] else post.read n)

def invoked (server : Server) : Json → Handled
  | .obj payload => match server.resolve (commandOf payload) with
      | none => answer 400
          (.obj [("error",.str ("command not allow-listed: " ++ commandOf payload))])
      | some entry => server.run entry
  | _ => ⟨[],some (.other "AttributeError" "object has no attribute 'get'"),none⟩

def isInvoke (path : List Char) : Prop := PyText.dropEnd (· = '/') path = "/api/invoke".toList
instance (path : List Char) : Decidable (isInvoke path) := inferInstanceAs (Decidable (_ = _))

def doPost (server : Server) (post : Post) : Handled :=
  match urlsplitPath post.path with
  | .error e => ⟨[],some e,none⟩
  | .ok path =>
      if ¬isInvoke path then answer 404 (.obj [("error",.str "not found")])
      else match length post with
        | none => ⟨[],some (.valueError "invalid literal for int() with base 10"),none⟩
        | some n => match server.loaded post n with
            | .decodeError => answer 400 (.obj [("error",.str "bad json")])
            | .raised e => ⟨[],some e,none⟩
            | .document payload => server.invoked payload

end Server

def Answered (handled : Handled) : Prop := handled.sent.length = 1 ∧ handled.raised = none

/- A path that can be split, and for the invoke path a numeric length and a body that is a JSON
object or not JSON. -/
def Wellformed (server : Server) (post : Post) : Prop :=
  ∃ path, urlsplitPath post.path = .ok path ∧ (Server.isInvoke path →
    ∃ n, Server.length post = some n ∧ (server.loaded post n = .decodeError ∨
      ∃ payload, server.loaded post n = .document (.obj payload)))

theorem answered (code : Nat) (body : Json) : Answered (Server.answer code body) := ⟨rfl,rfl⟩

theorem ranOnce (server : Server) (entry : CommandEntry) :
    Answered (server.run entry) ∧ (server.run entry).dispatched = some entry.command := by
  rw [Server.run]
  cases server.invoke entry <;> exact ⟨⟨rfl,rfl⟩,rfl⟩

theorem invokedOnce (server : Server) (payload : Json) :
    (Answered (server.invoked payload) ↔ ∃ m, payload = .obj m) ∧
      ∀ command, (server.invoked payload).dispatched = some command →
        ∃ m, payload = .obj m ∧ Server.commandOf m = command ∧
          ∃ entry ∈ server.catalog, entry.command = command := by
  cases payload with
  | obj m =>
    rw [Server.invoked]
    cases found : server.resolve (Server.commandOf m) with
    | none => exact ⟨iff_of_true (answered _ _) ⟨m,rfl⟩,fun command none => by cases none⟩
    | some entry =>
      have named : entry.command = Server.commandOf m := by simpa using List.find?_some found
      refine ⟨iff_of_true (ranOnce server entry).1 ⟨m,rfl⟩,fun command ran => ?_⟩
      rw [(ranOnce server entry).2,Option.some.injEq] at ran
      exact ⟨m,rfl,named.symm.trans ran,entry,List.mem_of_find?_eq_some found,ran⟩
  | _ => exact ⟨iff_of_false (fun one => by cases one.1) (by simp),fun command none => by cases none⟩

def listServer : Server := ⟨fun _ => .document (.arr []),[],fun _ => .raised ""⟩

def listPost : Post := ⟨"/api/invoke",some "2",fun _ => [91,93]⟩

end RedfishCtl.Explorer
