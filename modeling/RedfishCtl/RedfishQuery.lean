import RedfishCtl.PyText

/-! The query parameters of a GET and the URL `base_query` requests. -/
namespace RedfishCtl

inductive RedfishQuery.Selection where
  | names (properties : List String)
  | text (properties : String)
  deriving DecidableEq, Repr

inductive RedfishQuery.Expansion where
  | all (on : Bool)
  | mode (name : String)
  deriving DecidableEq, Repr

structure RedfishQuery where
  select : Option RedfishQuery.Selection
  filter : Option String
  expand : Option RedfishQuery.Expansion
  expandLevels : Option Int
  top : Option Int
  only : Bool
  deriving DecidableEq, Repr

namespace RedfishQuery

def safe : List Char := "()'$*,=:+-".toList

def alwaysSafe (c : Char) : Bool :=
  (65 ≤ c.toNat && c.toNat ≤ 90) || (97 ≤ c.toNat && c.toNat ≤ 122) || PyText.isDigit c ||
    "_.-~".toList.contains c

/- `urllib.parse.quote`: UTF-8 bytes other than the safe characters as %XX. -/
def quote (s : String) : String :=
  String.join (s.toUTF8.toList.map fun b =>
    let c := Char.ofNat b.toNat
    if alwaysSafe c || safe.contains c then String.singleton c
    else "%" ++ String.ofList ((PyText.hex 2 b.toNat).toList.map Char.toUpper))

def selects (q : RedfishQuery) : Option String :=
  match q.select with
  | some (.names properties) => if properties = [] then none else some (",".intercalate properties)
  | some (.text properties) => if properties = "" then none else some properties
  | none => none

def filters (q : RedfishQuery) : Option String :=
  match q.filter with
  | some expression => if expression = "" then none else some expression
  | none => none

def expands (q : RedfishQuery) : Option String :=
  match q.expand with
  | some (.all on) => if on then some "*" else none
  | some (.mode name) => if name = "" then none else some name
  | none => none

def activeNames (q : RedfishQuery) : List String :=
  (if q.selects.isSome then ["$select"] else []) ++
  (if q.filters.isSome then ["$filter"] else []) ++
  (if q.expands.isSome then ["$expand"] else []) ++
  (if q.top.isSome then ["$top"] else []) ++
  (if q.only then ["only"] else [])

def isEmpty (q : RedfishQuery) : Bool := q.activeNames.isEmpty

def validate (q : RedfishQuery) (oneParamPerUri : Bool) : Except PyError Unit :=
  if q.top.any (· < 0) then .error (.valueError "$top must be an integer >= 0")
  else if q.expandLevels.any (· < 1) then
    .error (.valueError "$expand levels must be an integer >= 1")
  else if oneParamPerUri ∧ 1 < q.activeNames.length then
    let active := ", ".intercalate q.activeNames
    .error (.valueError s!"this service supports only one query parameter per URI; got {active}")
  else .ok ()

def levels (q : RedfishQuery) : String := (q.expandLevels.map toString).getD "None"

def pairs (q : RedfishQuery) : List String :=
  (q.selects.map fun value => "$select=" ++ quote value).toList ++
  (q.filters.map fun value => "$filter=" ++ quote value).toList ++
  (q.expands.map fun mode => "$expand=" ++ mode ++ "($levels=" ++ q.levels ++ ")").toList ++
  (q.top.map fun top => "$top=" ++ toString top).toList ++
  (if q.only then ["only"] else [])

def toQueryString (q : RedfishQuery) (oneParamPerUri : Bool) : Except PyError String := do
  q.validate oneParamPerUri
  .ok (if q.pairs = [] then "" else "?" ++ "&".intercalate q.pairs)

def apply (q : RedfishQuery) (url : String) (oneParamPerUri : Bool) : Except PyError String := do
  let query ← q.toQueryString oneParamPerUri
  .ok (url ++ query)

structure Get where
  resource : String
  doExpanded : Bool
  selectTarget : String
  queryExpansion : String
  deriving DecidableEq, Repr

namespace Get

def expanded (level : Nat) : String := s!"?$expand=*($levels={level})"

def plainUrl (get : Get) (origin : String) : String :=
  if get.selectTarget ≠ "" then origin ++ get.resource ++ "?$select=" ++ get.selectTarget
  else if get.queryExpansion ≠ "" ∨ get.doExpanded then origin ++ get.resource ++ expanded 1
  else origin ++ get.resource

/- `base_query` reads the query and the flag from the command instance. A URL that has a
query string keeps it. -/
def url (get : Get) (origin : String) (query : Option RedfishQuery) (oneParamPerUri : Bool) :
    Except PyError String :=
  let r := get.plainUrl origin
  match query with
  | none => .ok r
  | some q => if !q.isEmpty && !r.toList.contains '?' then q.apply r oneParamPerUri else .ok r

end Get

end RedfishQuery

end RedfishCtl
