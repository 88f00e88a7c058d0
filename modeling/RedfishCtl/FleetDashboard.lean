import RedfishCtl.FleetStatus
import RedfishCtl.PrometheusText

/-! The fleet dashboard. Every text of a row is escaped where it enters the template, so the
characters that make up the markup are those of the template. -/
namespace RedfishCtl.FleetDashboard
open FleetStatus
open PrometheusText (replace)

def esc (text : String) : String :=
  replace '"' "&quot;".toList (replace '>' "&gt;".toList
    (replace '<' "&lt;".toList (replace '&' "&amp;".toList text)))

/-! The parts of the template. -/

def pageTop : String :=
  String.intercalate "\n" [
    "<!doctype html>",
    "<html lang=\"en\">",
    "<head>",
    "<meta charset=\"utf-8\">",
    "<meta name=\"viewport\" content=\"width=device-width, initial-scale=1\">",
    "<title>Redfish Fleet Status</title>",
    "<style>",
    "  :root \x7b color-scheme: light dark; \x7d",
    "  * \x7b box-sizing: border-box; \x7d",
    "  body \x7b font-family: -apple-system, Segoe UI, Roboto, sans-serif; margin: 0;",
    "    background: #0f1115; color: #e6e6e6; \x7d",
    "  header \x7b padding: 20px 28px; border-bottom: 1px solid #262a33;",
    "    display: flex; align-items: baseline; gap: 16px; flex-wrap: wrap; \x7d",
    "  h1 \x7b font-size: 18px; margin: 0; font-weight: 600; \x7d",
    "  .sub \x7b color: #8b93a7; font-size: 13px; \x7d",
    "  .cards \x7b display: flex; gap: 12px; padding: 18px 28px; flex-wrap: wrap; \x7d",
    "  .card \x7b background: #171a21; border: 1px solid #262a33; border-radius: 10px;",
    "    padding: 12px 16px; min-width: 96px; \x7d",
    "  .card .n \x7b font-size: 24px; font-weight: 700; \x7d",
    "  .card .l \x7b font-size: 11px; text-transform: uppercase; letter-spacing: .06em;",
    "    color: #8b93a7; \x7d",
    "  table \x7b width: calc(100% - 56px); margin: 8px 28px 32px; border-collapse: collapse;",
    "    background: #171a21; border: 1px solid #262a33; border-radius: 10px; overflow: hidden; \x7d",
    "  th, td \x7b text-align: left; padding: 10px 14px; font-size: 13px;",
    "    border-bottom: 1px solid #21252e; \x7d",
    "  th \x7b color: #8b93a7; font-weight: 600; text-transform: uppercase; font-size: 11px;",
    "    letter-spacing: .05em; \x7d",
    "  td.name \x7b font-weight: 600; \x7d",
    "  td.addr, td.stamp \x7b color: #8b93a7; font-family: ui-monospace, monospace; font-size: 12px; \x7d",
    "  .pill \x7b padding: 2px 9px; border-radius: 999px; font-size: 12px; font-weight: 600; \x7d",
    "  .pill.on \x7b background: #12351f; color: #4ade80; \x7d",
    "  .pill.off \x7b background: #3a1f24; color: #f87171; \x7d",
    "  .pill.ok \x7b background: #12351f; color: #4ade80; \x7d",
    "  .pill.warn \x7b background: #3a2f12; color: #fbbf24; \x7d",
    "  .pill.crit \x7b background: #3a1f24; color: #f87171; \x7d",
    "  .pill.unknown \x7b background: #262a33; color: #8b93a7; \x7d",
    "  .badge \x7b padding: 2px 8px; border-radius: 6px; font-size: 11px; font-weight: 600;",
    "    background: #1c2b3a; color: #60a5fa; text-transform: uppercase; \x7d",
    "  .badge.mock \x7b background: #2b2436; color: #c084fc; \x7d",
    "  .state.ready \x7b color: #4ade80; \x7d",
    "  .state.pending \x7b color: #fbbf24; \x7d",
    "  td.nicfw \x7b color: #8b93a7; font-size: 12px; \x7d",
    "  td.nicfw .fw \x7b font-family: ui-monospace, monospace; color: #c9d1d9; \x7d",
    "  td.nicfw .fw.drift \x7b color: #fbbf24; font-weight: 600; \x7d",
    "  .card.alert .n \x7b color: #fbbf24; \x7d",
    "  td.empty \x7b text-align: center; color: #8b93a7; padding: 28px; \x7d",
    "  a \x7b color: #60a5fa; \x7d",
    "</style>",
    "</head>",
    "<body>",
    "<header>",
    "  <h1>Redfish Fleet Status</h1>",
    "  <span class=\"sub\">consumer reads <code>RedfishEndpoint.status</code> written by the controller",
    "    &middot; <a href=\"/api/nodes\">/api/nodes</a> &middot; <a href=\"/metrics\">/metrics</a>",
    "    &middot; updated <span id=\"stamp\">"]

def headerEnd : String :=
  String.intercalate "\n" [
    "</span></span>",
    "</header>",
    "<div class=\"cards\">",
    ""]

def tableTop : String :=
  String.intercalate "\n" [
    "</div>",
    "<table>",
    "  <thead><tr>",
    "    <th>Node</th><th>Backend</th><th>Address</th><th>Power</th><th>Health</th>",
    "    <th>Max Temp</th><th>Sensors</th><th>NIC Firmware</th><th>Last Polled</th><th>State</th>",
    "  </tr></thead>",
    "  <tbody id=\"rows\">",
    ""]

def pageEnd : String :=
  String.intercalate "\n" [
    "",
    "  </tbody>",
    "</table>",
    "<script>",
    "  // Track the controller's next poll without a full reload.",
    "  async function refresh() \x7b",
    "    try \x7b",
    "      const r = await fetch('/api/nodes', \x7bcache: 'no-store'\x7d);",
    "      if (!r.ok) return;",
    "      const data = await r.json();",
    "      document.title = `Redfish Fleet ($\x7bdata.summary.total\x7d)`;",
    "    \x7d catch (e) \x7b /* transient; keep the last render */ \x7d",
    "  \x7d",
    "  setInterval(() => location.reload(), 10000);",
    "  refresh();",
    "</script>",
    "</body>",
    "</html>",
    ""]

def emptyRow : String :=
  "<tr><td colspan=\"10\" class=\"empty\">No RedfishEndpoint resources found in this namespace.</td></tr>"

/-! Counters. -/

structure Summary where
  total : ℕ
  ready : ℕ
  pending : ℕ
  poweredOn : ℕ
  poweredOff : ℕ
  healthy : ℕ
  warning : ℕ
  critical : ℕ
  deriving DecidableEq, Repr

section
variable {φ : Type}

def countState (s : Summary) (state : State) : Summary :=
  if state = .ready then { s with ready := s.ready + 1 } else { s with pending := s.pending + 1 }

def countPower (s : Summary) (power : Json) (on : Bool) : Summary :=
  if on then { s with poweredOn := s.poweredOn + 1 }
  else if power = .null then s
  else { s with poweredOff := s.poweredOff + 1 }

def countHealth (s : Summary) (health : Json) : Summary :=
  if health = .str "OK" then { s with healthy := s.healthy + 1 }
  else if health = .str "Warning" then { s with warning := s.warning + 1 }
  else if health = .str "Critical" then { s with critical := s.critical + 1 }
  else s

def countNodes (s : Summary) : List (Node φ) → Except PyError Summary
  | [] => .ok s
  | node::rest => do
      let on ← isPoweredOn node.powerState
      countNodes (countHealth (countPower (countState s node.state) node.powerState on) node.health)
        rest

def fleetSummary (nodes : List (Node φ)) : Except PyError Summary :=
  countNodes ⟨nodes.length,0,0,0,0,0,0,0⟩ nodes

/-! Rows. -/

def nicFirmwareCell (node : Node φ) (driftIds : List String) : String :=
  if node.nicFirmwareVersions.isEmpty then "<td class=\"nicfw\">—</td>"
  else
    let verTxt := String.intercalate ", " (node.nicFirmwareVersions.map esc)
    let cards := match node.nicAdapterCount with
      | some adapters => " · " ++ toString adapters ++ " card" ++ (if adapters ≠ 1 then "s" else "")
      | none => ""
    let nodeDrifts := node.nicFirmware.any fun c => driftIds.contains (PyText.str c.id)
    let drift := if nodeDrifts then " drift" else ""
    "<td class=\"nicfw\"><span class=\"fw" ++ drift ++ "\">" ++ verTxt ++ "</span>" ++ cards ++ "</td>"

def healthClass (health : Json) : String :=
  let text := PyText.str health
  if text = "OK" then "ok" else if text = "Warning" then "warn"
  else if text = "Critical" then "crit" else "unknown"

def powerClass (power : Json) (on : Bool) : String :=
  if on then "on" else if power = .null then "unknown" else "off"

def lower (text : String) : String := String.ofList (text.toList.map Char.toLower)

/- `fixed` formats a number with one decimal. -/
def row (fixed : φ → String) (driftIds : List String) (node : Node φ) (on : Bool) : String :=
  let tempTxt := match node.temperatureMaxCelsius with
    | some temp => fixed temp ++ " °C"
    | none => "—"
  let countTxt := match node.temperatureCount with
    | some count => toString count
    | none => "—"
  let backend := node.backend.text
  "<tr>" ++
    ("<td class=\"name\">" ++ esc node.name ++ "</td>") ++
    ("<td><span class=\"badge " ++ (if backend = "live" then "" else "mock") ++ "\">" ++ esc backend ++
      "</span></td>") ++
    ("<td class=\"addr\">" ++ esc node.address ++ "</td>") ++
    ("<td><span class=\"pill " ++ powerClass node.powerState on ++ "\">" ++
      esc (textOr node.powerState "—") ++ "</span></td>") ++
    ("<td><span class=\"pill " ++ healthClass node.health ++ "\">" ++ esc (textOr node.health "—") ++
      "</span></td>") ++
    ("<td>" ++ esc tempTxt ++ "</td>") ++
    ("<td>" ++ esc countTxt ++ "</td>") ++
    nicFirmwareCell node driftIds ++
    ("<td class=\"stamp\">" ++ esc (textOr node.lastPolled "—") ++ "</td>") ++
    ("<td><span class=\"state " ++ esc (lower node.state.text) ++ "\">" ++ esc node.state.text ++
      "</span></td>") ++
    "</tr>"

def rows (fixed : φ → String) (driftIds : List String) : List (Node φ) → Except PyError (List String)
  | [] => .ok []
  | node::rest => do
      let on ← isPoweredOn node.powerState
      let others ← rows fixed driftIds rest
      .ok (row fixed driftIds node on :: others)

/-! The document. -/

def card (count : ℕ) (label : String) : String :=
  "  <div class=\"card\"><div class=\"n\">" ++ toString count ++ "</div><div class=\"l\">" ++ label ++
    "</div></div>\n"

def driftCard (driftComponents : ℕ) : String :=
  "  <div class=\"card" ++ (if driftComponents ≠ 0 then " alert" else "") ++
    "\" title=\"Firmware components whose version differs across the fleet\"><div class=\"n\">" ++
    toString driftComponents ++ "</div><div class=\"l\">NIC FW Drift</div></div>\n"

def page (stamp : String) (summary : Summary) (driftComponents : ℕ) (rowsHtml : String) : String :=
  pageTop ++ esc stamp ++ headerEnd ++ card summary.total "Endpoints" ++
    card summary.poweredOn "Powered On" ++ card summary.healthy "Healthy" ++
    card (summary.warning + summary.critical) "Degraded" ++ card summary.pending "Pending" ++
    driftCard driftComponents ++ tableTop ++ rowsHtml ++ pageEnd

def renderHtml (fixed : φ → String) (now : String) (nodes : List (Node φ))
    (generatedAt : Option String) : Except PyError String := do
  let summary ← fleetSummary nodes
  let driftMap := fleetFirmwareDrift nodes
  let stamp := (generatedAt.filter (· ≠ "")).getD now
  let texts ← rows fixed (driftMap.map Prod.fst) nodes
  let rowsHtml := String.intercalate "\n" texts
  .ok (page stamp summary driftMap.length (if rowsHtml = "" then emptyRow else rowsHtml))

end

/-! Markup. -/

def isMarkup (c : Char) : Bool := c == '<' || c == '>' || c == '"'

def markup (text : String) : List Char := text.toList.filter isMarkup

theorem markupAppend (a b : String) : markup (a ++ b) = markup a ++ markup b := by
  rw [markup,String.toList_append,List.filter_append]
  rfl

variable {text : String}

theorem markupNone (plain : ∀ c ∈ text.toList, isMarkup c = false) : markup text = [] := by
  apply List.filter_eq_nil_iff.mpr
  intro c mem
  simp [plain c mem]

variable {new : List Char}

theorem memReplace {old c} :
    c ∈ (replace old new text).toList ↔
      old ∈ text.toList ∧ c ∈ new ∨ c ∈ text.toList ∧ c ≠ old := by
  unfold replace
  rw [String.toList_ofList,List.mem_flatMap]
  constructor
  · rintro ⟨d,mem,inside⟩
    split at inside
    · rename_i same
      exact .inl ⟨same ▸ mem,inside⟩
    · rename_i other
      rw [List.mem_singleton.mp inside]
      exact .inr ⟨mem,other⟩
  · rintro (⟨mem,inside⟩ | ⟨mem,other⟩)
    · exact ⟨old,mem,by simpa using inside⟩
    · exact ⟨c,mem,by simp [other]⟩

theorem replaceGone {old} (absent : old ∉ new) (text : String) : old ∉ (replace old new text).toList := by
  rw [memReplace]
  rintro (⟨_,inside⟩ | ⟨_,other⟩)
  · exact absent inside
  · exact other rfl

theorem replaceStays {old c} (gone : c ∉ text.toList) (absent : c ∉ new) :
    c ∉ (replace old new text).toList := by
  rw [memReplace]
  rintro (⟨_,inside⟩ | ⟨mem,_⟩)
  · exact absent inside
  · exact gone mem

theorem markupEsc (text : String) : markup (esc text) = [] := by
  apply markupNone
  intro c mem
  have noLess : '<' ∉ (esc text).toList :=
    replaceStays (replaceStays (replaceGone (by decide) _) (by decide)) (by decide)
  have noGreater : '>' ∉ (esc text).toList := replaceStays (replaceGone (by decide) _) (by decide)
  have noQuote : '"' ∉ (esc text).toList := replaceGone (by decide) _
  have less : c ≠ '<' := fun same => noLess (same ▸ mem)
  have greater : c ≠ '>' := fun same => noGreater (same ▸ mem)
  have quote : c ≠ '"' := fun same => noQuote (same ▸ mem)
  simp [isMarkup,less,greater,quote]

theorem digitPlain {c} (digit : c.isDigit = true) : isMarkup c = false := by
  have less : c ≠ '<' := Exposition.apart digit (by decide)
  have greater : c ≠ '>' := Exposition.apart digit (by decide)
  have quote : c ≠ '"' := Exposition.apart digit (by decide)
  simp [isMarkup,less,greater,quote]

theorem markupNat (n : ℕ) : markup (toString n) = [] := by
  apply markupNone
  intro c mem
  rw [Nat.toString_eq_repr,Nat.repr_eq_ofList_toDigits,String.toList_ofList] at mem
  exact digitPlain (Nat.isDigit_of_mem_toDigits (by decide) (by decide) mem)

theorem markupInt (n : ℤ) : markup (toString n) = [] := by
  rw [Int.toString_eq_repr,Int.repr_eq_if]
  split
  · exact markupNat _
  · rw [markupAppend,← Nat.toString_eq_repr,markupNat]
    decide

theorem markupJoin {separator} (plain : markup separator = []) (texts : List String) :
    markup (String.intercalate separator texts) = (texts.map markup).flatten := by
  unfold markup at plain ⊢
  rw [String.toList_intercalate]
  induction texts with
  | nil => rfl
  | cons text rest ih =>
    cases rest with
    | nil => simp
    | cons next others =>
      simp only [List.map_cons,List.intercalate_cons_cons,List.filter_append,plain] at ih ⊢
      rw [ih,List.append_nil]
      simp

/-! Rows that differ in their texts. -/

def Retext (a b : Json) : Prop := a = b ∨ ∃ s t, a = .str s ∧ b = .str t

structure RetextComponent (a b : Component) : Prop where
  id : Retext a.id b.id
  deviceClass : Retext a.deviceClass b.deviceClass
  version : Retext a.version b.version
  updateable : Retext a.updateable b.updateable

structure RetextNode {φ : Type} (a b : Node φ) : Prop where
  port : a.port = b.port
  insecure : a.insecure = b.insecure
  backend : a.backend = b.backend
  state : a.state = b.state
  powerState : Retext a.powerState b.powerState
  health : Retext a.health b.health
  temperatureCount : a.temperatureCount = b.temperatureCount
  temperatureMaxCelsius : a.temperatureMaxCelsius = b.temperatureMaxCelsius
  nicAdapterCount : a.nicAdapterCount = b.nicAdapterCount
  nicCount : a.nicCount = b.nicCount
  dpuCount : a.dpuCount = b.dpuCount
  nicFirmwareCount : a.nicFirmwareCount = b.nicFirmwareCount
  nicFirmwareUpdateableCount : a.nicFirmwareUpdateableCount = b.nicFirmwareUpdateableCount
  nicFirmwareVersions : a.nicFirmwareVersions.length = b.nicFirmwareVersions.length
  nicFirmware : List.Forall₂ RetextComponent a.nicFirmware b.nicFirmware
  lastPolled : Retext a.lastPolled b.lastPolled

section
variable {φ : Type} {fixed : φ → String} {a b : Node φ}

theorem markupHealthClass (health : Json) : markup (healthClass health) = [] := by
  dsimp only [healthClass]
  split
  · decide
  · split
    · decide
    · split <;> decide

theorem markupPowerClass (power : Json) (on : Bool) : markup (powerClass power on) = [] := by
  unfold powerClass
  split
  · decide
  · split <;> decide

theorem cellMarkup (same : a.nicFirmwareVersions.length = b.nicFirmwareVersions.length)
    (ids others : List String) : markup (nicFirmwareCell a ids) = markup (nicFirmwareCell b others) := by
  have either (texts : List String) : markup (String.intercalate ", " (texts.map esc)) = [] := by
    rw [markupJoin (by decide)]
    simp [markupEsc]
  have plural (adapters : ℤ) : markup (if adapters ≠ 1 then "s" else "") = [] := by
    split <;> decide
  have flag (drifts : Bool) : markup (if drifts then " drift" else "") = [] := by
    cases drifts <;> decide
  have count (adapters : Option ℤ) : markup (match adapters with
      | some adapters => " · " ++ toString adapters ++ " card" ++ (if adapters ≠ 1 then "s" else "")
      | none => "") = [] := by
    cases adapters with
    | none => decide
    | some n =>
      simp only [markupAppend,markupInt,plural,List.append_nil]
      decide
  have empty : a.nicFirmwareVersions.isEmpty = b.nicFirmwareVersions.isEmpty := by
    rw [Bool.eq_iff_iff,List.isEmpty_iff_length_eq_zero,List.isEmpty_iff_length_eq_zero,same]
  unfold nicFirmwareCell
  rw [empty]
  split
  · rfl
  · simp only [markupAppend,either,flag,count,List.append_nil]

theorem rowMarkup (same : a.nicFirmwareVersions.length = b.nicFirmwareVersions.length)
    (ids others : List String) (on off : Bool) :
    markup (row fixed ids a on) = markup (row fixed others b off) := by
  have badge (backend : String) : markup (if backend = "live" then "" else "mock") = [] := by
    split <;> decide
  unfold row
  simp [markupAppend,markupEsc,badge,markupPowerClass,markupHealthClass,cellMarkup same ids others]

theorem rowMarked (ids : List String) (on : Bool) : markup (row fixed ids a on) ≠ [] := by
  unfold row
  rw [markupAppend]
  exact List.append_ne_nil_of_right_ne_nil _ (by decide)

theorem poweredOnRetext {p q} (same : Retext p q) :
    (∃ e, isPoweredOn p = .error e ∧ isPoweredOn q = .error e) ∨
      ∃ on off, isPoweredOn p = .ok on ∧ isPoweredOn q = .ok off := by
  rcases same with rfl | ⟨s,t,rfl,rfl⟩
  · cases looked : isPoweredOn p with
    | error e => exact .inl ⟨e,rfl,rfl⟩
    | ok on => exact .inr ⟨on,on,rfl,rfl⟩
  · exact .inr ⟨_,_,rfl,rfl⟩

theorem countRetext {as bs : List (Node φ)} (same : List.Forall₂ RetextNode as bs) (s t : Summary) :
    (∃ e, countNodes s as = .error e ∧ countNodes t bs = .error e) ∨
      ∃ s' t', countNodes s as = .ok s' ∧ countNodes t bs = .ok t' := by
  induction same generalizing s t with
  | nil => exact .inr ⟨s,t,rfl,rfl⟩
  | cons own rest ih =>
    unfold countNodes
    rcases poweredOnRetext own.powerState with ⟨e,first,second⟩ | ⟨on,off,first,second⟩
    · rw [first,second]
      exact .inl ⟨e,rfl,rfl⟩
    · rw [first,second]
      exact ih _ _

variable (fixed) in
theorem rowsRetext {as bs} (same : List.Forall₂ RetextNode as bs) (ids others : List String) :
    (∃ e, rows fixed ids as = .error e ∧ rows fixed others bs = .error e) ∨
      ∃ xs ys, rows fixed ids as = .ok xs ∧ rows fixed others bs = .ok ys ∧
        xs.map markup = ys.map markup ∧ ∀ x ∈ xs, markup x ≠ [] := by
  induction same with
  | nil => exact .inr ⟨[],[],rfl,rfl,rfl,by simp⟩
  | cons own rest ih =>
    unfold rows
    rcases poweredOnRetext own.powerState with ⟨e,first,second⟩ | ⟨on,off,first,second⟩
    · rw [first,second]
      exact .inl ⟨e,rfl,rfl⟩
    rw [first,second]
    rcases ih with ⟨e,left,right⟩ | ⟨xs,ys,left,right,equal,marked⟩
    · rw [left,right]
      exact .inl ⟨e,rfl,rfl⟩
    rw [left,right]
    refine .inr ⟨_,_,rfl,rfl,?_,?_⟩
    · rw [List.map_cons,List.map_cons,rowMarkup own.nicFirmwareVersions ids others on off,equal]
    · intro x mem
      rcases List.mem_cons.mp mem with rfl | later
      · exact rowMarked ids on
      · exact marked x later

theorem joinedEmpty {texts} (marked : ∀ x ∈ texts, markup x ≠ []) :
    String.intercalate "\n" texts = "" ↔ texts = [] := by
  constructor
  · intro blank
    have plain : markup "\n" = [] := by decide
    have none : (texts.map markup).flatten = [] := by
      rw [← markupJoin plain texts,blank]
      rfl
    cases texts with
    | nil => rfl
    | cons x rest =>
      rw [List.map_cons,List.flatten_cons,List.append_eq_nil_iff] at none
      exact absurd none.1 (marked x List.mem_cons_self)
  · rintro rfl
    rfl

theorem bodyMarkup {xs ys} (equal : xs.map markup = ys.map markup)
    (marked : ∀ x ∈ xs, markup x ≠ []) :
    markup (if String.intercalate "\n" xs = "" then emptyRow else String.intercalate "\n" xs) =
      markup (if String.intercalate "\n" ys = "" then emptyRow else String.intercalate "\n" ys) := by
  have alike : ∀ y ∈ ys, markup y ≠ [] := by
    intro y mem
    obtain ⟨x,known,same⟩ := List.mem_map.mp (equal ▸ List.mem_map_of_mem (f := markup) mem)
    exact same ▸ marked x known
  have long : xs.length = ys.length := by
    rw [← List.length_map (f := markup),equal,List.length_map]
  have none : xs = [] ↔ ys = [] := by
    rw [← List.length_eq_zero_iff,long,List.length_eq_zero_iff]
  simp only [joinedEmpty marked,joinedEmpty alike,none]
  split
  · rfl
  · rw [markupJoin (by decide),markupJoin (by decide),equal]

theorem pageMarkup (stamp other : String) (s t : Summary) (m n : ℕ) {body text}
    (same : markup body = markup text) : markup (page stamp s m body) = markup (page other t n text) := by
  have alert (n : ℕ) : markup (if n ≠ 0 then " alert" else "") = [] := by
    split <;> decide
  unfold page card driftCard
  simp only [markupAppend,markupEsc,markupNat,alert,List.append_nil,same]

end

section
variable {φ : Type} (fixed : φ → String) (now : String) {nodes : List (Node φ)}
  (generatedAt : Option String)

theorem renderFailsCount {e} (failed : fleetSummary nodes = .error e) :
    renderHtml fixed now nodes generatedAt = .error e := by
  rw [renderHtml,failed]
  rfl

theorem renderFailsRows {s e} (counted : fleetSummary nodes = .ok s)
    (failed : rows fixed ((fleetFirmwareDrift nodes).map Prod.fst) nodes = .error e) :
    renderHtml fixed now nodes generatedAt = .error e := by
  rw [renderHtml,counted]
  dsimp only [bind,Except.bind]
  rw [failed]

theorem renders {s xs} (counted : fleetSummary nodes = .ok s)
    (shown : rows fixed ((fleetFirmwareDrift nodes).map Prod.fst) nodes = .ok xs) :
    renderHtml fixed now nodes generatedAt = .ok (page ((generatedAt.filter (· ≠ "")).getD now) s
      (fleetFirmwareDrift nodes).length
      (if String.intercalate "\n" xs = "" then emptyRow else String.intercalate "\n" xs)) := by
  rw [renderHtml,counted]
  dsimp only [bind,Except.bind]
  rw [shown]

end

/- Two lists of rows that differ in texts fail alike or give documents of one markup. -/
theorem markupFromTemplate {φ : Type} (fixed : φ → String) (now later : String)
    (generatedAt generatedLater : Option String) {as bs : List (Node φ)}
    (same : List.Forall₂ RetextNode as bs) :
    (renderHtml fixed now as generatedAt).map markup =
      (renderHtml fixed later bs generatedLater).map markup := by
  rcases countRetext same ⟨as.length,0,0,0,0,0,0,0⟩ ⟨bs.length,0,0,0,0,0,0,0⟩ with
    ⟨e,first,second⟩ | ⟨s,t,first,second⟩
  · rw [renderFailsCount fixed now generatedAt first,
      renderFailsCount fixed later generatedLater second]
  rcases rowsRetext fixed same ((fleetFirmwareDrift as).map Prod.fst)
    ((fleetFirmwareDrift bs).map Prod.fst) with ⟨e,left,right⟩ | ⟨xs,ys,left,right,equal,marked⟩
  · rw [renderFailsRows fixed now generatedAt first left,
      renderFailsRows fixed later generatedLater second right]
  · rw [renders fixed now generatedAt first left,renders fixed later generatedLater second right,
      Except.map,Except.map,pageMarkup _ _ s t _ _ (bodyMarkup equal marked)]

def namedNode (name health version : String) : Node ℕ where
  name := name
  namespaceName := "fleet"
  address := "https://" ++ name
  port := .null
  insecure := true
  backend := .live
  state := .ready
  powerState := .str "On"
  health := .str health
  temperatureCount := some 12
  temperatureMaxCelsius := some 41
  nicAdapterCount := some 2
  nicCount := none
  dpuCount := none
  nicFirmwareCount := none
  nicFirmwareUpdateableCount := none
  nicFirmwareVersions := [version]
  nicFirmware := [⟨.str "CX8_0",.null,.str version,.null⟩]
  lastPolled := .null

theorem scriptNameEscaped :
    (renderHtml toString "now" [namedNode "<script>" "\"><b>" "&lt;"] none).map markup =
      (renderHtml toString "now" [namedNode "bmc-1" "OK" "40.45"] none).map markup :=
  markupFromTemplate toString "now" "now" none none
    (.cons ⟨rfl,rfl,rfl,rfl,.inl rfl,.inr ⟨_,_,rfl,rfl⟩,rfl,rfl,rfl,rfl,rfl,rfl,rfl,rfl,
      .cons ⟨.inl rfl,.inl rfl,.inr ⟨_,_,rfl,rfl⟩,.inl rfl⟩ .nil,.inl rfl⟩ .nil)

end RedfishCtl.FleetDashboard
