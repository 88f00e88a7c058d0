import RedfishCtl.CorpusTreeReplay
import RedfishCtl.DiscoveryRuns

/-! Which strings the two path normalisers bring to a normal form: a route is its own canonical form
exactly if decoding left no character that urlsplit or a second decoding reads. -/
namespace RedfishCtl.PyUrl

/- The characters that urlsplit and unquote keep as they are. -/
def Plain (c : Char) : Prop := c ≠ '%' ∧ c ≠ '?' ∧ c ≠ '#' ∧ isUnsafe c = false

theorem decodeLength (pending : Option Pending) (bytes : List Nat) :
    (decodeFrom pending bytes).length ≤ bytes.length + (if pending.isSome then 1 else 0) := by
  fun_induction decodeFrom pending bytes <;> grind

theorem runPlain {run} (ascii : ∀ c ∈ run, c.toNat < 128) (free : '%' ∉ run) : unquoteRun run = run := by
  have bytes : unquoteToBytes run = run.map Char.toNat := by
    fun_induction unquoteToBytes run <;> grind
  rw [unquoteRun,bytes]
  clear bytes free
  induction run <;> grind [decodeFrom,Char.ofNat_toNat]

theorem unquotePlain {run path} (ascii : ∀ c ∈ run, c.toNat < 128)
    (free : '%' ∉ run.reverse ++ path) : unquoteFrom run path = run.reverse ++ path := by
  induction path generalizing run with
  | nil => grind [unquoteFrom,@runPlain run.reverse]
  | cons c rest ih =>
    unfold unquoteFrom
    split
    · rw [ih (by grind) (by grind)]
      simp
    · rw [ih (by simp) (by grind),runPlain (by grind) (by grind)]
      simp

theorem urlsplitOk {url parsed} (split : urlsplit url = .ok parsed) :
    parsed.path.Sublist url.toList ∧ ∀ c ∈ parsed.path, c ≠ '?' ∧ c ≠ '#' ∧ isUnsafe c = false := by
  unfold urlsplit at split
  generalize cleaned : (url.toList.dropWhile isControlOrSpace).filter (fun c => !isUnsafe c) = text
    at split
  have suffix : (splitScheme text).2.Sublist text := by
    unfold splitScheme
    grind
  cases located : splitNetloc (splitScheme text).2 with
  | error e => simp [located,bind,Except.bind] at split
  | ok parts =>
    have rest : parts.2.Sublist (splitScheme text).2 := by
      unfold splitNetloc at located
      grind
    simp only [located,bind,Except.bind] at split
    cases Except.ok.inj split
    have clean : text.Sublist url.toList :=
      cleaned ▸ (List.filter_sublist ..).trans (List.dropWhile_sublist ..)
    refine ⟨((List.takeWhile_sublist _).trans (List.takeWhile_sublist _)).trans
      (rest.trans (suffix.trans clean)),fun c mem => ?_⟩
    have bare := (List.takeWhile_sublist _).subset mem
    have kept := suffix.subset (rest.subset ((List.takeWhile_sublist _).subset bare))
    have query := List.mem_takeWhile_imp mem
    have fragment := List.mem_takeWhile_imp bare
    have safe : isUnsafe c = false := by
      rw [← cleaned,List.mem_filter] at kept
      simpa using kept.2
    exact ⟨by simpa using query,by simpa using fragment,safe⟩

theorem urlsplitPlain {rest} (plain : ∀ c ∈ '/' :: 'r'::rest, Plain c) :
    urlsplit (String.ofList ('/' :: 'r'::rest)) = .ok ⟨[],[],'/' :: 'r'::rest,[],[]⟩ := by
  generalize whole : '/' :: 'r'::rest = text at plain
  have start : text.dropWhile isControlOrSpace = text := by
    rw [← whole]
    rfl
  have scheme : splitScheme text = ([],text) := by
    have slash : isAsciiAlpha '/' = false := rfl
    rw [← whole,splitScheme]
    simp [slash]
  have netloc : splitNetloc text = .ok ([],text) := by
    rw [← whole]
    rfl
  have clean : text.filter (fun c => !isUnsafe c) = text :=
    List.filter_eq_self.mpr fun c mem => by simp [(plain c mem).2.2.2]
  have fragment : text.takeWhile (· ≠ '#') = text :=
    List.takeWhile_eq_self_iff.mpr fun c mem => by simpa using (plain c mem).2.2.1
  have query : text.takeWhile (· ≠ '?') = text :=
    List.takeWhile_eq_self_iff.mpr fun c mem => by simpa using (plain c mem).2.1
  have bare : ∀ d, text.takeWhile (· ≠ d) = text → behind d text = [] := by
    intro d all
    rw [behind,List.dropWhile_eq_nil_iff.mpr (by simpa using List.takeWhile_eq_self_iff.mp all)]
    rfl
  simp only [urlsplit,String.toList_ofList,start,clean,scheme,netloc,bind,Except.bind,fragment,
    query,bare _ query,bare _ fragment]

end RedfishCtl.PyUrl

namespace RedfishCtl.CorpusTree
open PyUrl (Plain unquote urlsplit hexValue)

theorem escapesCons {c rest} : escapesOk (c::rest) = true ↔ (c = '%' → ∃ a b tail x y,
    rest = a::b::tail ∧ hexValue a = some x ∧ hexValue b = some y) ∧ escapesOk rest = true := by
  rcases rest with _ | ⟨a,_ | ⟨b,tail⟩⟩ <;>
    simp [escapesOk,isHex,Option.isSome_iff_exists,imp_iff_not_or]

theorem escapesSplit {before c rest} (plain : hexValue c = none)
    (escapes : escapesOk (before ++ c::rest) = true) :
    escapesOk before = true ∧ escapesOk rest = true := by
  induction before with
  | nil => exact ⟨rfl,(escapesCons.mp escapes).2⟩
  | cons d before ih =>
    obtain ⟨here,later⟩ := escapesCons.mp escapes
    refine ⟨escapesCons.mpr ⟨fun percent => ?_,(ih later).1⟩,(ih later).2⟩
    obtain ⟨a,b,tail,x,y,shape,first,second⟩ := here percent
    match before with
    | [] =>
      cases shape
      cases plain.symm.trans first
    | [e] =>
      cases shape
      cases plain.symm.trans second
    | e::f::more =>
      cases shape
      exact ⟨_,_,_,x,y,rfl,first,second⟩

theorem escapesNone {path} (free : '%' ∉ path) :
    escapesOk path = true ∧ encodedSeparator path = false := by
  induction path with
  | nil => exact ⟨rfl,rfl⟩
  | cons c rest ih =>
    obtain ⟨other,later⟩ := not_or.mp (mt List.mem_cons.mpr free)
    simp [escapesOk,encodedSeparator,ih later,Ne.symm other]

/- Decoding well-formed escapes never lengthens a text, and an escape shortens it. -/
def Shortened {α} (text : List Char) (decoded : List α) : Prop :=
  decoded.length ≤ text.length ∧ ('%' ∈ text → decoded.length < text.length)

theorem bytesEscapes {text} (escapes : escapesOk text = true) :
    Shortened text (PyUrl.unquoteToBytes text) := by
  unfold Shortened
  fun_induction PyUrl.unquoteToBytes text <;> grind [escapesCons]

theorem runEscapes {text} (escapes : escapesOk text = true) :
    Shortened text (PyUrl.unquoteRun text) := by
  have short : (PyUrl.unquoteRun text).length ≤ (PyUrl.unquoteToBytes text).length :=
    PyUrl.decodeLength none _
  obtain ⟨bytes,less⟩ := bytesEscapes escapes
  exact ⟨short.trans bytes,fun mem => short.trans_lt (less mem)⟩

theorem unquoteEscapes {run path} (escapes : escapesOk (run.reverse ++ path) = true) :
    Shortened (run.reverse ++ path) (PyUrl.unquoteFrom run path) := by
  induction path generalizing run with
  | nil =>
    rw [List.append_nil] at escapes ⊢
    exact runEscapes escapes
  | cons c rest ih =>
    unfold PyUrl.unquoteFrom
    split
    · have later := @ih (c::run) (by simpa using escapes)
      simpa using later
    rename_i wide
    have digit : hexValue c = none := by
      unfold hexValue
      grind
    have other : '%' ≠ c := by
      rintro rfl
      exact wide (by decide)
    obtain ⟨before,after⟩ := escapesSplit digit escapes
    obtain ⟨now,less⟩ := runEscapes before
    obtain ⟨later,fewer⟩ := @ih [] after
    unfold Shortened
    grind

variable {rt : Runtime} {raw route : String}

theorem plainAgain (done : canonicalizeRoute rt route = .ok route) : ∀ c ∈ route.toList, Plain c := by
  obtain ⟨parsed,split,escapes,-,checked⟩ := canonicalOk done
  obtain ⟨inside,bare⟩ := PyUrl.urlsplitOk split
  have whole : route.toList = dropSlash (unquote parsed.path) := by
    rw [(checkPathOk checked).1,String.toList_ofList]
  have dropped : route.toList.length ≤ (unquote parsed.path).length := by
    rcases dropSlashOk whole.symm with same | longer <;> grind
  obtain ⟨decoded,less⟩ := @unquoteEscapes [] parsed.path escapes
  have same := inside.eq_of_length_le (dropped.trans decoded)
  have free : '%' ∉ parsed.path := fun mem =>
    absurd (less mem) (Nat.not_lt.mpr (same ▸ dropped : parsed.path.length ≤ _))
  rw [← same]
  exact fun c mem => ⟨fun percent => free (percent ▸ mem),bare c mem⟩

theorem canonicalAgain {parsed} (done : canonicalizeRoute rt raw = .ok route)
    (split : urlsplit raw = .ok parsed) :
    canonicalizeRoute rt route = .ok route ↔ ∀ c ∈ unquote parsed.path, Plain c := by
  obtain ⟨own,divided,-,clean,checked⟩ := canonicalOk done
  cases divided.symm.trans split
  obtain ⟨whole,segments,shape⟩ := checkPathOk checked
  have left : dropSlash (unquote parsed.path) = route.toList := by rw [whole,String.toList_ofList]
  refine ⟨fun again c mem => ?_,fun plain => ?_⟩
  · have kept := plainAgain again
    rcases dropSlashOk left with same | longer
    · exact kept c (same ▸ mem)
    · rw [longer,List.mem_append,List.mem_singleton] at mem
      rcases mem with mem | rfl
      · exact kept c mem
      · exact ⟨by decide,by decide,by decide,rfl⟩
  have kept : ∀ c ∈ route.toList, c ∈ unquote parsed.path := by
    rcases dropSlashOk left with same | longer
    · simp [same]
    · simp +contextual [longer]
  have free : '%' ∉ route.toList := fun mem => (plain _ (kept _ mem)).1 rfl
  have noBackslash : '\\' ∉ route.toList := fun mem => (clean _ (kept _ mem)).1 rfl
  have noNul : Char.ofNat 0 ∉ route.toList := fun mem => (clean _ (kept _ mem)).2 rfl
  obtain ⟨rest,spelled⟩ : ∃ rest, route.toList = '/' :: 'r'::rest := ⟨_,shape.spelled⟩
  have again : urlsplit route = .ok ⟨[],[],route.toList,[],[]⟩ := by
    have result := PyUrl.urlsplitPlain fun c mem => plain c (kept c (spelled ▸ mem))
    rwa [← spelled,String.ofList_toList] at result
  have full : route ≠ "" := fun none => by simp [none] at spelled
  have ends : dropSlash route.toList = route.toList := by
    rw [dropSlash,if_neg,if_neg shape.last]
    exact fun root => shape.last (root ▸ rfl)
  have decoded : unquote route.toList = route.toList :=
    PyUrl.unquotePlain (by simp) (by simpa using free)
  rw [left] at checked
  simp [canonicalizeRoute,full,again,escapesNone free,decoded,noBackslash,noNul,ends,checked]

end RedfishCtl.CorpusTree

namespace RedfishCtl.Discovery

structure Normal (path : String) : Prop where
  bare : ∀ c ∈ path.toList, c ≠ '?' ∧ c ≠ '#'
  single : ¬ "//".toList <:+: path.toList
  last : path ≠ "/" → path.toList.getLast? ≠ some '/'

theorem collapseSame {path} (single : ¬ "//".toList <:+: path) : collapse path = path := by
  fun_induction collapse path with
  | case1 rest => exact absurd ⟨[],rest,rfl⟩ single
  | case2 c rest _ ih => rw [ih fun pair => single (List.infix_cons pair)]
  | case3 => rfl

theorem Normal.fixed {path} (normal : Normal path) : normalizeResourcePath path = path := by
  have query : path.toList.takeWhile (· ≠ '?') = path.toList :=
    List.takeWhile_eq_self_iff.mpr fun c mem => by simpa using (normal.bare c mem).1
  have fragment : path.toList.takeWhile (· ≠ '#') = path.toList :=
    List.takeWhile_eq_self_iff.mpr fun c mem => by simpa using (normal.bare c mem).2
  rw [normalizeResourcePath,query,fragment,collapseSame normal.single]
  dsimp only
  split
  · rename_i long
    have last := normal.last fun root => by simp [root] at long
    have kept : PyText.dropEnd (· = '/') path.toList = path.toList :=
      PyText.dropEndSame fun c final => by
        have other : c ≠ '/' := fun same => last (same ▸ final)
        simpa using other
    rw [kept,ite_self,String.ofList_toList]
  · exact String.ofList_toList

theorem normalizeNormal (resourcePath : String) : Normal (normalizeResourcePath resourcePath) := by
  obtain ⟨inside,last,-⟩ := normalizeShape resourcePath
  refine ⟨fun c mem => normalizeBare mem,fun pair => ?_,fun other => last fun root => other ?_⟩
  · exact collapseSingle _ (pair.trans inside.isInfix)
  · exact String.toList_inj.mp root

theorem normalizeNone (resourcePath : String) : normalizeResourcePath resourcePath = "" ↔
    resourcePath = "" ∨ resourcePath.toList.head? = some '?' ∨
      resourcePath.toList.head? = some '#' := by
  obtain ⟨inside,-,none⟩ := normalizeShape resourcePath
  have cut := collapseHead ((resourcePath.toList.takeWhile (· ≠ '?')).takeWhile (· ≠ '#'))
  have empty : normalizeResourcePath resourcePath = "" ↔
      ((resourcePath.toList.takeWhile (· ≠ '?')).takeWhile (· ≠ '#')).head? = .none := by
    rw [← cut,List.head?_eq_none_iff,← String.toList_eq_nil_iff]
    exact ⟨none,fun nothing => List.prefix_nil.mp (nothing ▸ inside)⟩
  rw [empty,← String.toList_eq_nil_iff]
  cases resourcePath.toList with
  | nil => simp
  | cons c rest => by_cases query : c = '?' <;> by_cases fragment : c = '#' <;> simp [query]

end RedfishCtl.Discovery

namespace RedfishCtl
open CorpusTree (Runtime canonicalizeRoute)
open Discovery (Normal normalizeResourcePath)

/- What a path normaliser is for: its results are fixed by it, and the discovery's keys are
non-empty paths without query, fragment, double or trailing slash. -/
structure NormalForms (rt : Runtime) (path : String) : Prop where
  route : ∀ route, canonicalizeRoute rt path = .ok route → canonicalizeRoute rt route = .ok route
  again : normalizeResourcePath (normalizeResourcePath path) = normalizeResourcePath path
  resource : path ≠ "" → normalizeResourcePath path ≠ "" ∧ Normal (normalizeResourcePath path)

theorem normalForms (rt : Runtime) (path : String) : NormalForms rt path ↔
    (∀ route parsed, canonicalizeRoute rt path = .ok route → PyUrl.urlsplit path = .ok parsed →
      ∀ c ∈ PyUrl.unquote parsed.path, PyUrl.Plain c) ∧
    path.toList.head? ≠ some '?' ∧ path.toList.head? ≠ some '#' := by
  have normal := Discovery.normalizeNormal path
  have none := Discovery.normalizeNone path
  constructor
  · intro forms
    refine ⟨fun route parsed done split => (CorpusTree.canonicalAgain done split).mp (forms.route _ done),?_⟩
    have full : path ≠ "" → _ := fun some => mt none.mpr (forms.resource some).1
    constructor <;>
    · intro head
      have some : path ≠ "" := fun empty => by simp [empty] at head
      exact full some (by simp [head])
  · rintro ⟨plain,query,fragment⟩
    refine ⟨fun route done => ?_,normal.fixed,fun some => ⟨fun empty => ?_,normal⟩⟩
    · obtain ⟨parsed,split,-⟩ := CorpusTree.canonicalOk done
      exact (CorpusTree.canonicalAgain done split).mpr (plain _ _ done split)
    · rcases none.mp empty with same | same | same
      exacts [some same,query same,fragment same]

/- A question mark that was escaped twice, and a resource path that is only a query. -/
theorem escapedTwice : ¬ NormalForms (CorpusTree.Sample.runtime []) "/redfish/v1/a%253Fb" ∧
    ¬ NormalForms (CorpusTree.Sample.runtime []) "?x" := by
  have once : canonicalizeRoute (CorpusTree.Sample.runtime []) "/redfish/v1/a%253Fb" =
      .ok "/redfish/v1/a%3Fb" := by decide
  have twice : canonicalizeRoute (CorpusTree.Sample.runtime []) "/redfish/v1/a%3Fb" =
      .ok "/redfish/v1/a?b" := by decide
  have gone : normalizeResourcePath "?x" = "" := by decide
  refine ⟨fun forms => ?_,fun forms => (forms.resource (by decide)).1 gone⟩
  have kept := twice.symm.trans (forms.route _ once)
  exact absurd (Except.ok.inj kept) (by decide)

end RedfishCtl
