import RedfishCtl.Redaction

/-! What the public redactor leaves of source addresses and MAC addresses in a document. -/
namespace RedfishCtl.Redaction
open Json (mask strings Part parts Settled)
open TextRewrite
open List (Forall₂)

def isMac (w : List Char) : Bool := w.length = macWidth && pairs 5 w

/- A string without a source address, and without a MAC address other than the placeholder. -/
structure Clean (sourceIps : List String) (s : String) : Prop where
  ips : ∀ ip ∈ sourceIps, ¬ ip.toList <:+: s.toList
  macs : ∀ w, w <:+: s.toList → isMac w = true → w = macPlaceholder.toList

def ipMarks (sourceIps : List String) (placeholderIp : String) (m : Marked Char) : Marked Char :=
  sourceIps.foldl (fun m ip => trace (literal ip.toList placeholderIp.toList) none 0 false m) m

def marks (lang : Language) (sourceIps : List String) (placeholderIp s : String) : Marked Char :=
  trace (macRule lang) none 0 false (ipMarks sourceIps placeholderIp (plain s.toList))

/- No source address is read over the edge of a placeholder or stands in that of a scrubbed MAC
address, of which only zeros are left. -/
structure Seamless (lang : Language) (sourceIps : List String) (placeholderIp s : String) : Prop where
  apart : ∀ ip ∈ sourceIps, ¬ Bridged ip.toList (marks lang sourceIps placeholderIp s)
  placeholder : 0 < hits (macRule lang) none 0 (replaceIps sourceIps placeholderIp s.toList) →
    ∀ ip ∈ sourceIps, ¬ ip.toList <:+: macPlaceholder.toList
  zeros : ∀ whole, whole <:+: stays (macRule lang) none 0 (replaceIps sourceIps placeholderIp s.toList) →
    isMac (letters whole) = true → ∀ c ∈ whole, c.2 = true → c.1 = '0' ∨ c.1 = ':'

section
variable {lang : Language} {sourceIps : List String} {placeholderIp : String}

theorem lettersIpMarks (some : ∀ ip ∈ sourceIps, ip ≠ "") (m : Marked Char) :
    letters (ipMarks sourceIps placeholderIp m) = replaceIps sourceIps placeholderIp (letters m) := by
  induction sourceIps generalizing m with
  | nil => rfl
  | cons ip rest ih =>
    obtain ⟨own,later⟩ := List.forall_mem_cons.mp some
    rw [ipMarks,List.foldl_cons,← ipMarks,ih later,lettersTrace,replaceIps,replaceIps,List.foldl_cons]
    by_cases occurs : ip.toList <:+: letters m
    · rw [if_pos ⟨own,occurs⟩]
    · rw [if_neg (fun both => occurs both.2),literalAbsent occurs]

theorem toListNe {s} (some : s ≠ "") : s.toList ≠ [] := by
  simpa using some

theorem ipUnbroken {w} (full : w ≠ []) (absent : ¬ w <:+: placeholderIp.toList) {m}
    (gone : (∃ ip ∈ sourceIps, ip.toList = w) ∨ ¬ Unbroken w m) :
    ¬ Unbroken w (ipMarks sourceIps placeholderIp m) := by
  induction sourceIps generalizing m with
  | nil =>
    rcases gone with ⟨ip,mem,-⟩ | gone
    · cases mem
    · exact gone
  | cons ip rest ih =>
    refine ih ?_
    rcases gone with ⟨own,mem,rfl⟩ | gone
    · rcases List.mem_cons.mp mem with rfl | later
      · exact .inr (literalUnbroken full absent)
      · exact .inl ⟨own,later,rfl⟩
    right
    intro kept
    rcases unbrokenKept _ full kept with ⟨wrote,-⟩ | before
    · exact absent wrote
    · exact gone before

theorem ipScrubbed (absent : ∀ ip ∈ sourceIps, ¬ ip.toList <:+: placeholderIp.toList) {ip}
    (mem : ip ∈ sourceIps) (s : String) :
    ip.toList <:+: (scrub lang sourceIps placeholderIp s).toList ↔
      Bridged ip.toList (marks lang sourceIps placeholderIp s) ∨
      (0 < hits (macRule lang) none 0 (replaceIps sourceIps placeholderIp s.toList) ∧
        ip.toList <:+: macPlaceholder.toList) := by
  have some : ∀ ip ∈ sourceIps, ip ≠ "" := by
    rintro own listed rfl
    exact absent "" listed List.nil_infix
  have text : letters (ipMarks sourceIps placeholderIp (plain s.toList)) =
      replaceIps sourceIps placeholderIp s.toList := by
    rw [lettersIpMarks some,lettersPlain]
  have out : (scrub lang sourceIps placeholderIp s).toList =
      letters (marks lang sourceIps placeholderIp s) := by
    rw [scrub,String.toList_ofList,marks,lettersTrace,text]
  constructor
  · intro inside
    rw [out] at inside
    rcases occursIff.mp inside with crossed | kept
    · exact .inl crossed
    rcases unbrokenKept _ (toListNe (some ip mem)) kept with ⟨wrote,scrubbed⟩ | before
    · rw [text] at scrubbed
      exact .inr ⟨scrubbed,wrote⟩
    · exact absurd before (ipUnbroken (toListNe (some ip mem)) (absent ip mem) (.inl ⟨ip,mem,rfl⟩))
  · rintro (crossed | ⟨scrubbed,inside⟩)
    · rw [out]
      exact occursIff.mpr (.inl crossed)
    · rw [scrub,String.toList_ofList]
      exact inside.trans (textWritten (macRule lang) scrubbed)

end

def zeroPairs : ℕ → List Char
  | 0 => ['0','0']
  | n+1 => '0' :: '0' :: ':' :: zeroPairs n

def Blank (c out : Char) : Prop := (isHex c = true ∧ out = '0') ∨ (c = ':' ∧ out = ':')

variable {n : ℕ} {text : List Char}

theorem pairsBlank (given : pairs n text = true) :
    Forall₂ Blank (text.take (3 * n + 2)) (zeroPairs n) := by
  fun_induction pairs n text with
  | case1 a b rest =>
    simp only [Bool.and_eq_true] at given
    exact .cons (.inl ⟨given.1,rfl⟩) (.cons (.inl ⟨given.2,rfl⟩) .nil)
  | case2 n a b c rest ih =>
    simp only [Bool.and_eq_true,decide_eq_true_eq] at given
    obtain ⟨⟨⟨first,second⟩,colon⟩,later⟩ := given
    exact .cons (.inl ⟨first,rfl⟩) (.cons (.inl ⟨second,rfl⟩) (.cons (.inr ⟨colon,rfl⟩) (ih later)))
  | case3 => cases given

theorem pairsTake (given : pairs n text = true) : pairs n (text.take (3 * n + 2)) = true := by
  fun_induction pairs n text with
  | case1 a b rest => exact given
  | case2 n a b c rest ih =>
    simp only [Bool.and_eq_true,decide_eq_true_eq] at given
    rw [show 3 * (n + 1) + 2 = 3 * n + 2 + 1 + 1 + 1 by omega,List.take_succ_cons,List.take_succ_cons,
      List.take_succ_cons,pairs]
    simp only [Bool.and_eq_true,decide_eq_true_eq]
    exact ⟨given.1,ih given.2⟩
  | case3 => cases given

theorem macPositive (lang : Language) : 0 < (macRule lang).width := Nat.succ_pos 16

theorem macSize (lang : Language) : (macRule lang).text.length = (macRule lang).width := by
  show macPlaceholder.toList.length = 17
  decide

theorem macHit {lang last} (hit : (macRule lang).hit last text = true) : pairs 5 text = true := by
  simp only [macRule,Bool.and_eq_true] at hit
  exact hit.1.2

theorem macMatched (lang : Language) (last : Option Char) (text : List Char)
    (hit : (macRule lang).hit last text = true) :
    Forall₂ Blank (text.take (macRule lang).width) (macRule lang).text := by
  exact pairsBlank (macHit hit)

theorem kindKept {c : Char × Bool} {out} (stands : if c.2 then out = c.1 else Blank c.1 out) :
    isHex out = isHex c.1 ∧ (out = ':' ↔ c.1 = ':') := by
  split at stands
  · rw [stands]
    exact ⟨rfl,Iff.rfl⟩
  rcases stands with ⟨digit,rfl⟩ | ⟨colon,rfl⟩
  · refine ⟨digit.symm,?_⟩
    constructor
    · intro zero
      exact absurd zero (by decide)
    · intro colon
      rw [colon] at digit
      exact absurd digit (by decide)
  · rw [colon]
    exact ⟨rfl,Iff.rfl⟩

abbrev Stands (m : Marked Char) (out : List Char) : Prop :=
  Forall₂ (fun c out => if c.2 then out = c.1 else Blank c.1 out) m out

variable {m : Marked Char} {out : List Char}

theorem pairsKept (stands : Stands m out) : pairs n out = pairs n (letters m) := by
  induction n generalizing m out with
  | zero =>
    cases stands with
    | nil => rfl
    | cons first rest =>
      cases rest with
      | nil => rfl
      | cons second rest => simp only [lettersCons,pairs,(kindKept first).1,(kindKept second).1]
  | succ n ih =>
    cases stands with
    | nil => rfl
    | cons first rest =>
      cases rest with
      | nil => rfl
      | cons second rest =>
        cases rest with
        | nil => rfl
        | cons third rest =>
          simp [lettersCons,pairs,(kindKept first).1,(kindKept second).1,ih rest,(kindKept third).2]

theorem zerosStand (stands : Stands m out) :
    (∀ c ∈ out, c = '0' ∨ c = ':') ↔ ∀ c ∈ m, c.2 = true → c.1 = '0' ∨ c.1 = ':' := by
  induction stands with
  | nil => simp
  | @cons c out m others own later ih =>
    rw [List.forall_mem_cons,List.forall_mem_cons,ih]
    refine and_congr_left fun _ => ?_
    split at own
    · rename_i stayed
      rw [own]
      exact ⟨fun zero _ => zero,fun zero => zero stayed⟩
    rename_i gone
    refine ⟨fun _ stayed => absurd stayed gone,fun _ => ?_⟩
    rcases own with ⟨-,zero⟩ | ⟨-,colon⟩
    · exact .inl zero
    · exact .inr colon

variable {w : List Char}

theorem pairsZero (given : pairs n w = true) (long : w.length = 3 * n + 2)
    (zeros : ∀ c ∈ w, c = '0' ∨ c = ':') : w = zeroPairs n := by
  have digit : ∀ c, isHex c = true → (c = '0' ∨ c = ':') → c = '0' := by
    rintro c hex (zero | rfl)
    · exact zero
    · exact absurd hex (by decide)
  fun_induction pairs n w with
  | case1 a b rest =>
    simp only [Bool.and_eq_true] at given
    have none : rest = [] := by simpa using long
    rw [none,digit a given.1 (zeros a (by simp)),digit b given.2 (zeros b (by simp)),zeroPairs]
  | case2 n a b c rest ih =>
    simp only [Bool.and_eq_true,decide_eq_true_eq] at given
    obtain ⟨⟨⟨first,second⟩,rfl⟩,later⟩ := given
    have left : rest.length = 3 * n + 2 := by
      simp only [List.length_cons] at long
      omega
    rw [digit a first (zeros a (by simp)),digit b second (zeros b (by simp)),
      ih later left fun c mem => zeros c (by simp [mem]),zeroPairs]
  | case3 => cases given

theorem zeroPairsPlain (n : ℕ) : ∀ c ∈ zeroPairs n, c = '0' ∨ c = ':' := by
  induction n with
  | zero => simp [zeroPairs]
  | succ n ih => simpa [zeroPairs] using ih

theorem isMacIff : isMac w = true ↔ w.length = macWidth ∧ pairs 5 w = true := by
  simp [isMac]

theorem macZeros (mac : isMac w = true) :
    w = macPlaceholder.toList ↔ ∀ c ∈ w, c = '0' ∨ c = ':' := by
  obtain ⟨long,given⟩ := isMacIff.mp mac
  constructor
  · rintro rfl
    exact zeroPairsPlain 5
  · exact pairsZero given long

theorem macKept (stands : Stands m out) : isMac out = isMac (letters m) := by
  have long : (letters m).length = out.length := by rw [letters,List.length_map,stands.length_eq]
  rw [isMac,isMac,pairsKept stands,long]

theorem standsInfix (stands : Stands m out) (inside : w <:+: out) :
    ∃ whole, whole <:+: m ∧ Stands whole w := by
  obtain ⟨front,back,rfl⟩ := inside
  rw [List.append_assoc] at stands
  have behind := List.forall₂_drop_append _ _ _ stands
  refine ⟨(m.drop front.length).take w.length,?_,List.forall₂_take_append _ _ _ behind⟩
  exact (List.take_prefix _ _).isInfix.trans (List.drop_suffix _ _).isInfix

theorem infixStands {whole} (stands : Stands m out) (inside : whole <:+: m) :
    ∃ w, w <:+: out ∧ Stands whole w := by
  obtain ⟨front,back,rfl⟩ := inside
  rw [List.append_assoc] at stands
  have behind := List.forall₂_drop_append _ _ _ (List.Forall₂.flip stands)
  refine ⟨(out.drop front.length).take whole.length,?_,
    List.Forall₂.flip (List.forall₂_take_append _ _ _ behind)⟩
  exact (List.take_prefix _ _).isInfix.trans (List.drop_suffix _ _).isInfix

theorem macsScrubbed (lang : Language) (text : List Char) :
    (∀ w, w <:+: rewrite (macRule lang) none 0 text → isMac w = true → w = macPlaceholder.toList) ↔
      ∀ whole, whole <:+: stays (macRule lang) none 0 text → isMac (letters whole) = true →
        ∀ c ∈ whole, c.2 = true → c.1 = '0' ∨ c.1 = ':' := by
  have stands :=
    staysRewrite (macRule lang) (macPositive lang) (macMatched lang) (macSize lang) none text
  constructor
  · intro all whole inside mac
    obtain ⟨w,found,own⟩ := infixStands stands inside
    have shape : isMac w = true := (macKept own).trans mac
    rw [← zerosStand own,← macZeros shape]
    exact all w found shape
  · intro zeros w inside mac
    obtain ⟨whole,found,own⟩ := standsInfix stands inside
    rw [macZeros mac,zerosStand own]
    exact zeros whole found ((macKept own).symm.trans mac)

section
variable {lang : Language} {sourceIps : List String} {placeholderIp : String}

theorem scrubClean (absent : ∀ ip ∈ sourceIps, ¬ ip.toList <:+: placeholderIp.toList) (s : String) :
    Clean sourceIps (scrub lang sourceIps placeholderIp s) ↔ Seamless lang sourceIps placeholderIp s := by
  have text : (scrub lang sourceIps placeholderIp s).toList =
      rewrite (macRule lang) none 0 (replaceIps sourceIps placeholderIp s.toList) := by
    rw [scrub,String.toList_ofList]
  constructor
  · rintro ⟨ips,macs⟩
    rw [text] at macs
    refine ⟨fun ip mem crossed => ?_,fun scrubbed ip mem inside => ?_,(macsScrubbed lang _).mp macs⟩
    · exact ips ip mem ((ipScrubbed absent mem s).mpr (.inl crossed))
    · exact ips ip mem ((ipScrubbed absent mem s).mpr (.inr ⟨scrubbed,inside⟩))
  · rintro ⟨apart,placeholder,zeros⟩
    refine ⟨fun ip mem inside => ?_,?_⟩
    · rcases (ipScrubbed absent mem s).mp inside with crossed | ⟨scrubbed,found⟩
      · exact apart ip mem crossed
      · exact placeholder scrubbed ip mem found
    · rw [text]
      exact (macsScrubbed lang _).mpr zeros

theorem replaceIpsSame {text} (gone : ∀ ip ∈ sourceIps, ¬ ip.toList <:+: text) :
    replaceIps sourceIps placeholderIp text = text := by
  induction sourceIps with
  | nil => rfl
  | cons ip rest ih =>
    obtain ⟨own,later⟩ := List.forall_mem_cons.mp gone
    rw [replaceIps,List.foldl_cons,if_neg (fun both => own both.2)]
    exact ih later

theorem cleanSame {s} (clean : Clean sourceIps s) : scrub lang sourceIps placeholderIp s = s := by
  have same : rewrite (macRule lang) none 0 s.toList = s.toList := by
    refine rewriteSame (macRule lang) (macPositive lang) (fun last front back parts hit => ?_)
      (macSize lang) none
    refine clean.macs _ ?_ (isMacIff.mpr ⟨?_,pairsTake (macHit hit)⟩)
    · rw [parts]
      exact (List.take_prefix _ _).isInfix.trans (List.suffix_append _ _).isInfix
    · exact (macMatched lang last back hit).length_eq.trans (macSize lang)
  rw [scrub,replaceIpsSame clean.ips,same,String.ofList_toList]
end

/- The keys are clean, no placeholder has a source address, and other strings are scrubbed without a
seam. -/
structure Scrubbable (lang : Language) (sourceIps : List String) (placeholderIp : String) (j : Json) :
    Prop where
  keys : ∀ k, .key k ∈ parts (identifierCover lang sensitiveKeys) j → Clean sourceIps k
  placeholders : ∀ v, .covered v ∈ parts (identifierCover lang sensitiveKeys) j →
    ∀ s ∈ strings v, ∀ ip ∈ sourceIps, ¬ ip.toList <:+: s.toList
  others : ∀ s, .leaf s ∈ parts (identifierCover lang sensitiveKeys) j →
    Seamless lang sourceIps placeholderIp s

section
variable {lang : Language} {sensitive : List (String × String)} {leaf : String → String}
  {cover : String → Json → Option Json}

variable {placeholder : String} {j : Json}

theorem coveredAgain {v gone} (found : covered placeholder j = some (v,gone)) :
    ∃ gone, covered placeholder v = some (v,gone) := by
  cases j with
  | str s =>
    cases found
    exact ⟨1,rfl⟩
  | arr items =>
    rw [covered] at found
    split at found
    · cases found
      refine ⟨(items.map fun _ => Json.str placeholder).length,?_⟩
      rw [covered,if_pos (by simp [isStr]),List.map_map]
      rfl
    · cases found
  | _ => cases found

theorem uncoveredMask (bare : covered placeholder j = none) :
    covered placeholder (mask cover leaf j) = none := by
  cases j with
  | str s => cases bare
  | arr items =>
    rw [covered] at bare
    split at bare
    · cases bare
    · rename_i mixed
      rw [mask,covered,itemsMask,if_neg mixed]
  | _ => rw [mask]; rfl

variable {key : String}

theorem identifierCoverSome {v} (found : identifierCover lang sensitive key j = some v) :
    ∃ placeholder gone, secretPlaceholder lang key sensitive = some placeholder ∧
      covered placeholder j = some (v,gone) := by
  obtain ⟨⟨own,gone⟩,inside,rfl⟩ := Option.map_eq_some_iff.mp found
  obtain ⟨placeholder,given,hidden⟩ := Option.bind_eq_some_iff.mp inside
  exact ⟨placeholder,gone,given,hidden⟩

theorem identifierSettled : Settled (identifierCover lang sensitive) leaf := by
  constructor
  · intro key j v found
    obtain ⟨placeholder,gone,given,hidden⟩ := identifierCoverSome found
    obtain ⟨again,same⟩ := coveredAgain hidden
    rw [identifierCover,given,Option.bind_some,same,Option.map_some]
  intro key j bare
  unfold identifierCover at bare ⊢
  cases given : secretPlaceholder lang key sensitive with
  | none => rfl
  | some placeholder =>
    rw [given] at bare
    rw [Option.bind_some,uncoveredMask (Option.map_eq_none_iff.mp bare),Option.map_none]

theorem noMac {s : String} (plain : ':' ∉ s.toList) {w} (inside : w <:+: s.toList) : isMac w = false := by
  rw [Bool.eq_false_iff]
  intro mac
  obtain ⟨-,given⟩ := isMacIff.mp mac
  refine plain (inside.subset ?_)
  unfold pairs at given
  split at given
  · rename_i a b rest same
    cases same
  · rename_i a b c rest same
    simp only [Bool.and_eq_true,decide_eq_true_eq] at given
    rw [given.1.2]
    simp
  · cases given

theorem placeholderEntries : ∀ entry ∈ sensitiveKeys ++ secretSuffixes,
    ':' ∉ entry.2.toList ∨ entry.2 = macPlaceholder := by
  decide +kernel

theorem placeholderMacs
    (given : secretPlaceholder lang key sensitiveKeys = some placeholder) {w : List Char}
    (inside : w <:+: placeholder.toList) (mac : isMac w = true) : w = macPlaceholder.toList := by
  have listed : ∃ name, (name,placeholder) ∈ sensitiveKeys ++ secretSuffixes := by
    unfold secretPlaceholder at given
    dsimp only at given
    split at given
    · rename_i found
      cases given
      exact ⟨_,List.mem_append_left _ (AssocList.lookupMem found)⟩
    · exact ⟨_,List.mem_append_right _ (AssocList.lookupMem given)⟩
  obtain ⟨name,mem⟩ := listed
  rcases placeholderEntries _ mem with plain | same
  · rw [noMac plain inside] at mac
    cases mac
  · rw [show placeholder = macPlaceholder from same] at inside
    have long := (isMacIff.mp mac).1.trans (macSize lang).symm
    exact inside.eq_of_length long

theorem itemPlaceholders (items : List Json) :
    ∀ s ∈ Json.itemStrings (items.map fun _ => .str placeholder), s = placeholder := by
  induction items with
  | nil => simp [Json.itemStrings]
  | cons j rest ih =>
    rw [List.map_cons,Json.itemStrings,strings]
    exact List.forall_mem_append.mpr ⟨by simp,ih⟩

theorem coveredStrings {v} (found : identifierCover lang sensitive key j = some v) :
    ∃ placeholder, secretPlaceholder lang key sensitive = some placeholder ∧
      ∀ s ∈ strings v, s = placeholder := by
  obtain ⟨placeholder,gone,given,hidden⟩ := identifierCoverSome found
  refine ⟨placeholder,given,?_⟩
  cases j with
  | str s =>
    cases hidden
    rw [strings]
    simp
  | arr items =>
    rw [covered] at hidden
    split at hidden
    · cases hidden
      exact itemPlaceholders items
    · cases hidden
  | _ => cases hidden
end

theorem cleanPlain {sourceIps : List String} {s}
    (plain : ':' ∉ s.toList ∧ ∀ ip ∈ sourceIps, ¬ ip.toList <:+: s.toList) : Clean sourceIps s := by
  refine ⟨plain.2,fun w inside mac => ?_⟩
  rw [noMac plain.1 inside] at mac
  cases mac

namespace Sample

def managementIp : String := "10.1.1.1"
def documentationIp : String := "203.0.113.10"

def interface : Json := .obj [("Address",.str "10.1.1.1/24"),("SerialNumber",.str "CN7016")]

def redacted (j : Json) : Json := (redactObj ascii [managementIp] documentationIp sensitiveKeys j {}).1

end Sample

open Sample

end RedfishCtl.Redaction
