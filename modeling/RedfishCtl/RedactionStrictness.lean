import RedfishCtl.JsonFates
import RedfishCtl.RedactionScrub

/-! Which keys the packer takes for secrets and the public redactor lets pass, and what that means
for the leaves of a document. -/
namespace RedfishCtl.Redaction
open Json (fates leaves entries Fate Flat Follows)

section
variable {lang : Language}

theorem allStrEntries {items} (texts : items.all isStr = true) : Json.itemEntries items = [] := by
  induction items with
  | nil => rfl
  | cons j rest ih =>
    rw [List.all_cons,Bool.and_eq_true] at texts
    rw [Json.itemEntries,ih texts.2]
    cases j with
    | str s => rfl
    | _ => cases texts.1

theorem allStrLeaves {items} (texts : items.all isStr = true) :
    (Json.itemLeaves items).length = items.length := by
  induction items with
  | nil => rfl
  | cons j rest ih =>
    rw [List.all_cons,Bool.and_eq_true] at texts
    rw [Json.itemLeaves,List.length_append,ih texts.2]
    cases j with
    | str s => exact Nat.add_comm 1 rest.length
    | _ => cases texts.1

theorem placeholderLeaves (placeholder : String) (items : List Json) :
    (Json.itemLeaves (items.map fun _ => .str placeholder)).length = items.length := by
  rw [allStrLeaves (by simp [isStr]),List.length_map]

/- What a cover looks like: a placeholder for a text, or one for each text of a list. -/
inductive Placeholders (placeholder : String) : Json → Json → Prop
  | str (s : String) : Placeholders placeholder (.str s) (.str placeholder)
  | arr {items : List Json} (texts : items.all isStr = true) :
      Placeholders placeholder (.arr items) (.arr (items.map fun _ => .str placeholder))

theorem placeholdersFlat {placeholder j v} (hides : Placeholders placeholder j v) :
    entries j = [] ∧ (leaves v).length = (leaves j).length := by
  cases hides with
  | str s => exact ⟨rfl,rfl⟩
  | arr texts =>
    rw [leaves,leaves,placeholderLeaves,allStrLeaves texts]
    exact ⟨allStrEntries texts,rfl⟩

theorem credentialPlaceholders {key j v} (found : credentialCover lang key j = some v) :
    Placeholders "REDACTED" j v := by
  unfold credentialCover at found
  split at found
  · split at found
    · split at found
      · cases found
        exact .str _
      · cases found
    · split at found
      · rename_i texts
        cases found
        exact .arr texts
      · cases found
    · cases found
  · cases found

variable {sensitive : List (String × String)}

theorem identifierPlaceholders {key j v} (found : identifierCover lang sensitive key j = some v) :
    ∃ placeholder, Placeholders placeholder j v := by
  obtain ⟨placeholder,gone,_,hidden⟩ := identifierCoverSome found
  unfold covered at hidden
  split at hidden
  · cases hidden
    exact ⟨placeholder,.str _⟩
  · split at hidden
    · rename_i texts
      cases hidden
      exact ⟨placeholder,.arr texts⟩
    · cases hidden
  · cases hidden

theorem credentialFlat : Flat (credentialCover lang) where
  entries found := (placeholdersFlat (credentialPlaceholders found)).1
  leaves found := (placeholdersFlat (credentialPlaceholders found)).2

theorem identifierFlat : Flat (identifierCover lang sensitive) where
  entries found := by
    obtain ⟨_,hides⟩ := identifierPlaceholders found
    exact (placeholdersFlat hides).1
  leaves found := by
    obtain ⟨_,hides⟩ := identifierPlaceholders found
    exact (placeholdersFlat hides).2

/-! Keys. -/

def leakingNames : List String :=
  ["sha1v3key","sha256v3key","encryptionkey","bindpassword","username","usernames"]

def sharedNames : List String := ["md5v3key","shav3key","agentcommunity"]

def matchesPattern (last : String) : Bool :=
  redactSuffixPatterns.any fun suffix => suffix.toList.isSuffixOf last.toList

def leaking (last : String) : Bool :=
  leakingNames.contains last || matchesPattern last && !sharedNames.contains last

def leakingKey (lang : Language) (key : String) : Bool := leaking (lastSegment (lang.lower key))

theorem packerNames : ∀ name ∈ redactSuffixes, secretSuffixes.lookup name = none →
    leakingNames.contains name = true := by decide +kernel

theorem leakingUnknown : ∀ name ∈ leakingNames,
    redactSuffixes.contains name = true ∧ secretSuffixes.lookup name = none := by decide +kernel

theorem patternNames : ∀ entry ∈ secretSuffixes, matchesPattern entry.1 = true →
    sharedNames.contains entry.1 = true := by decide +kernel

theorem sharedKnown : ∀ name ∈ sharedNames, secretSuffixes.lookup name ≠ none := by decide +kernel

theorem identifiersApart : ∀ entry ∈ sensitiveKeys,
    lastSegment entry.1 = entry.1 ∧ leaking entry.1 = false := by decide +kernel

theorem leakingSuffix {last} (leaks : leaking last = true) : secretSuffixes.lookup last = none := by
  rcases Bool.or_eq_true_iff.mp leaks with named | pattern
  · exact (leakingUnknown last (List.contains_iff_mem.mp named)).2
  rw [Bool.and_eq_true,Bool.not_eq_true'] at pattern
  cases found : secretSuffixes.lookup last with
  | none => rfl
  | some placeholder =>
    have shared := patternNames _ (AssocList.lookupMem found) pattern.1
    rw [pattern.2] at shared
    cases shared

theorem leakingKeyIff (key : String) : leakingKey lang key = true ↔
    isSecretKey lang key = true ∧ secretPlaceholder lang key sensitiveKeys = none := by
  unfold leakingKey isSecretKey secretPlaceholder
  dsimp only
  constructor
  · intro leaks
    constructor
    · rcases Bool.or_eq_true_iff.mp leaks with named | pattern
      · rw [(leakingUnknown _ (List.contains_iff_mem.mp named)).1,Bool.true_or]
      · exact Bool.or_eq_true_iff.mpr (.inr (Bool.and_eq_true_iff.mp pattern).1)
    cases found : sensitiveKeys.lookup (lang.lower key) with
    | none => exact leakingSuffix leaks
    | some placeholder =>
      obtain ⟨whole,harmless⟩ := identifiersApart _ (AssocList.lookupMem found)
      rw [whole,harmless] at leaks
      cases leaks
  · rintro ⟨secret,unknown⟩
    have suffix : secretSuffixes.lookup (lastSegment (lang.lower key)) = none := by
      split at unknown
      · cases unknown
      · exact unknown
    rcases Bool.or_eq_true_iff.mp secret with named | pattern
    · exact Bool.or_eq_true_iff.mpr (.inl (packerNames _ (List.contains_iff_mem.mp named) suffix))
    · refine Bool.or_eq_true_iff.mpr (.inr (Bool.and_eq_true_iff.mpr ⟨pattern,?_⟩))
      rw [Bool.not_eq_true',← Bool.not_eq_true]
      exact fun shared => sharedKnown _ (List.contains_iff_mem.mp shared) suffix

/-! Documents. -/

def isSecretValue (lang : Language) : Json → Bool
  | .str s => isCredential lang s
  | .arr items => !items.isEmpty && items.all isStr
  | _ => false

variable (lang) in
theorem packerReplaces (key : String) (j : Json) :
    ((credentialCover lang key j).isSome = true ∧ leaves j ≠ []) ↔
      isSecretKey lang key = true ∧ isSecretValue lang j = true := by
  unfold credentialCover
  cases isSecretKey lang key with
  | false => simp
  | true =>
    cases j with
    | str s => cases secret : isCredential lang s <;> simp [isSecretValue,leaves]
    | arr items =>
      cases texts : items.all isStr with
      | false => simp [isSecretValue,texts]
      | true =>
        have some : Json.itemLeaves items ≠ [] ↔ items.isEmpty = false := by
          rw [← List.length_pos_iff,allStrLeaves texts,List.length_pos_iff,List.isEmpty_eq_false_iff]
        simp [leaves,some,isSecretValue,texts]
    | _ => simp [isSecretValue]

theorem publicReplaces {key j} (value : isSecretValue lang j = true) :
    (identifierCover lang sensitiveKeys key j).isSome =
      (secretPlaceholder lang key sensitiveKeys).isSome := by
  unfold identifierCover
  cases secretPlaceholder lang key sensitiveKeys with
  | none => rfl
  | some placeholder =>
    rw [Option.bind_some]
    cases j with
    | str s => rfl
    | arr items =>
      rw [covered,if_pos (Bool.and_eq_true_iff.mp value).2]
      rfl
    | _ => cases value

theorem followsIff (entry : String × Json) :
    Follows (credentialCover lang) (identifierCover lang sensitiveKeys) entry ↔
      ¬(leakingKey lang entry.1 = true ∧ isSecretValue lang entry.2 = true) := by
  have replaces := packerReplaces lang entry.1 entry.2
  rw [leakingKeyIff]
  constructor
  · rintro follows ⟨⟨secret,unknown⟩,value⟩
    obtain ⟨covers,some⟩ := replaces.mpr ⟨secret,value⟩
    have hit := follows covers some
    rw [publicReplaces value,unknown] at hit
    cases hit
  · intro harmless covers some
    obtain ⟨secret,value⟩ := replaces.mp ⟨covers,some⟩
    rw [publicReplaces value,Option.isSome_iff_ne_none]
    exact fun unknown => harmless ⟨⟨secret,unknown⟩,value⟩

end

def packerFates (lang : Language) (j : Json) : List Fate := fates (credentialCover lang) id j

def publicFates (lang : Language) (sourceIps : List String) (placeholderIp : String) (j : Json) :
    List Fate :=
  fates (identifierCover lang sensitiveKeys) (scrub lang sourceIps placeholderIp) j

/- The public redactor replaces what the packer does iff no secret is under a key only the packer
knows. -/
theorem publicAtLeastAsStrict (lang : Language) (sourceIps : List String) (placeholderIp : String)
    (j : Json) (counts : Counts) :
    leaves (redactCredentials lang j) = (packerFates lang j).map Fate.after ∧
    leaves (redactObj lang sourceIps placeholderIp sensitiveKeys j counts).1 =
      (publicFates lang sourceIps placeholderIp j).map Fate.after ∧
    (List.Forall₂ Fate.Below (packerFates lang j) (publicFates lang sourceIps placeholderIp j) ↔
      ∀ entry ∈ entries j,
        ¬(leakingKey lang entry.1 = true ∧ isSecretValue lang entry.2 = true)) := by
  refine ⟨?_,?_,?_⟩
  · rw [redactCredentialsMask,packerFates,Json.fatesAfter credentialFlat]
  · rw [redactObjMask,publicFates,Json.fatesAfter identifierFlat]
  · rw [packerFates,publicFates,Json.fatesBelow credentialFlat identifierFlat]
    exact forall₂_congr fun entry _ => followsIff entry

namespace Sample

def attributes : Json :=
  .obj [("Attributes",.obj [("Users.2.UserName",.str "operator"),
    ("Users.2.SHA256Password",.str "5E88"),("Users.2.SHA1v3Key",.str "A1B2")])]

end Sample

open Sample

theorem sha1KeyLeaks :
    redactCredentials ascii attributes = .obj [("Attributes",.obj [("Users.2.UserName",.str "REDACTED"),
      ("Users.2.SHA256Password",.str "REDACTED"),("Users.2.SHA1v3Key",.str "REDACTED")])] ∧
    (redactObj ascii [] "203.0.113.10" sensitiveKeys attributes {}).1 =
      .obj [("Attributes",.obj [("Users.2.UserName",.str "operator"),
        ("Users.2.SHA256Password",.str "REDACTED"),("Users.2.SHA1v3Key",.str "A1B2")])] ∧
    ((packerFates ascii attributes).map Fate.replaced = [true,true,true] ∧
      (publicFates ascii [] "203.0.113.10" attributes).map Fate.replaced = [false,true,false]) := by
  decide +kernel

end RedfishCtl.Redaction
