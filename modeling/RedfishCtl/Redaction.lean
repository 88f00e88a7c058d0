import RedfishCtl.JsonMask
import RedfishCtl.PyUrl
import RedfishCtl.TextRewrite

/-! The two redactors of the corpus tools: the public one replaces identifiers and scrubs addresses
in other strings, the one of the full packer replaces credentials. -/
namespace RedfishCtl.Redaction
open Json (mask maskItems maskMembers EqualBut ItemsBut Covers)
open TextRewrite

/- str.lower, and the word characters of a regular expression. -/
structure Language where
  lower : String → String
  isWord : Char → Bool
  hexWord : ∀ {c}, (PyUrl.hexValue c).isSome = true → isWord c = true
  colon : isWord ':' = false

def lastSegment (s : String) : String :=
  String.ofList (s.toList.reverse.takeWhile (· ≠ '.')).reverse

def isStr : Json → Bool
  | .str _ => true
  | _ => false

def sensitiveKeys : List (String × String) :=
  [("serialnumber","REDACTED-SERIAL"),("servicetag","REDACTED-TAG"),("assettag","REDACTED-ASSET"),
   ("sku","REDACTED-SKU"),("partnumber","REDACTED-PART"),
   ("uuid","00000000-0000-0000-0000-000000000000"),("macaddress","00:00:00:00:00:00"),
   ("permanentmacaddress","00:00:00:00:00:00"),("hostname","redfish-host"),
   ("fqdn","redfish-host.example.com"),("wwn","REDACTED-WWN"),("password","REDACTED"),
   ("token","REDACTED")]

def secretSuffixes : List (String × String) :=
  ["password","sha256password","sha256passwordsalt","ipmikey","md5v3key","shav3key","communityname",
   "agentcommunity","snmpv3passphrase","passphrase","token","authtoken","privatekey","sharedsecret",
   "presharedkey","chapsecret","chapsecretreverse"].map fun suffix => (suffix,"REDACTED")

def secretPlaceholder (lang : Language) (key : String) (sensitive : List (String × String)) :
    Option String :=
  let kl := lang.lower key
  match sensitive.lookup kl with
  | some placeholder => some placeholder
  | none => secretSuffixes.lookup (lastSegment kl)

def macPlaceholder : String := "00:00:00:00:00:00"

def isHex (c : Char) : Bool := (PyUrl.hexValue c).isSome

def pairs : ℕ → List Char → Bool
  | 0, a::b::_ => isHex a && isHex b
  | n+1, a::b::c::rest => isHex a && isHex b && c = ':' && pairs n rest
  | _, _ => false

def boundary (lang : Language) (before after : Option Char) : Bool :=
  before.any lang.isWord != after.any lang.isWord

def macWidth : ℕ := 17

def macRule (lang : Language) : Rule Char where
  hit last rest := boundary lang last rest.head? && pairs 5 rest &&
    boundary lang rest[macWidth - 1]? rest[macWidth]?
  width := macWidth
  text := macPlaceholder.toList

structure Counts where
  files : ℕ := 0
  keyRedactions : ℕ := 0
  ipReplacements : ℕ := 0
  macScrubs : ℕ := 0
  deriving DecidableEq, Repr

def replaceIp (placeholderIp : String) (state : List Char × Counts) (ip : String) :
    List Char × Counts :=
  if ip ≠ "" ∧ ip.toList <:+: state.1 then
    (rewrite (literal ip.toList placeholderIp.toList) none 0 state.1,
      { state.2 with ipReplacements := state.2.ipReplacements + 1 })
  else state

def redactString (lang : Language) (sourceIps : List String) (placeholderIp s : String)
    (counts : Counts) : String × Counts :=
  let (text,counts) := sourceIps.foldl (replaceIp placeholderIp) (s.toList,counts)
  (String.ofList (rewrite (macRule lang) none 0 text),
    { counts with macScrubs := counts.macScrubs + hits (macRule lang) none 0 text })

def covered (placeholder : String) : Json → Option (Json × ℕ)
  | .str _ => some (.str placeholder,1)
  | .arr items =>
      if items.all isStr then some (.arr (items.map fun _ => .str placeholder),items.length) else none
  | _ => none

section
variable (lang : Language) (sourceIps : List String) (placeholderIp : String)
  (sensitive : List (String × String))

mutual
def redactObj : Json → Counts → Json × Counts
  | .obj m, counts =>
      let (members,counts) := redactMembers m counts
      (.obj members,counts)
  | .arr items, counts =>
      let (items,counts) := redactItems items counts
      (.arr items,counts)
  | .str s, counts =>
      let (s,counts) := redactString lang sourceIps placeholderIp s counts
      (.str s,counts)
  | .null, counts => (.null,counts)
  | .bool b, counts => (.bool b,counts)
  | .int n, counts => (.int n,counts)
  | .float x, counts => (.float x,counts)
termination_by structural j => j
def redactItems : List Json → Counts → List Json × Counts
  | [], counts => ([],counts)
  | j::rest, counts =>
      let (value,counts) := redactObj j counts
      let (others,counts) := redactItems rest counts
      (value::others,counts)
termination_by structural l => l
def redactMembers : List (String × Json) → Counts → List (String × Json) × Counts
  | [], counts => ([],counts)
  | (key,j)::rest, counts =>
      let (value,counts) := match (secretPlaceholder lang key sensitive).bind (covered · j) with
        | some (value,gone) => (value,{ counts with keyRedactions := counts.keyRedactions + gone })
        | none => redactObj j counts
      let (others,counts) := redactMembers rest counts
      ((key,value)::others,counts)
termination_by structural l => l
end

def processTree (documents : List (String × Json)) (counts : Counts) :
    List (String × Json) × Counts :=
  documents.foldl (fun (written,counts) (path,data) =>
    let (cleaned,counts) := redactObj lang sourceIps placeholderIp sensitiveKeys data counts
    (written ++ [(path,cleaned)],{ counts with files := counts.files + 1 })) ([],counts)
end

def redactSuffixes : List String :=
  ["password","sha256password","sha256passwordsalt","ipmikey","md5v3key","shav3key","sha1v3key",
   "sha256v3key","communityname","agentcommunity","snmpv3passphrase","passphrase","token","authtoken",
   "privatekey","sharedsecret","presharedkey","chapsecret","chapsecretreverse","encryptionkey",
   "bindpassword","username","usernames"]

def redactSuffixPatterns : List String := ["v3key","community"]

def isSecretKey (lang : Language) (key : String) : Bool :=
  let last := lastSegment (lang.lower key)
  redactSuffixes.contains last ||
    redactSuffixPatterns.any fun suffix => suffix.toList.isSuffixOf last.toList

def isCredential (lang : Language) (v : String) : Bool :=
  PyText.strip v ≠ "" && lang.lower v ≠ "null"

def credentialCover (lang : Language) (key : String) (v : Json) : Option Json :=
  if isSecretKey lang key then match v with
    | .str s => if isCredential lang s then some (.str "REDACTED") else none
    | .arr items => if items.all isStr then some (.arr (items.map fun _ => .str "REDACTED")) else none
    | _ => none
  else none

mutual
def redactCredentials (lang : Language) : Json → Json
  | .obj m => .obj (redactCredentialMembers lang m)
  | .arr items => .arr (redactCredentialItems lang items)
  | .null => .null
  | .bool b => .bool b
  | .int n => .int n
  | .float x => .float x
  | .str s => .str s
termination_by structural j => j
def redactCredentialItems (lang : Language) : List Json → List Json
  | [] => []
  | j::rest => redactCredentials lang j :: redactCredentialItems lang rest
termination_by structural l => l
def redactCredentialMembers (lang : Language) : List (String × Json) → List (String × Json)
  | [] => []
  | (key,j)::rest => (key,match credentialCover lang key j with
      | some v => v
      | none => redactCredentials lang j) :: redactCredentialMembers lang rest
termination_by structural l => l
end

def replaceIps (sourceIps : List String) (placeholderIp : String) (text : List Char) : List Char :=
  sourceIps.foldl (fun text ip =>
    if ip ≠ "" ∧ ip.toList <:+: text then rewrite (literal ip.toList placeholderIp.toList) none 0 text
    else text) text

def scrub (lang : Language) (sourceIps : List String) (placeholderIp s : String) : String :=
  String.ofList (rewrite (macRule lang) none 0 (replaceIps sourceIps placeholderIp s.toList))

def identifierCover (lang : Language) (sensitive : List (String × String)) (key : String) (v : Json) :
    Option Json :=
  ((secretPlaceholder lang key sensitive).bind (covered · v)).map Prod.fst

section
variable {lang : Language} {sourceIps : List String} {placeholderIp : String}
  {sensitive : List (String × String)}

theorem replaceIpsText (ips : List String) (state : List Char × Counts) :
    (ips.foldl (replaceIp placeholderIp) state).1 = replaceIps ips placeholderIp state.1 := by
  induction ips generalizing state with
  | nil => rfl
  | cons ip rest ih =>
    rw [List.foldl_cons,ih,replaceIps,replaceIps,List.foldl_cons,replaceIp]
    split <;> rfl

theorem redactStringText (s : String) (counts : Counts) :
    (redactString lang sourceIps placeholderIp s counts).1 = scrub lang sourceIps placeholderIp s := by
  rw [redactString,scrub,← replaceIpsText sourceIps (s.toList,counts)]

mutual
theorem redactObjMask : ∀ j counts, (redactObj lang sourceIps placeholderIp sensitive j counts).1 =
      mask (identifierCover lang sensitive) (scrub lang sourceIps placeholderIp) j
  | .obj m, counts => by rw [redactObj,mask,← redactMembersMask m counts]
  | .arr items, counts => by rw [redactObj,mask,← redactItemsMask items counts]
  | .str s, counts => by rw [redactObj,mask,← redactStringText s counts]
  | .null, _ => by rw [redactObj,mask]
  | .bool b, _ => by rw [redactObj,mask]
  | .int n, _ => by rw [redactObj,mask]
  | .float x, _ => by rw [redactObj,mask]
theorem redactItemsMask : ∀ items counts,
    (redactItems lang sourceIps placeholderIp sensitive items counts).1 =
      maskItems (identifierCover lang sensitive) (scrub lang sourceIps placeholderIp) items
  | [], _ => by rw [redactItems,maskItems]
  | j::rest, counts => by
      rw [redactItems,maskItems,← redactObjMask j counts,← redactItemsMask rest]
theorem redactMembersMask : ∀ m counts,
    (redactMembers lang sourceIps placeholderIp sensitive m counts).1 =
      maskMembers (identifierCover lang sensitive) (scrub lang sourceIps placeholderIp) m
  | [], _ => by rw [redactMembers,maskMembers]
  | (key,j)::rest, counts => by
      rw [redactMembers,maskMembers,identifierCover]
      cases (secretPlaceholder lang key sensitive).bind (covered · j) with
      | none =>
        dsimp only [Option.map_none]
        rw [← redactObjMask j counts,← redactMembersMask rest]
      | some found =>
        obtain ⟨v,gone⟩ := found
        dsimp only [Option.map_some]
        rw [← redactMembersMask rest]
end

mutual
theorem redactCredentialsMask : ∀ j, redactCredentials lang j = mask (credentialCover lang) id j
  | .obj m => by rw [redactCredentials,mask,redactCredentialMembersMask m]
  | .arr items => by rw [redactCredentials,mask,redactCredentialItemsMask items]
  | .str s => by rw [redactCredentials,mask,id]
  | .null => by rw [redactCredentials,mask]
  | .bool b => by rw [redactCredentials,mask]
  | .int n => by rw [redactCredentials,mask]
  | .float x => by rw [redactCredentials,mask]
theorem redactCredentialItemsMask : ∀ items,
    redactCredentialItems lang items = maskItems (credentialCover lang) id items
  | [] => by rw [redactCredentialItems,maskItems]
  | j::rest => by
      rw [redactCredentialItems,maskItems,redactCredentialsMask j,redactCredentialItemsMask rest]
theorem redactCredentialMembersMask : ∀ m,
    redactCredentialMembers lang m = maskMembers (credentialCover lang) id m
  | [] => by rw [redactCredentialMembers,maskMembers]
  | (key,j)::rest => by
      rw [redactCredentialMembers,maskMembers]
      cases credentialCover lang key j with
      | none =>
        dsimp only
        rw [redactCredentialsMask j,redactCredentialMembersMask rest]
      | some v =>
        dsimp only
        rw [redactCredentialMembersMask rest]
end

end

/- Values that a masking by kind cannot tell apart: texts of the sort, or lists of as many texts. -/
inductive Interchangeable (sort : String → Prop) : Json → Json → Prop
  | str {s t : String} (first : sort s) (second : sort t) : Interchangeable sort (.str s) (.str t)
  | arr {xs ys : List Json} (long : xs.length = ys.length) (first : xs.all isStr = true)
      (second : ys.all isStr = true) : Interchangeable sort (.arr xs) (.arr ys)

def identifiersDiffer (lang : Language) (sensitive : List (String × String)) (key : String)
    (x y : Json) : Prop :=
  (secretPlaceholder lang key sensitive).isSome = true ∧ Interchangeable (fun _ => True) x y

def credentialsDiffer (lang : Language) (key : String) (x y : Json) : Prop :=
  isSecretKey lang key = true ∧ Interchangeable (fun s => isCredential lang s = true) x y

section
variable {hidden : String → Json → Json → Prop} {lang : Language} {sensitive : List (String × String)}

theorem isStrEqual {x y} (same : EqualBut hidden x y) : isStr x = isStr y := by
  cases x with
  | obj m =>
    obtain ⟨n,rfl,members⟩ := same
    rfl
  | arr items =>
    obtain ⟨others,rfl,each⟩ := same
    rfl
  | _ => rw [EqualBut] at same; rw [same]

theorem itemsEqual {xs ys} (same : ItemsBut hidden xs ys) :
    xs.all isStr = ys.all isStr ∧ xs.length = ys.length := by
  induction xs generalizing ys with
  | nil =>
    rw [same]
    exact ⟨rfl,rfl⟩
  | cons x xs ih =>
    obtain ⟨y,rest,rfl,head,tail⟩ := same
    obtain ⟨kinds,long⟩ := ih tail
    rw [List.all_cons,isStrEqual head,kinds,List.length_cons,long]
    exact ⟨rfl,rfl⟩

theorem placeholdersEqual {xs ys : List Json} (long : xs.length = ys.length) (v : Json) :
    (xs.map fun _ => v) = ys.map fun _ => v := by
  rw [List.map_const',List.map_const',long]

theorem coveredEqual (placeholder : String) {x y : Json} (same : EqualBut hidden x y) :
    covered placeholder x = covered placeholder y := by
  cases x with
  | obj m =>
    obtain ⟨n,rfl,members⟩ := same
    rfl
  | arr items =>
    obtain ⟨others,rfl,each⟩ := same
    obtain ⟨kinds,long⟩ := itemsEqual each
    rw [covered,covered,kinds,long,placeholdersEqual long]
  | _ => rw [EqualBut] at same; rw [same]

theorem identifierCovers :
    Covers (identifiersDiffer lang sensitive) (identifierCover lang sensitive) := by
  constructor
  · rintro key x y ⟨secret,pair⟩
    obtain ⟨placeholder,given⟩ := Option.isSome_iff_exists.mp secret
    simp only [identifierCover,given,Option.bind_some]
    cases pair with
    | str first second => exact ⟨.str placeholder,rfl,rfl⟩
    | @arr xs ys long first second =>
      refine ⟨.arr (xs.map fun _ => .str placeholder),?_,?_⟩
      · simp [covered,first]
      · simp [covered,second,placeholdersEqual long]
  · intro key x y same
    simp [identifierCover,coveredEqual _ same]

theorem credentialCovers : Covers (credentialsDiffer lang) (credentialCover lang) := by
  constructor
  · rintro key x y ⟨secret,pair⟩
    simp only [credentialCover,secret,if_true]
    cases pair with
    | str first second => exact ⟨.str "REDACTED",if_pos first,if_pos second⟩
    | @arr xs ys long first second =>
      refine ⟨.arr (xs.map fun _ => .str "REDACTED"),if_pos first,?_⟩
      rw [placeholdersEqual long]
      exact if_pos second
  · intro key x y same
    unfold credentialCover
    cases x with
    | obj m =>
      obtain ⟨n,rfl,members⟩ := same
      rfl
    | arr items =>
      obtain ⟨others,rfl,each⟩ := same
      obtain ⟨kinds,long⟩ := itemsEqual each
      simp [kinds,placeholdersEqual long]
    | _ => rw [EqualBut] at same; rw [same]
end

section
variable {cover : String → Json → Option Json} {leaf : String → String}

theorem isStrMask (j : Json) : isStr (mask cover leaf j) = isStr j := by
  cases j <;> rw [mask] <;> rfl

theorem itemsMask (items : List Json) : (maskItems cover leaf items).all isStr = items.all isStr := by
  induction items with
  | nil => rw [maskItems]
  | cons j rest ih => rw [maskItems,List.all_cons,List.all_cons,isStrMask,ih]

end

theorem credentialSettled {lang : Language} (kept : lang.lower "REDACTED" ≠ "null") :
    Json.Settled (credentialCover lang) id := by
  have again : isCredential lang "REDACTED" = true := by simpa [isCredential] using ⟨by decide,kept⟩
  constructor
  · intro key j v found
    unfold credentialCover at found ⊢
    split at found
    · rename_i secret
      cases j with
      | str s =>
        obtain ⟨-,rfl⟩ : isCredential lang s = true ∧ _ := by simpa using found
        simp [secret,again]
      | arr items =>
        obtain ⟨-,rfl⟩ : items.all isStr = true ∧ _ := by simpa using found
        simp [secret,isStr]
      | _ => cases found
    · cases found
  · intro key j plain
    unfold credentialCover at plain ⊢
    cases j <;> simp_all [mask,itemsMask]

/- What the redactors show of a document does not depend on the secret strings in it. -/
theorem redactionHidesSecrets (lang : Language) (sourceIps : List String) (placeholderIp : String) :
    (∀ x y counts counts', EqualBut (identifiersDiffer lang sensitiveKeys) x y →
      (redactObj lang sourceIps placeholderIp sensitiveKeys x counts).1 =
        (redactObj lang sourceIps placeholderIp sensitiveKeys y counts').1) ∧
    ∀ x y, EqualBut (credentialsDiffer lang) x y → redactCredentials lang x = redactCredentials lang y := by
  constructor
  · intro x y counts counts' same
    rw [redactObjMask,redactObjMask,Json.maskEqual identifierCovers x y same]
  · intro x y same
    rw [redactCredentialsMask,redactCredentialsMask,Json.maskEqual credentialCovers x y same]

namespace Sample

def ascii : Language where
  lower s := String.ofList (s.toList.map Char.toLower)
  isWord c := (PyUrl.hexValue c).isSome || c.isAlphanum || c = '_'
  hexWord hex := by rw [hex]; rfl
  colon := by decide

def account (v : Json) : Json := .obj [("UserId",.str "operator"),("Password",v)]

end Sample

open Sample

theorem accountsRedactAlike :
    ((redactObj ascii ["10.1.1.1"] "203.0.113.10" sensitiveKeys (account (.str "hunter2")) {}).1 =
      (redactObj ascii ["10.1.1.1"] "203.0.113.10" sensitiveKeys (account (.str "null")) {}).1) ∧
    redactCredentials ascii (account (.arr [.str "hunter2",.str ""])) =
      redactCredentials ascii (account (.arr [.str "",.str "swordfish"])) := by
  have shown := (redactionHidesSecrets ascii ["10.1.1.1"] "203.0.113.10").1
  have packer := (redactionHidesSecrets ascii ["10.1.1.1"] "203.0.113.10").2
  refine ⟨shown _ _ {} {} ?_,packer _ _ ?_⟩
  · exact ⟨_,rfl,_,_,rfl,.inr rfl,_,_,rfl,.inl ⟨by decide +kernel,.str trivial trivial⟩,rfl⟩
  · exact ⟨_,rfl,_,_,rfl,.inr rfl,_,_,rfl,.inl ⟨by decide +kernel,.arr rfl rfl rfl⟩,rfl⟩

theorem secretValuesShow : isSecretKey ascii "Password" = true ∧
    (secretPlaceholder ascii "Password" sensitiveKeys).isSome = true ∧
    redactCredentials ascii (account (.str "null")) ≠ redactCredentials ascii (account (.str "hunter2")) ∧
    redactCredentials ascii (account (.str " ")) ≠ redactCredentials ascii (account (.str "hunter2")) ∧
    (∀ v ∈ [(Json.int 1,Json.int 2),(.obj [("Value",.int 1)],.obj [("Value",.int 2)]),
        (.arr [.int 1],.arr [.int 2])],
      redactCredentials ascii (account v.1) ≠ redactCredentials ascii (account v.2) ∧
      (redactObj ascii [] "203.0.113.10" sensitiveKeys (account v.1) {}).1 ≠
        (redactObj ascii [] "203.0.113.10" sensitiveKeys (account v.2) {}).1) := by
  decide +kernel

end RedfishCtl.Redaction
