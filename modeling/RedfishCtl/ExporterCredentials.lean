import RedfishCtl.PyText

/-! The credentials of the exporter: the guard against a password on the command line, and the
credential file. -/
namespace RedfishCtl.ExporterCredentials
open AssocList
open PyText (strip stripChars dropEnd isSpace isDigit digitsValue)

def secretArgNames : List String := ["--password"]

def isSecret (arg : String) : Bool :=
  secretArgNames.any fun name => arg = name || (name.toList ++ ['=']).isPrefixOf arg.toList

def exporterArgvUsesSecret (argv : List String) : Bool :=
  argv.contains "exporter" && argv.any isSecret

/- Behind the guard the credential file and the endpoint checks may end the process with the status
1. -/
inductive Later where
  | stopped
  | runs

inductive Ending where
  | exit (status : Nat)
  | connects
  deriving DecidableEq

def redfishMainCtl (argv : List String) : Later → Ending
  | .stopped => if exporterArgvUsesSecret argv then .exit 2 else .exit 1
  | .runs => if exporterArgvUsesSecret argv then .exit 2 else .connects

def rootOptions : List String :=
  ["--help","--host","--username","--password","--port","--insecure","--verify-ssl","--use-http",
   "--use_http","--select","--filter","--expand","--expand-levels","--top","--only","--debug",
   "--verbose","--log","--otlp-traces","--no_extra","--no_action","--json","--yaml","--json_only",
   "--data_only","--no-stdout","--no_stdout","--nocolor","--filename","--vendor","--version"]

/- The parser takes an option by its name or by a beginning that no other name has. -/
def Spells (word option : String) : Prop :=
  word = option ∨ rootOptions.filter (fun name => word.toList.isPrefixOf name.toList) = [option]

inductive Item where
  | attached (spelling value : String)
  | detached (spelling value : String)
  | other (words : List String)

def Item.words : Item → List String
  | .attached spelling value => [spelling ++ "=" ++ value]
  | .detached spelling value => [spelling,value]
  | .other words => words

/- A command line that selects the exporter: `attached` and `detached` items are the passwords. -/
structure CommandLine where
  program : String
  items : List Item
  rest : List String

namespace CommandLine

def argv (line : CommandLine) : List String :=
  line.program :: (line.items.flatMap Item.words ++ "exporter" :: line.rest)

def Password (line : CommandLine) (spelling : String) : Prop :=
  ∃ value, .attached spelling value ∈ line.items ∨ .detached spelling value ∈ line.items

def besides (line : CommandLine) : List String :=
  line.program :: line.rest ++ line.items.flatMap fun item => match item with
    | .attached _ _ => []
    | .detached _ value => [value]
    | .other words => words

end CommandLine

theorem spellsPrefix {word} (spells : Spells word "--password") :
    word.toList <+: "--password".toList := by
  obtain rfl | only := spells
  · exact List.prefix_refl _
  · have mem : "--password" ∈ rootOptions.filter fun name => word.toList.isPrefixOf name.toList :=
      only ▸ List.mem_singleton_self _
    exact List.isPrefixOf_iff_prefix.mp (List.mem_filter.mp mem).2

theorem secretIff {arg} : isSecret arg = true ↔
    arg = "--password" ∨ "--password".toList ++ ['='] <+: arg.toList := by
  simp [isSecret,secretArgNames]

theorem attachedSecret {spelling} (spells : Spells spelling "--password") (value : String) :
    isSecret (spelling ++ "=" ++ value) = true ↔ spelling = "--password" := by
  obtain ⟨tail,whole⟩ := spellsPrefix spells
  have plain : '=' ∉ "--password".toList := by decide
  have text : (spelling ++ "=" ++ value).toList = spelling.toList ++ '='::value.toList := by
    rw [String.toList_append,String.toList_append,List.append_assoc]
    rfl
  rw [secretIff]
  constructor
  · rintro (same | long)
    · have equal := congrArg String.toList same
      exact absurd (equal ▸ by simp) plain
    rw [text,← whole,List.append_assoc,List.prefix_append_right_inj] at long
    cases tail with
    | nil =>
      rw [List.append_nil] at whole
      exact String.toList_inj.mp whole
    | cons c more =>
      rw [List.cons_append,List.cons_prefix_cons] at long
      exact absurd (whole ▸ long.1 ▸ by simp) plain
  · rintro rfl
    refine .inr ⟨value.toList,?_⟩
    rw [text]
    rfl

theorem detachedSecret {spelling} (spells : Spells spelling "--password") :
    isSecret spelling = true ↔ spelling = "--password" := by
  rw [secretIff]
  constructor
  · rintro (same | long)
    · exact same
    · have lengths := (long.trans (spellsPrefix spells)).length_le
      simp at lengths
  · exact .inl

def shortLine : CommandLine := ⟨"redfish_ctl",[.attached "--pass" "calvin"],["--once"]⟩
def fullLine : CommandLine := ⟨"redfish_ctl",[.detached "--password" "calvin"],["--once"]⟩

def exporterCredKeys : List String :=
  ["REDFISH_IP","REDFISH_USERNAME","REDFISH_PASSWORD","REDFISH_PORT"]

def isQuote (c : Char) : Bool := c = PyText.apostrophe || c = PyText.quotation

def readLine (rawLine : String) : Option (String × String) :=
  let line := strip rawLine
  if line = "" || line.toList.head? = some '#' || !line.toList.contains '=' then none
  else
    let key := strip (String.ofList (line.toList.takeWhile (· ≠ '=')))
    let value := String.ofList ((line.toList.dropWhile (· ≠ '=')).drop 1)
    if exporterCredKeys.contains key then some (key,stripChars isQuote (strip value)) else none

def loadExporterEnvFile (lines : List String) : List (String × String) :=
  update [] (lines.filterMap readLine)

abbrev Namespace := List (String × Json)

def endpointDefaults (environ : String → Option String) : Except PyError Namespace := do
  let port ← PyText.int (.str ((environ "REDFISH_PORT").getD "443"))
  pure [("redfish_host",.str ((environ "REDFISH_IP").getD "")),
    ("redfish_username",.str ((environ "REDFISH_USERNAME").getD "root")),
    ("redfish_password",.str ((environ "REDFISH_PASSWORD").getD "")),("redfish_port",.int port)]

def applyValue (values : List (String × String)) (args : Namespace) (entry : String × String) :
    Except PyError Namespace :=
  match args.lookup entry.1, values.lookup entry.2 with
  | some current, some value =>
      if current ∈ [Json.str "",.null,.str "root"] ∨ entry.1 = "redfish_password" then
        if entry.1 = "redfish_port" then do
          let port ← PyText.int (.str value)
          pure (insert entry.1 (.int port) args)
        else pure (insert entry.1 (.str value) args)
      else pure args
  | _, _ => pure args

def mapping : List (String × String) :=
  [("redfish_host","REDFISH_IP"),("redfish_username","REDFISH_USERNAME"),
   ("redfish_password","REDFISH_PASSWORD"),("redfish_port","REDFISH_PORT")]

def applyExporterEnvFile (lines : List String) (args : Namespace) : Except PyError Namespace :=
  mapping.foldlM (applyValue (loadExporterEnvFile lines)) args

/- A value of the file, as it is or wrapped in quotes, without blanks around it. -/
structure Written where
  quote : Option Char
  quoted : ∀ q ∈ quote, isQuote q = true
  value : String
  trimmed : strip value = value
  plain : quote = none → ∀ c ∈ value.toList, isQuote c = false

def Written.text (w : Written) : String :=
  String.ofList (w.quote.toList ++ w.value.toList ++ w.quote.toList)

inductive Line where
  | setting (key : String) (written : Written)
  | other (text : String)

def Line.text : Line → String
  | .setting key written => key ++ "=" ++ written.text
  | .other text => text

structure Legal (file : List Line) : Prop where
  known : ∀ key written, .setting key written ∈ file → key ∈ exporterCredKeys
  silent : ∀ text, .other text ∈ file → readLine text = none
  once : (file.filterMap fun line => match line with
    | .setting key _ => some key
    | .other _ => none).Nodup
  decimal : ∀ written, .setting "REDFISH_PORT" written ∈ file →
    written.value ≠ "" ∧ written.value.toList.all isDigit

def expected (key value : String) : Json :=
  if key = "REDFISH_PORT" then .int (digitsValue value.toList) else .str value

def Honoured (file : List Line) (after : Namespace) : Prop :=
  ∀ key written, .setting key written ∈ file → ∀ attr, (attr,key) ∈ mapping →
    after.lookup attr = some (expected key written.value)

def Bare (value : String) : Prop :=
  ∀ c, value.toList.head? = some c ∨ value.toList.getLast? = some c → isQuote c = false

theorem stripSame {p s} :
    stripChars p s = s ↔
      ∀ c, s.toList.head? = some c ∨ s.toList.getLast? = some c → p c = false := by
  rw [← String.toList_inj,stripChars,String.toList_ofList]
  constructor
  · rintro same c (first | last)
    · rw [← same] at first
      have whole : (s.toList.dropWhile p).head? = some c := by
        obtain ⟨rest,split⟩ : dropEnd p (s.toList.dropWhile p) <+: s.toList.dropWhile p := by
          rw [dropEnd,← List.reverse_suffix,List.reverse_reverse]
          exact List.dropWhile_suffix p
        rw [← split,List.head?_append,first]
        rfl
      have stopped := List.head?_dropWhile_not p s.toList
      rw [whole] at stopped
      simpa using stopped
    · exact PyText.dropEndLast (same ▸ last)
  · intro ends
    have front : s.toList.dropWhile p = s.toList := by
      cases text : s.toList with
      | nil => rfl
      | cons c rest => rw [List.dropWhile_cons_of_neg (by simp [ends c (.inl (by rw [text]; rfl))])]
    rw [front]
    exact PyText.dropEndSame fun c last => ends c (.inr last)

theorem stripWrapped {q} (quoted : isQuote q = true) (cs : List Char) :
    dropEnd isQuote ((q::(cs ++ [q])).dropWhile isQuote) = dropEnd isQuote (cs.dropWhile isQuote) := by
  rw [List.dropWhile_cons_of_pos quoted,List.dropWhile_append]
  cases left : cs.dropWhile isQuote with
  | nil => simp [quoted]
  | cons c rest =>
    rw [dropEnd,dropEnd]
    simp [left,quoted]

theorem writtenStripped (w : Written) : stripChars isQuote w.text = stripChars isQuote w.value := by
  obtain ⟨quote,quoted,value,_,_⟩ := w
  cases quote with
  | none => simp [Written.text]
  | some q =>
    rw [stripChars,Written.text,String.toList_ofList]
    exact congrArg String.ofList (stripWrapped (quoted q rfl) value.toList)

theorem writtenTrimmed (w : Written) : strip w.text = w.text := by
  obtain ⟨quote,quoted,value,trimmed,_⟩ := w
  cases quote with
  | none => simpa [Written.text] using trimmed
  | some q =>
    have spaceless : isSpace q = false := by
      have either := quoted q rfl
      simp only [isQuote,Bool.or_eq_true,decide_eq_true_eq] at either
      obtain rfl | rfl := either <;> decide
    have shape : (Written.text ⟨some q,quoted,value,trimmed,by simp⟩).toList =
        (q::value.toList) ++ [q] := by
      simp [Written.text]
    rw [strip,stripSame,shape,List.getLast?_concat]
    rintro c (first | last)
    · cases Option.some.inj first
      exact spaceless
    · cases Option.some.inj last
      exact spaceless

theorem keyPlain : ∀ key ∈ exporterCredKeys,
    key.toList.head? = some 'R' ∧ '=' ∉ key.toList ∧ strip key = key := by decide

variable {key : String}

theorem readSetting (known : key ∈ exporterCredKeys) (w : Written) :
    readLine (Line.setting key w).text = some (key,stripChars isQuote w.value) := by
  obtain ⟨start,bare,same⟩ := keyPlain key known
  have chars : (Line.setting key w).text.toList = key.toList ++ '='::w.text.toList := by
    rw [Line.text,String.toList_append,String.toList_append,List.append_assoc]
    rfl
  have whole : strip (Line.setting key w).text = (Line.setting key w).text := by
    rw [strip,stripSame,chars]
    rintro c (first | last)
    · rw [List.head?_append,start] at first
      cases Option.some.inj first
      decide
    rw [List.getLast?_append,List.getLast?_cons] at last
    cases ending : w.text.toList.getLast? with
    | none =>
      rw [ending] at last
      cases Option.some.inj last
      decide
    | some d =>
      rw [ending] at last
      cases Option.some.inj last
      exact stripSame.mp (writtenTrimmed w) _ (.inr ending)
  have letters : ∀ c ∈ key.toList, decide (c ≠ '=') = true := by
    intro c mem
    rw [decide_eq_true_eq]
    rintro rfl
    exact bare mem
  have front : (key.toList ++ '='::w.text.toList).takeWhile (· ≠ '=') = key.toList := by
    rw [List.takeWhile_append_of_pos letters]
    simp
  have back : (key.toList ++ '='::w.text.toList).dropWhile (· ≠ '=') = '='::w.text.toList := by
    rw [List.dropWhile_append_of_pos letters]
    simp
  have opened : (key.toList ++ '='::w.text.toList).head? = some 'R' := by
    rw [List.head?_append,start]
    rfl
  have full : (Line.setting key w).text ≠ "" := by
    intro none
    rw [none] at chars
    simp at chars
  unfold readLine
  simp only [whole,chars,front,back,opened,full]
  simp [known,same,writtenTrimmed,writtenStripped]

def settingOf : Line → Option (String × String)
  | .setting key written => some (key,stripChars isQuote written.value)
  | .other _ => none

theorem loaded {file} (legal : Legal file) {written} (mem : .setting key written ∈ file) :
    (loadExporterEnvFile (file.map Line.text)).lookup key = some (stripChars isQuote written.value) := by
  have read : (file.map Line.text).filterMap readLine = file.filterMap settingOf := by
    rw [List.filterMap_map]
    refine List.filterMap_congr fun line inside => ?_
    cases line with
    | setting k w => exact readSetting (legal.known k w inside) w
    | other text => exact legal.silent text inside
  have distinct : Distinct (file.filterMap settingOf) := by
    rw [Distinct,keys,List.map_filterMap]
    refine cast (congrArg List.Nodup (List.filterMap_congr fun line _ => ?_)) legal.once
    cases line <;> rfl
  rw [loadExporterEnvFile,read,lookupUpdate distinct,
    lookupOfMem distinct (List.mem_filterMap.mpr ⟨_,mem,rfl⟩)]
  rfl

theorem applied (values : List (String × String)) : mapping.foldlM (applyValue values)
    [("redfish_host",.str ""),("redfish_username",.str "root"),("redfish_password",.str ""),
      ("redfish_port",.int 443)] =
    .ok [("redfish_host",.str ((values.lookup "REDFISH_IP").getD "")),
      ("redfish_username",.str ((values.lookup "REDFISH_USERNAME").getD "root")),
      ("redfish_password",.str ((values.lookup "REDFISH_PASSWORD").getD "")),
      ("redfish_port",.int 443)] := by
  cases host : values.lookup "REDFISH_IP" <;> cases name : values.lookup "REDFISH_USERNAME" <;>
    cases secret : values.lookup "REDFISH_PASSWORD" <;> cases port : values.lookup "REDFISH_PORT" <;>
      simp [mapping,applyValue,host,name,secret,port] <;> rfl

theorem digitsPlain {value : String} (digits : value.toList.all isDigit = true) :
    ∀ c ∈ value.toList, isQuote c = false := by
  intro c mem
  have digit := List.all_eq_true.mp digits c mem
  rw [isQuote,Bool.or_eq_false_iff,decide_eq_false_iff_not,decide_eq_false_iff_not]
  constructor
  all_goals
    rintro rfl
    revert digit
    decide

theorem digitsBare {value : String} (digits : value.toList.all isDigit = true) : Bare value :=
  fun c ends => digitsPlain digits c (ends.elim List.mem_of_mem_head? List.mem_of_mem_getLast?)

/- The file is honoured exactly if no value has a quote at an end inside the wrapping ones, and the
port, which is never overwritten, is the default. -/
theorem credentialFile {environ : String → Option String}
    (unset : ∀ key ∈ exporterCredKeys, environ key = none) {file : List Line} (legal : Legal file) :
    ∃ args after, endpointDefaults environ = .ok args ∧
      applyExporterEnvFile (file.map Line.text) args = .ok after ∧
      (Honoured file after ↔ ∀ key written, .setting key written ∈ file →
        Bare written.value ∧ (key = "REDFISH_PORT" → digitsValue written.value.toList = 443)) := by
  refine ⟨_,_,?_,applied _,forall_congr' fun key => forall_congr' fun written => ?_⟩
  · rw [endpointDefaults,unset _ (by decide),unset _ (by decide),unset _ (by decide),unset _ (by decide)]
    rfl
  refine imp_congr_right fun mem => ?_
  have set := loaded legal mem
  by_cases port : key = "REDFISH_PORT"
  · subst port
    have bare := digitsBare (legal.decimal written mem).2
    simp [mapping,expected,bare,eq_comm]
    norm_cast
  have text : stripChars isQuote written.value = written.value ↔ Bare written.value := stripSame
  have known := legal.known key written mem
  simp only [exporterCredKeys,List.mem_cons,List.not_mem_nil,or_false,port] at known
  obtain rfl | rfl | rfl := known
  all_goals simp [mapping,expected,set,text]

theorem soleLegal {written} (known : key ∈ exporterCredKeys)
    (decimal : key = "REDFISH_PORT" → written.value ≠ "" ∧ written.value.toList.all isDigit) :
    Legal [.setting key written] where
  known := by simpa using known
  silent := by simp
  once := by simp
  decimal := by
    rintro w mem
    cases List.mem_singleton.mp mem
    exact decimal rfl

theorem quotationQuotes : ∀ q ∈ some PyText.quotation, isQuote q = true := by
  rintro q same
  rw [← Option.some.inj same]
  decide

def hostLine : Line :=
  .setting "REDFISH_IP" ⟨some PyText.quotation,quotationQuotes,"10.0.0.1",by decide,by simp⟩

def portLine : Line :=
  .setting "REDFISH_PORT" ⟨none,by simp,"8443",by decide,fun _ => digitsPlain (by decide)⟩

theorem hostHonoured : ∃ args after, endpointDefaults (fun _ => none) = .ok args ∧
    applyExporterEnvFile [hostLine.text] args = .ok after ∧ Honoured [hostLine] after := by
  have legal : Legal [hostLine] := soleLegal (by decide) fun same => absurd same (by decide)
  obtain ⟨args,after,defaults,applied,honoured⟩ := credentialFile (fun _ _ => rfl) legal
  refine ⟨args,after,defaults,applied,honoured.mpr fun key written mem => ?_⟩
  cases List.mem_singleton.mp mem
  exact ⟨stripSame.mp (by decide),fun same => absurd same (by decide)⟩

theorem portIgnored : Legal [portLine] ∧ ∃ args after, endpointDefaults (fun _ => none) = .ok args ∧
    applyExporterEnvFile [portLine.text] args = .ok after ∧
    after.lookup "redfish_port" = some (.int 443) ∧ ¬Honoured [portLine] after := by
  refine ⟨soleLegal (by decide) fun _ => by decide,_,_,rfl,applied _,rfl,fun honoured => ?_⟩
  exact absurd (honoured _ _ List.mem_cons_self "redfish_port" (by decide)) (by decide)

end RedfishCtl.ExporterCredentials
