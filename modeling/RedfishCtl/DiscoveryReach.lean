import RedfishCtl.DepthSearch
import RedfishCtl.DiscoveryRuns

/-! Which resources a crawl asks for. A resource whose first visit comes at the last level is kept
without its links, also if a shorter chain leads to it. -/
namespace RedfishCtl.Discovery
open DepthSearch

structure Fetching where
  asked : List String
  crawl : Crawl
  deriving DecidableEq

section
variable (fs : FileSystem) (directory : String) (bmc : Bmc)

def fetchLinks (walk : String → Fetching → Except PyError Fetching) :
    List String → Fetching → Except PyError Fetching
  | [], f => .ok f
  | link::rest, f => do fetchLinks walk rest (← walk link f)

def recursiveFetching (includeLogEntries : Bool) :
    Nat → String → Fetching → Except PyError Fetching
  | 0, _, f => .ok f
  | levels+1, resourcePath, f =>
      let path := normalizeResourcePath resourcePath
      if filtered path || (!includeLogEntries && logEntryMember path.toList) then
        .ok { f with crawl := visit path f.crawl }
      else if f.crawl.visited.contains path || !"/redfish/v1".toList.isPrefixOf path.toList then .ok f
      else do
        let c ← capture fs directory bmc path f.crawl
        if isOk (bmc path).1 then
          fetchLinks (recursiveFetching includeLogEntries levels) (extractOdataIds (bmc path).2)
            ⟨path::f.asked,c⟩
        else .ok ⟨path::f.asked,c⟩

def crawlFetching (includeLogEntries : Bool) : Except PyError Fetching :=
  if isOk (bmc serviceRoot).1 then do
    let files ← write fs serviceRootFile (bmc serviceRoot).2 []
    fetchLinks (recursiveFetching fs directory bmc includeLogEntries (maxDepth+1))
      (extractOdataIds (bmc serviceRoot).2) ⟨[normalizeResourcePath serviceRoot],seed directory files⟩
  else .error (queryError (bmc serviceRoot).1)

end

section
variable {fs : FileSystem} {directory : String} {bmc : Bmc} {includeLogEntries : Bool}

theorem fetchLinksCrawl {walk plain}
    (same : ∀ link f, (walk link f).map Fetching.crawl = plain link f.crawl) (links : List String)
    (f : Fetching) : (fetchLinks walk links f).map Fetching.crawl = walkLinks plain links f.crawl := by
  induction links generalizing f with
  | nil => rfl
  | cons link rest ih =>
    have first := same link f
    simp only [fetchLinks,walkLinks,← first]
    cases walk link f with
    | error e => rfl
    | ok g => exact ih g

theorem recursiveFetchingCrawl (levels : Nat) (resourcePath : String) (f : Fetching) :
    (recursiveFetching fs directory bmc includeLogEntries levels resourcePath f).map Fetching.crawl =
      recursiveDiscovery fs directory bmc includeLogEntries levels resourcePath f.crawl := by
  induction levels generalizing resourcePath f with
  | zero => rfl
  | succ levels ih =>
    simp only [recursiveFetching,recursiveDiscovery]
    split
    · rfl
    split
    · rfl
    cases capture fs directory bmc (normalizeResourcePath resourcePath) f.crawl with
    | error e => rfl
    | ok c =>
      split
      · exact fetchLinksCrawl ih _ _
      · rfl

theorem crawlFetchingCrawl : (crawlFetching fs directory bmc includeLogEntries).map Fetching.crawl =
      crawl fs directory bmc includeLogEntries := by
  unfold crawlFetching crawl
  split
  · cases write fs serviceRootFile (bmc serviceRoot).2 [] with
    | error e => rfl
    | ok files => exact fetchLinksCrawl (recursiveFetchingCrawl _) _ _
  · rfl

end

def skips (includeLogEntries : Bool) (path : String) : Bool :=
  filtered path || (!includeLogEntries && logEntryMember path.toList)

def compositionService : String := "/redfish/v1/CompositionService"

def unfiltered (includeLogEntries : Bool) (path : String) : Bool :=
  !skips includeLogEntries path && path ≠ compositionService

def inside (path : String) : Bool := "/redfish/v1".toList.isPrefixOf path.toList

def follows (includeLogEntries : Bool) (path : String) : Bool :=
  unfiltered includeLogEntries path && inside path && path ≠ "/redfish/v1"

section
variable (bmc : Bmc) (includeLogEntries : Bool)

def linksOf (path : String) : List String :=
  if isOk (bmc path).1 then (extractOdataIds (bmc path).2).map normalizeResourcePath else []

/- Reached from the service root by so many links through resources that are not filtered. -/
inductive Within : Nat → String → Prop
  | root {path : String} : path ∈ linksOf bmc serviceRoot →
      unfiltered includeLogEntries path = true → Within 1 path
  | link {links : Nat} {source path : String} : Within links source → path ∈ linksOf bmc source →
      unfiltered includeLogEntries path = true → Within (links+1) path

/- Reached without a resource in which some chain of `maxDepth+1` links through distinct resources
ends. -/
abbrev ReachedEarly (path : String) : Prop :=
  Early (linksOf bmc) (follows includeLogEntries) (linksOf bmc serviceRoot) (maxDepth+1) path

end

section
variable {fs : FileSystem} {directory : String} {bmc : Bmc} {includeLogEntries : Bool}

structure Agrees (includeLogEntries : Bool) (f : Fetching) (seen : List String) : Prop where
  asked : f.asked = seen ++ ["/redfish/v1"]
  visited : ∀ path, skips includeLogEntries path = false →
    (path ∈ f.crawl.visited ↔ path ∈ seen ∨ path = compositionService ∨ path = "/redfish/v1")

variable {seen : List String} {path : String} {f : Fetching}

theorem Agrees.skip
    (agrees : Agrees includeLogEntries f seen) (skipped : skips includeLogEntries path = true) :
    Agrees includeLogEntries { f with crawl := visit path f.crawl } seen := by
  refine ⟨agrees.asked,fun other kept => ?_⟩
  have differs : other ≠ path := by
    rintro rfl
    rw [kept] at skipped
    cases skipped
  simp [visit,differs,agrees.visited other kept]

theorem Agrees.take {c} (agrees : Agrees includeLogEntries f seen)
    (visited : c.visited = path::f.crawl.visited) :
    Agrees includeLogEntries ⟨path::f.asked,c⟩ (path::seen) := by
  refine ⟨by rw [agrees.asked]; rfl,fun other kept => ?_⟩
  rw [visited,List.mem_cons,agrees.visited other kept,List.mem_cons,or_assoc]

theorem Agrees.fresh
    (agrees : Agrees includeLogEntries f seen) (kept : skips includeLogEntries path = false) :
    (f.crawl.visited.contains path || !"/redfish/v1".toList.isPrefixOf path.toList) = false ↔
      follows includeLogEntries path = true ∧ path ∉ seen := by
  have known := agrees.visited path kept
  simp only [follows,unfiltered,inside,kept,Bool.or_eq_false_iff,List.contains_eq_mem,
    decide_eq_false_iff_not,known,Bool.not_eq_false',Bool.and_eq_true,decide_eq_true_iff,Bool.not_false,
    true_and,not_or]
  constructor
  · rintro ⟨⟨unseen,notComposition,notRoot⟩,redfish⟩
    exact ⟨⟨⟨notComposition,redfish⟩,notRoot⟩,unseen⟩
  · rintro ⟨⟨⟨notComposition,redfish⟩,notRoot⟩,unseen⟩
    exact ⟨⟨unseen,notComposition,notRoot⟩,redfish⟩

theorem captureWritten (directory : String) (c : Crawl)
    (written : fs.accepts (fileName path (bmc path).1) = true) :
    ∃ after, capture fs directory bmc path c = .ok after ∧ after.visited = path::c.visited := by
  simp [capture,write,written,bind,Except.bind]

def Writable (fs : FileSystem) (bmc : Bmc) (includeLogEntries : Bool) : Prop :=
  fs.accepts serviceRootFile = true ∧ ∀ links path, Within bmc includeLogEntries links path →
    inside path = true → fs.accepts (fileName path (bmc path).1) = true

def Named (bmc : Bmc) (includeLogEntries : Bool) (path : String) : Prop :=
  path ∈ linksOf bmc serviceRoot ∨
    ∃ links source, Within bmc includeLogEntries links source ∧ path ∈ linksOf bmc source

theorem Named.within (named : Named bmc includeLogEntries path)
    (kept : unfiltered includeLogEntries path = true) : ∃ links, Within bmc includeLogEntries links path := by
  rcases named with root | ⟨links,source,within,linked⟩
  · exact ⟨1,.root root kept⟩
  · exact ⟨links+1,.link within linked kept⟩

abbrev Simulates (bmc : Bmc) (includeLogEntries : Bool) (levels : Nat) (links seen : List String)
    (result : Except PyError Fetching) : Prop :=
  ∃ f, result = .ok f ∧ Agrees includeLogEntries f
    (searchAll (linksOf bmc) (follows includeLogEntries) levels links seen)

theorem fetchLinksSimulates {levels walk}
    (step : ∀ link f seen, Named bmc includeLogEntries (normalizeResourcePath link) →
      Agrees includeLogEntries f seen →
      Simulates bmc includeLogEntries levels [normalizeResourcePath link] seen (walk link f))
    {links} (named : ∀ link ∈ links, Named bmc includeLogEntries (normalizeResourcePath link))
    (agrees : Agrees includeLogEntries f seen) :
    Simulates bmc includeLogEntries levels (links.map normalizeResourcePath) seen
      (fetchLinks walk links f) := by
  induction links generalizing f seen with
  | nil => exact ⟨f,rfl,agrees⟩
  | cons link rest ih =>
    obtain ⟨g,walked,agreesNow⟩ := step link f seen (named link List.mem_cons_self) agrees
    simp only [fetchLinks,walked,bind,Except.bind]
    exact ih (fun other mem => named other (List.mem_cons_of_mem link mem)) agreesNow

theorem recursiveFetchingSimulates (writable : Writable fs bmc includeLogEntries) (levels : Nat)
    (resourcePath : String) (f : Fetching) (seen : List String)
    (named : Named bmc includeLogEntries (normalizeResourcePath resourcePath))
    (agrees : Agrees includeLogEntries f seen) :
    Simulates bmc includeLogEntries levels [normalizeResourcePath resourcePath] seen
      (recursiveFetching fs directory bmc includeLogEntries levels resourcePath f) := by
  induction levels generalizing resourcePath f seen with
  | zero => exact ⟨f,rfl,agrees⟩
  | succ levels ih =>
    unfold Simulates
    simp only [recursiveFetching,searchAllCons,searchAllNil]
    generalize normalizeResourcePath resourcePath = path at named ⊢
    cases skipped : skips includeLogEntries path with
    | true =>
      have passed : follows includeLogEntries path = true → path ∈ seen := by
        simp [follows,unfiltered,skipped]
      rw [if_pos (by simpa only [skips] using skipped),searchPassed passed]
      exact ⟨_,rfl,agrees.skip skipped⟩
    | false =>
      rw [if_neg (by simpa [skips] using skipped)]
      have guards := agrees.fresh skipped
      by_cases fresh : follows includeLogEntries path = true ∧ path ∉ seen
      · have asks := guards.mpr fresh
        rw [if_neg (by simpa using asks),searchFresh fresh.1 fresh.2]
        have kept : unfiltered includeLogEntries path = true ∧ inside path = true := by
          have followed := fresh.1
          simp only [follows,Bool.and_eq_true] at followed
          exact followed.1
        obtain ⟨links,within⟩ := named.within kept.1
        obtain ⟨c,captured,visited⟩ :=
          captureWritten directory f.crawl (writable.2 links path within kept.2)
        simp only [captured,bind,Except.bind,linksOf]
        split
        · rename_i ok
          refine fetchLinksSimulates (fun link f seen named agrees => ih link f seen named agrees)
            (fun link mem => .inr ⟨links,path,within,?_⟩) (agrees.take visited)
          rw [linksOf,if_pos ok]
          exact List.mem_map_of_mem mem
        · exact ⟨_,rfl,agrees.take visited⟩
      · have stops := mt guards.mp fresh
        rw [if_pos (Bool.of_not_eq_false stops),searchPassed (by simpa using fresh)]
        exact ⟨f,rfl,agrees⟩

theorem serviceRootPath : normalizeResourcePath serviceRoot = "/redfish/v1" := by
  decide

theorem crawlSimulates (fs : FileSystem) (directory : String) (bmc : Bmc) (includeLogEntries : Bool)
    (rootOk : isOk (bmc serviceRoot).1 = true)
    (writable : Writable fs bmc includeLogEntries) :
    Simulates bmc includeLogEntries (maxDepth+1) (linksOf bmc serviceRoot) []
      (crawlFetching fs directory bmc includeLogEntries) := by
  have root : linksOf bmc serviceRoot = (extractOdataIds (bmc serviceRoot).2).map normalizeResourcePath :=
    if_pos rootOk
  rw [root,crawlFetching,if_pos rootOk,write,if_pos writable.1]
  refine fetchLinksSimulates (recursiveFetchingSimulates writable _) (fun link mem => .inl ?_) ?_
  · rw [root]
    exact List.mem_map_of_mem mem
  · refine ⟨congrArg (fun path => [path]) serviceRootPath,fun path _ => ?_⟩
    simp [seed,compositionService]

theorem Agrees.once {levels links} (agrees : Agrees includeLogEntries f
      (searchAll (linksOf bmc) (follows includeLogEntries) levels links [])) : f.asked.Nodup := by
  rw [agrees.asked,List.nodup_append]
  refine ⟨searchOnce levels links List.nodup_nil,by simp,fun path mem root only => ?_⟩
  cases List.mem_singleton.mp only
  rintro rfl
  rcases searchFollowed levels links mem with none | followed
  · cases none
  · simp [follows] at followed

end

namespace Sample

def link (path : String) : Json := .obj [("@odata.id",.str path)]

def accepting : FileSystem := ⟨fun _ => true⟩

def system : String := "/redfish/v1/Systems/1"

def small : Bmc := fun path =>
  if path = serviceRoot then (200,link "/redfish/v1/Systems/")
  else if path = "/redfish/v1/Systems" then (200,link system)
  else (200,.obj [])

theorem smallLinks {source path} (linked : path ∈ linksOf small source) :
    source = serviceRoot ∧ path = "/redfish/v1/Systems" ∨
      source = "/redfish/v1/Systems" ∧ path = system := by
  unfold linksOf small at linked
  by_cases root : source = serviceRoot
  · simp [root,isOk,link,extractOdataIds,extractMembers,reference] at linked
    exact .inl ⟨root,linked⟩
  by_cases systems : source = "/redfish/v1/Systems"
  · subst systems
    simp [serviceRoot,isOk,link,extractOdataIds,extractMembers,reference] at linked
    exact .inr ⟨rfl,linked⟩
  · simp [root,systems,extractOdataIds,extractMembers,reference] at linked

theorem smallBelow {path trail}
    (below : path ∈ next (linksOf small) (linksOf small serviceRoot) trail) : path ≠ serviceRoot := by
  have linked : ∃ source, path ∈ linksOf small source := by
    cases trail with
    | nil => exact ⟨serviceRoot,below⟩
    | cons source _ => exact ⟨source,below⟩
  obtain ⟨source,linked⟩ := linked
  rcases smallLinks linked with ⟨-,rfl⟩ | ⟨-,rfl⟩
  · decide
  · decide

theorem smallNotLate : ¬ Late (linksOf small) (follows false) (linksOf small serviceRoot) (maxDepth+1)
    "/redfish/v1/Systems" := by
  rintro ⟨path,trail,long⟩
  cases trail with
  | cons before below =>
    cases before with
    | nil => simp [maxDepth] at long
    | cons _ above =>
      -- Only the service root refers to the collection, and nothing refers to the service root.
      rcases smallLinks below with ⟨root,-⟩ | ⟨-,member⟩
      · exact smallBelow above root
      · exact absurd member (by decide)

def letter (code : Nat) : String := String.ofList ("/redfish/v1/".toList ++ [Char.ofNat code])

def chain : Bmc := fun path =>
  (200,if path = serviceRoot then .arr [link (letter 65),link (letter 97)]
    else match path.toList.getLast? with
      | some c => if c.toNat < 98 then link (letter (c.toNat+1)) else .obj []
      | none => .obj [])

def root : List Char := ['/','r','e','d','f','i','s','h','/','v','1','/']

theorem letterList (code : Nat) : (letter code).toList = root ++ [Char.ofNat code] := by
  have chars : "/redfish/v1/".toList = root := by decide
  exact String.toList_ofList.trans (congrArg (· ++ [Char.ofNat code]) chars)

theorem letterLong (code : Nat) : (letter code).toList.length = 13 := by
  rw [letterList]
  rfl

def step (i : Fin 34) : String := letter (65 + i)

def below (i : Fin 34) : List (Fin 34) := if next : i.val + 1 < 34 then [⟨i.val+1,next⟩] else []

theorem stepFollowed : ∀ i, follows false (step i) = true := by
  decide

theorem stepNormal (i : Fin 34) : normalizeResourcePath (step i) = step i := by
  have bare : ∀ i : Fin 34, collapse (((root ++ [Char.ofNat (65 + i)]).takeWhile
      (· ≠ '?')).takeWhile (· ≠ '#')) = root ++ [Char.ofNat (65 + i)] := by decide
  have ends : ∀ i : Fin 34, PyText.dropEnd (· = '/') (root ++ [Char.ofNat (65 + i)]) =
      root ++ [Char.ofNat (65 + i)] := by decide
  rw [normalizeResourcePath,step,letterList,bare,ends]
  dsimp only
  rw [if_pos (by simp [root]),if_neg (by simp),← letterList,String.ofList_toList]

theorem stepCode (i : Fin 34) : (Char.ofNat (65 + i)).toNat = 65 + i := by
  revert i
  decide

theorem stepInjective : Function.Injective step := by
  intro i j same
  have last := congrArg String.toList same
  rw [step,step,letterList,letterList,List.append_cancel_left_eq,List.cons.injEq] at last
  have codes := congrArg Char.toNat last.1
  rw [stepCode,stepCode] at codes
  omega

theorem stepLinks (i : Fin 34) : linksOf chain (step i) = (below i).map step := by
  have apart : step i ≠ serviceRoot := fun same =>
    absurd (letterLong (65 + i)) (by rw [← step,same]; decide)
  have document : (chain (step i)).2 =
      if 65 + i.val < 98 then link (letter (65 + i + 1)) else .obj [] := by
    rw [chain,if_neg apart,step,letterList,List.getLast?_concat]
    simp [stepCode]
  have accepted : isOk (chain (step i)).1 = true := rfl
  rw [linksOf,if_pos accepted,document,below]
  by_cases next : i.val + 1 < 34
  · have normal := stepNormal ⟨i.val+1,next⟩
    simp only [step,← Nat.add_assoc] at normal
    rw [dif_pos next,if_pos (by omega : 65 + i.val < 98)]
    simp [link,extractOdataIds,extractMembers,reference,normal,step,← Nat.add_assoc]
  · rw [dif_neg next,if_neg (by omega : ¬ 65 + i.val < 98)]
    rfl

theorem rootLinks : linksOf chain serviceRoot = [0,32].map step := by
  have first := stepNormal 0
  have second := stepNormal 32
  simp [linksOf,chain,isOk,link,extractOdataIds,extractItems,extractMembers,reference]
  exact ⟨first,second⟩

end Sample

end RedfishCtl.Discovery
