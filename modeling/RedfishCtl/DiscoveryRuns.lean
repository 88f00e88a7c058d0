import Mathlib.Data.List.TakeWhile
import RedfishCtl.Discovery
import RedfishCtl.Stateful

/-! What a finished crawl has recorded. Every URL of the status map is the service root or a
normalised path with the status the BMC gave it, and files and bodies correspond through the
flattened URL. -/
namespace RedfishCtl.Discovery
open AssocList
open Stateful (okOfBind)

theorem collapseMem {c path} (mem : c ∈ collapse path) : c ∈ path := by
  fun_induction collapse path with
  | case1 rest ih =>
    exact List.mem_cons_of_mem _ (ih mem)
  | case2 d rest _ ih =>
    rcases List.mem_cons.mp mem with same | later
    · exact same ▸ List.mem_cons_self
    · exact List.mem_cons_of_mem _ (ih later)
  | case3 => exact mem

theorem collapseHead (path : List Char) : (collapse path).head? = path.head? := by
  fun_induction collapse path <;> simp_all

theorem collapseSingle (path : List Char) : ¬ "//".toList <:+: collapse path := by
  fun_induction collapse path with
  | case1 rest ih => exact ih
  | case2 c rest other ih =>
    rintro pair
    rcases List.infix_cons_iff.mp pair with ⟨tail,start⟩ | later
    · have head := collapseHead rest
      obtain ⟨rfl,next⟩ := List.cons.inj start
      rw [← next] at head
      cases rest with
      | nil => cases head
      | cons d rest => exact other rest rfl (by cases head; rfl)
    · exact ih later
  | case3 => decide

structure Canonical (path : String) : Prop where
  redfish : "/redfish/v1".toList.isPrefixOf path.toList = true
  beyond : path ≠ "/redfish/v1"
  bare : ∀ c ∈ path.toList, c ≠ '?' ∧ c ≠ '#'
  last : path.toList.getLast? ≠ some '/'

theorem Canonical.notRoot {path} (canonical : Canonical path) : path ≠ serviceRoot := by
  intro same
  exact canonical.last (same ▸ rfl)

variable (resourcePath : String)

theorem normalizeShape :
    let path := collapse ((resourcePath.toList.takeWhile (· ≠ '?')).takeWhile (· ≠ '#'))
    let kept := (normalizeResourcePath resourcePath).toList
    kept <+: path ∧ (kept ≠ ['/'] → kept.getLast? ≠ some '/') ∧ (kept = [] → path = []) := by
  have single := collapseSingle ((resourcePath.toList.takeWhile (· ≠ '?')).takeWhile (· ≠ '#'))
  dsimp only [normalizeResourcePath]
  generalize collapse ((resourcePath.toList.takeWhile (· ≠ '?')).takeWhile (· ≠ '#')) = path
    at single
  split
  · rename_i long
    have stripped : PyText.dropEnd (· = '/') path ≠ [] := by
      intro none
      rw [PyText.dropEnd,List.reverse_eq_nil_iff,List.dropWhile_eq_nil_iff] at none
      rcases path with _ | ⟨a,_ | ⟨b,rest⟩⟩
      · simp at long
      · simp at long
      have slashes : a = '/' ∧ b = '/' := ⟨by simpa using none a,by simpa using none b⟩
      exact single ⟨[],rest,by rw [slashes.1,slashes.2]; rfl⟩
    rw [if_neg (by simpa using stripped),String.toList_ofList]
    refine ⟨PyText.dropEndPrefix,fun _ last => ?_,fun none => absurd none stripped⟩
    simpa using PyText.dropEndLast last
  · rename_i short
    rw [String.toList_ofList]
    refine ⟨List.prefix_rfl,fun other last => ?_,id⟩
    rcases path with _ | ⟨c,_ | _⟩
    · cases last
    · exact other (by simpa using last)
    · simp at short

variable {resourcePath}

theorem normalizeBare {c} (mem : c ∈ (normalizeResourcePath resourcePath).toList) :
    c ≠ '?' ∧ c ≠ '#' := by
  have kept := collapseMem ((normalizeShape resourcePath).1.subset mem)
  have fragment := List.mem_takeWhile_imp kept
  have query := List.mem_takeWhile_imp ((List.takeWhile_prefix _).subset kept)
  exact ⟨by simpa using query,by simpa using fragment⟩

theorem redfishShape {path} (redfish : "/redfish/v1".toList.isPrefixOf path = true) :
    ∃ rest, path = '/' :: 'r'::rest := by
  obtain ⟨rest,shape⟩ := List.isPrefixOf_iff_prefix.mp redfish
  exact ⟨_,shape.symm⟩

theorem normalizeCanonical
    (redfish : "/redfish/v1".toList.isPrefixOf (normalizeResourcePath resourcePath).toList = true)
    (beyond : normalizeResourcePath resourcePath ≠ "/redfish/v1") :
    Canonical (normalizeResourcePath resourcePath) := by
  refine ⟨redfish,beyond,fun _ mem => normalizeBare mem,(normalizeShape resourcePath).2.1 fun root => ?_⟩
  rw [root] at redfish
  cases redfish

def savedName (p : String × Nat) : String :=
  if p.1 = serviceRoot then serviceRootFile else fileName p.1 p.2

structure Recorded (directory : String) (bmc : Bmc) (c : Crawl) : Prop where
  root : (serviceRoot,200) ∈ c.status
  rootSeen : "/redfish/v1" ∈ c.visited
  seen : ∀ p ∈ c.status, p.1 = serviceRoot ∨ p.1 ∈ c.visited
  distinct : Distinct c.status
  entry : ∀ p ∈ c.status, p = (serviceRoot,200) ∨ Canonical p.1 ∧ p.2 = (bmc p.1).1
  mapped : ∀ p ∈ c.urlFiles ++ c.errorFiles, ∃ name, p.2 = join directory name
  saved : ∀ p ∈ c.status, savedName p ∈ keys c.files
  source : ∀ f ∈ c.files, ∃ p ∈ c.status, f = (savedName p,(bmc p.1).2)

section
variable {fs : FileSystem} {directory : String} {bmc : Bmc} {includeLogEntries : Bool}

theorem writeOk {name content files after} (done : write fs name content files = .ok after) :
    after = insert name content files := by
  unfold write at done
  split at done
  · exact (Except.ok.inj done).symm
  · exact nomatch done

variable {path : String} {c : Crawl}

theorem visitRecords (recorded : Recorded directory bmc c) :
    Recorded directory bmc (visit path c) :=
  ⟨recorded.root,List.mem_cons_of_mem _ recorded.rootSeen,
    fun p mem => (recorded.seen p mem).imp_right (List.mem_cons_of_mem _),recorded.distinct,
    recorded.entry,recorded.mapped,recorded.saved,recorded.source⟩

theorem captureMapped {file} {ok : Bool} {urlFiles errorFiles} {p : String × String}
    (mem : p ∈ (if ok then insert path file urlFiles else urlFiles) ++
      (if ok then errorFiles else insert path file errorFiles)) :
    p = (path,file) ∨ p ∈ urlFiles ++ errorFiles := by
  cases ok with
  | true =>
    rcases List.mem_append.mp mem with url | error
    · exact (insertMem url).imp_right (List.mem_append_left _)
    · exact .inr (List.mem_append_right _ error)
  | false =>
    rcases List.mem_append.mp mem with url | error
    · exact .inr (List.mem_append_left _ url)
    · exact (insertMem error).imp_right (List.mem_append_right _)

variable {after : Crawl}

theorem captureRecords (recorded : Recorded directory bmc c)
    (canonical : Canonical path) (fresh : path ∉ c.visited)
    (done : capture fs directory bmc path c = .ok after) : Recorded directory bmc after := by
  obtain ⟨files,written,rest⟩ := okOfBind done
  cases Except.ok.inj rest
  rw [writeOk written]
  have other : ∀ p ∈ c.status, p.1 ≠ path := by
    intro p mem same
    rcases recorded.seen p mem with root | old
    · exact canonical.notRoot (same ▸ root)
    · exact fresh (same ▸ old)
  have name : savedName (path,(bmc path).1) = fileName path (bmc path).1 :=
    if_neg canonical.notRoot
  have here : (path,(bmc path).1) ∈ insert path (bmc path).1 c.status :=
    lookupMem (by rw [lookupInsert,if_pos rfl])
  refine ⟨memInsert recorded.root canonical.notRoot.symm,List.mem_cons_of_mem _ recorded.rootSeen,
    ?_,distinctInsert recorded.distinct _ _,?_,?_,?_,?_⟩
  · intro p mem
    rcases insertMem mem with new | old
    · exact .inr (by simp [new])
    · exact (recorded.seen p old).imp_right (List.mem_cons_of_mem _)
  · intro p mem
    rcases insertMem mem with new | old
    · subst new
      exact .inr ⟨canonical,rfl⟩
    · exact recorded.entry p old
  · intro p mem
    rcases captureMapped mem with new | old
    · exact ⟨_,congrArg Prod.snd new⟩
    · exact recorded.mapped p old
  · intro p mem
    rcases insertMem mem with new | old
    · subst new
      exact (memKeysInsert _ _ _ _).mpr (.inl name)
    · exact (memKeysInsert _ _ _ _).mpr (.inr (recorded.saved p old))
  · intro f mem
    rcases insertMem mem with new | old
    · exact ⟨_,here,by rw [name,new]⟩
    · obtain ⟨p,listed,same⟩ := recorded.source f old
      exact ⟨p,memInsert listed (other p listed),same⟩

theorem walkLinksRecords {walk}
    (step : ∀ link c after, Recorded directory bmc c → walk link c = .ok after →
      Recorded directory bmc after) {links} (recorded : Recorded directory bmc c)
    (done : walkLinks walk links c = .ok after) : Recorded directory bmc after := by
  induction links generalizing c with
  | nil =>
    cases Except.ok.inj done
    exact recorded
  | cons link rest ih =>
    obtain ⟨middle,walked,later⟩ := okOfBind done
    exact ih (step link c middle recorded walked) later

theorem discoveryRecords {levels resourcePath} (recorded : Recorded directory bmc c)
    (done : recursiveDiscovery fs directory bmc includeLogEntries levels resourcePath c =
      .ok after) : Recorded directory bmc after := by
  induction levels generalizing resourcePath c after with
  | zero =>
    cases Except.ok.inj done
    exact recorded
  | succ levels ih =>
    simp only [recursiveDiscovery] at done
    split at done
    · cases Except.ok.inj done
      exact visitRecords recorded
    split at done
    · cases Except.ok.inj done
      exact recorded
    rename_i walked
    simp only [Bool.or_eq_true,Bool.not_eq_true',not_or,List.contains_iff_mem,
      Bool.not_eq_false] at walked
    obtain ⟨middle,captured,rest⟩ := okOfBind done
    have canonical := normalizeCanonical walked.2 fun root =>
      walked.1 (root ▸ recorded.rootSeen)
    have kept := captureRecords recorded canonical walked.1 captured
    split at rest
    · exact walkLinksRecords (fun _ _ _ before finished => ih before finished) kept rest
    · cases Except.ok.inj rest
      exact kept

theorem seedRecords : Recorded directory bmc
    (seed directory [(serviceRootFile,(bmc serviceRoot).2)]) := by
  refine ⟨List.mem_singleton_self _,by simp [seed],?_,by simp [seed,Distinct,keys],?_,?_,?_,?_⟩
  · intro p mem
    exact .inl (congrArg Prod.fst (List.mem_singleton.mp mem))
  · intro p mem
    exact .inl (List.mem_singleton.mp mem)
  · intro p mem
    exact ⟨_,congrArg Prod.snd (List.mem_singleton.mp mem)⟩
  · intro p mem
    rw [List.mem_singleton.mp mem]
    simp [seed,keys,savedName]
  · intro f mem
    exact ⟨_,List.mem_singleton_self _,List.mem_singleton.mp mem⟩

theorem crawlRecords (done : crawl fs directory bmc includeLogEntries = .ok c) :
    Recorded directory bmc c := by
  unfold crawl at done
  split at done
  · obtain ⟨files,written,rest⟩ := okOfBind done
    cases writeOk written
    exact walkLinksRecords (fun _ _ _ before finished => discoveryRecords before finished)
      seedRecords rest
  · exact nomatch done

theorem executeRecords {d} (done : execute fs directory bmc includeLogEntries = .ok (c,d)) :
    Recorded directory bmc c ∧
      d = ⟨insert restApiStatusMapJson (sidecar c) c.files,some (mappings c)⟩ := by
  obtain ⟨found,crawled,rest⟩ := okOfBind done
  obtain ⟨saved,stored,last⟩ := okOfBind rest
  obtain ⟨sameCrawl,sameDirectory⟩ := Prod.mk.inj (Except.ok.inj last)
  subst sameCrawl sameDirectory
  refine ⟨crawlRecords crawled,?_⟩
  unfold saveUrlFileMapping at stored
  split at stored
  · obtain ⟨files,written,same⟩ := okOfBind stored
    rw [← Except.ok.inj same,writeOk written]
  · exact nomatch stored

end

end RedfishCtl.Discovery
