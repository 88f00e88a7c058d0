import RedfishCtl.PackCorpusContract

/-! Packing an archive that was unpacked: the files of the second archive are those of the first. -/
namespace RedfishCtl.PackCorpus
open AssocList
open Stateful (okOfBind)
open Discovery (restApiStatusMapJson)
open MockCorpus (endsWith)

variable {tools : Tools} {host again : HostDir} {o : Options} {m : ApiMap}

theorem restaged {names staged} (kept : tools.lang.lower "REDACTED" ≠ "null")
    (done : stageDocuments tools host o names = .ok staged)
    (unpacked : ∀ p ∈ staged, again.files.lookup p.1 = some p.2) :
    stageDocuments tools again o names = .ok staged := by
  induction names generalizing staged with
  | nil => exact done
  | cons name rest ih =>
    unfold stageDocuments at done ⊢
    split at done
    · rename_i data _
      obtain ⟨others,later,same⟩ := okOfBind done
      cases same
      rw [unpacked _ List.mem_cons_self]
      have rest := ih later fun p mem => unpacked p (List.mem_cons_of_mem _ mem)
      have twice : Redaction.redactCredentials tools.lang (Redaction.redactCredentials tools.lang data) =
          Redaction.redactCredentials tools.lang data := by
        simp only [Redaction.redactCredentialsMask]
        exact Json.maskTwice (Redaction.credentialSettled kept) data fun _ _ => rfl
      cases o.redact <;> simp [rest,twice,bind,Except.bind]
    · cases done
    · cases done

theorem sidecarNamed {side} (staged : stageSidecar host m = .ok side) :
    ∀ name ∈ keys side, name = restApiStatusMapJson := by
  unfold stageSidecar at staged
  split at staged
  · cases staged
    simp [keys]
  · split at staged
    · obtain ⟨payload,-,staged⟩ := okOfBind staged
      cases staged
      simp [keys]
    · cases staged
      simp [keys]

theorem residecar {side} (staged : stageSidecar host m = .ok side)
    (unpacked : again.files.lookup restApiStatusMapJson = side.lookup restApiStatusMapJson) :
    stageSidecar again m = .ok side := by
  unfold stageSidecar at staged ⊢
  rw [unpacked]
  split at staged
  · cases staged
    simp
  · split at staged
    · obtain ⟨payload,-,staged⟩ := okOfBind staged
      cases staged
      simp
    · rename_i none
      cases staged
      exact if_neg none

theorem resourcesAgain {side staged : Files} {manifest}
    (documents : keys staged = resourceNames host)
    (named : ∀ name ∈ keys side, name = restApiStatusMapJson)
    (unpacked : again.files = staged ++ side ++ [(manifestName,manifest)]) :
    resourceNames again = resourceNames host := by
  have own : (resourceNames host).filter (fun name => !packMetadataJson.contains name && endsWith ".json" name) =
      resourceNames host := by
    refine List.filter_eq_self.mpr fun name mem => ?_
    have listed := List.mem_filter.mp ((List.mem_insertionSort (· ≤ ·)).mp mem)
    exact Bool.and_eq_true_iff.mpr ⟨listed.2,(List.mem_filter.mp listed.1).2⟩
  have none : (keys side).filter (fun name => !packMetadataJson.contains name && endsWith ".json" name) = [] := by
    refine List.filter_eq_nil_iff.mpr fun name mem => ?_
    rw [named name mem]
    decide
  have names : keys again.files = resourceNames host ++ keys side ++ [manifestName] := by
    rw [unpacked,← documents]
    simp [keys]
  have whole : resourceJsonPaths ((keys again.files).filter (endsWith ".json")) = resourceNames host := by
    rw [resourceJsonPaths,List.filter_filter,names,List.filter_append,List.filter_append,own,none]
    simp [packMetadataJson]
  rw [resourceNames,whole]
  exact (List.pairwise_insertionSort (· ≤ ·) _).insertionSort_eq

/- The documents and the sidecar of an unpacked archive are staged as they are, whatever the manifest. -/
theorem packedAgain {archive} (kept : tools.lang.lower "REDACTED" ≠ "null") (map : host.npy = some m)
    (packed : pack tools host o = .ok (0,some archive)) (unpacked : again.files = archive.files)
    (named : again.name = host.name) (manifest : Members) :
    writeArchive tools again m o (resourceNames again) manifest =
      writeArchive tools host m o (resourceNames host) manifest := by
  obtain ⟨-,written,done⟩ := packedFrom map packed
  obtain ⟨side,beside,same⟩ := archiveSidecar done
  obtain ⟨documents,staged,done⟩ := okOfBind done
  obtain ⟨side',beside',done⟩ := okOfBind done
  cases Except.ok.inj (beside.symm.trans beside')
  cases done
  have resources := resourcesAgain (stageDocumentsNames staged) (sidecarNamed beside) unpacked
  have first := restaged kept staged fun p mem => lookupOfMem again.distinct (by simp [unpacked,mem])
  rw [resources,writeArchive,writeArchive,staged,first,beside,residecar beside (unpacked ▸ same),named]

theorem rootPackedAgain : ∃ archive again, pack Sample.tools (Sample.host Sample.reached) Sample.options =
      .ok (0,some archive) ∧ again.files = archive.files ∧
    writeArchive Sample.tools again Sample.reached Sample.options (resourceNames again) [] =
      writeArchive Sample.tools (Sample.host Sample.reached) Sample.reached Sample.options
        (resourceNames (Sample.host Sample.reached)) [] := by
  have run : (pack Sample.tools (Sample.host Sample.reached) Sample.options).map (fun r =>
      (r.1,r.2.map fun a => (keys a.files,a.files.lookup restApiStatusMapJson))) =
      .ok (0,some (["_redfish_v1.json",restApiStatusMapJson,manifestName],
        some (.ok (Sample.written [("/redfish/v1/",.int 200)])))) := by decide +kernel
  cases result : pack Sample.tools (Sample.host Sample.reached) Sample.options with
  | error e =>
    rw [result] at run
    cases run
  | ok r =>
    obtain ⟨code,archive⟩ := r
    rw [result] at run
    obtain ⟨rfl,stored⟩ := Prod.mk.inj (Except.ok.inj run)
    obtain ⟨own,rfl,found⟩ := Option.map_eq_some_iff.mp stored
    obtain ⟨names,side⟩ := Prod.mk.inj found
    have distinct : Distinct own.files := by
      rw [Distinct,names]
      decide
    have sections : ∀ m, own.files.lookup restApiStatusMapJson = some (.ok (.obj m)) → Sections m := by
      intro m there key d mem
      cases side.symm.trans there
      have mem := lookupMem mem
      simp only [List.mem_cons,Prod.mk.injEq,Json.obj.injEq,List.not_mem_nil,or_false] at mem
      rcases mem with ⟨-,rfl⟩ | ⟨-,rfl⟩ <;> decide
    let again : HostDir := ⟨"/captures/10.0.0.9",own.files,none,distinct,sections⟩
    exact ⟨own,again,rfl,rfl,@packedAgain _ _ again _ _ _ (by decide) rfl result rfl rfl []⟩

end RedfishCtl.PackCorpus
