import RedfishCtl.AssocList

/-! Labels that are written over a base, each only where it has a value. -/
namespace RedfishCtl.Labels
open AssocList

variable {κ α : Type} [DecidableEq κ]

def write (d : List (κ × α)) : κ × Option α → List (κ × α)
  | (k,some v) => insert k v d
  | (_,none) => d

def writeAll (d : List (κ × α)) (ws : List (κ × Option α)) : List (κ × α) := ws.foldl write d

def shown (base : List (κ × α)) (w : κ × Option α) : Option α := w.2.or (base.lookup w.1)

theorem lookupWrite (d : List (κ × α)) (w : κ × Option α) (key : κ) :
    (write d w).lookup key = if key = w.1 then w.2.or (d.lookup key) else d.lookup key := by
  obtain ⟨k,v⟩ := w
  cases v with
  | none => simp [write]
  | some v => simp [write]

theorem writeAllAppend (d : List (κ × α)) (ws vs : List (κ × Option α)) :
    writeAll (writeAll d ws) vs = writeAll d (ws ++ vs) := List.foldl_append.symm

variable {ws : List (κ × Option α)}

theorem lookupUnwritten {key} (other : key ∉ keys ws) (d : List (κ × α)) :
    (writeAll d ws).lookup key = d.lookup key := by
  induction ws generalizing d with
  | nil => rfl
  | cons w rest ih =>
    have apart : key ≠ w.1 ∧ key ∉ keys rest := by simpa [keys] using other
    calc (writeAll (write d w) rest).lookup key
        = (write d w).lookup key := ih apart.2 (write d w)
      _ = d.lookup key := by rw [lookupWrite,if_neg apart.1]

theorem lookupWritten (distinct : Distinct ws) {w} (mem : w ∈ ws) (d : List (κ × α)) :
    (writeAll d ws).lookup w.1 = shown d w := by
  induction ws generalizing d with
  | nil => exact absurd mem List.not_mem_nil
  | cons first rest ih =>
    have split := List.nodup_cons.mp distinct
    rcases List.mem_cons.mp mem with rfl | later
    · calc (writeAll (write d w) rest).lookup w.1
          = (write d w).lookup w.1 := lookupUnwritten split.1 (write d w)
        _ = shown d w := by rw [lookupWrite,if_pos rfl,shown]
    have other : w.1 ≠ first.1 := by
      intro same
      exact split.1 (same ▸ List.mem_map_of_mem later)
    calc (writeAll (write d first) rest).lookup w.1
        = shown (write d first) w := ih split.2 later (write d first)
      _ = shown d w := by rw [shown,lookupWrite,if_neg other,shown]

theorem mapShown (distinct : Distinct ws) (d : List (κ × α)) :
    ws.map (shown d) = (keys ws).map fun key => (writeAll d ws).lookup key := by
  rw [keys,List.map_map]
  apply List.map_congr_left
  intro w mem
  exact (lookupWritten distinct mem d).symm

theorem sameLabels {vs} (distinct : Distinct ws) (same : keys ws = keys vs) (d : List (κ × α)) :
    (∀ key, (writeAll d ws).lookup key = (writeAll d vs).lookup key) ↔
      ws.map (shown d) = vs.map (shown d) := by
  have distinct' : Distinct vs := by
    unfold Distinct
    rw [← same]
    exact distinct
  rw [mapShown distinct,mapShown distinct',← same,List.map_inj_left]
  constructor
  · intro agree key _
    exact agree key
  · intro agree key
    by_cases written : key ∈ keys ws
    · exact agree key written
    · rw [lookupUnwritten written,lookupUnwritten (same ▸ written)]

end RedfishCtl.Labels
