import Mathlib.Data.List.Lex
import Mathlib.Data.String.Basic
import RedfishCtl.CorpusTree
import RedfishCtl.Framing
import RedfishCtl.PackCorpus

/-! The two checksums of the corpus tools: over the files of an artifact themselves, and over the
digests of the payloads of a tree. What each says about the files depends on how they are framed. -/
namespace RedfishCtl.Checksums
open AssocList
open Buckets (sortedItems)
open CorpusTree (Bytes utf8 treeSha256)
open PackCorpus (manifestName)
open PosixPath (Path Names render)
open Sha256 (hexdigest)
open Framing (records terminated utf8Chars utf8Inj)

structure PayloadDir where
  files : List (Path × Bytes)
  distinct : Distinct files
  names : ∀ file ∈ files, Names file.1
  free : ∀ file ∈ files, ∀ name ∈ file.1, Char.ofNat 0 ∉ name

def PayloadDir.payload (dir : PayloadDir) : List (Path × Bytes) :=
  dir.files.filter fun file => file.1.getLast? ≠ some manifestName.toList

/- `relative_to(root).as_posix().encode("utf-8")`. -/
def posix (path : Path) : Bytes := utf8 (String.ofList (render path))

def PayloadDir.stream (dir : PayloadDir) : Bytes :=
  (sortedItems (· ≤ ·) dir.payload).flatMap fun file => posix file.1 ++ [0] ++ file.2 ++ [0]

def artifactPayloadChecksum (dir : PayloadDir) : String := "sha256:" ++ hexdigest dir.stream

/- The paths and what the contents are between their zero bytes. -/
def PayloadDir.pieces (dir : PayloadDir) : List Bytes :=
  (sortedItems (· ≤ ·) dir.payload).flatMap fun file => posix file.1 :: file.2.splitOn 0

def CollisionFree (messages : List Bytes) : Prop :=
  ∀ x ∈ messages, ∀ y ∈ messages, hexdigest x = hexdigest y → x = y

instance (messages : List Bytes) : Decidable (CollisionFree messages) :=
  inferInstanceAs (Decidable (∀ x ∈ messages, ∀ y ∈ messages, _))

def SameRows {κ : Type} (d e : List (κ × Bytes)) : Prop := ∀ row, row ∈ d ↔ row ∈ e

theorem streamPieces (dir : PayloadDir) : dir.stream = terminated 0 dir.pieces := by
  unfold PayloadDir.stream PayloadDir.pieces terminated
  rw [List.flatMap_assoc]
  congr 1
  funext file
  have cut := Framing.terminatedSplit 0 file.2
  rw [terminated] at cut
  rw [List.flatMap_cons,cut]
  simp

theorem renderMem {path c} (mem : c ∈ render path) : c = '/' ∨ ∃ name ∈ path, c ∈ name := by
  fun_induction render path with
  | case1 => exact absurd mem List.not_mem_nil
  | case2 name => exact .inr ⟨name,List.mem_cons_self,mem⟩
  | case3 name next rest ih =>
    rcases List.mem_append.mp mem with own | later
    · exact .inr ⟨name,List.mem_cons_self,own⟩
    rcases List.mem_cons.mp later with slash | deeper
    · exact .inl slash
    · rcases ih deeper with slash | ⟨other,inside,here⟩
      · exact .inl slash
      · exact .inr ⟨other,List.mem_cons_of_mem name inside,here⟩

theorem utf8Free {text} (free : Char.ofNat 0 ∉ text.toList) : 0 ∉ utf8 text := by
  intro zero
  rw [utf8,utf8Chars] at zero
  obtain ⟨c,mem,inside⟩ := List.mem_flatMap.mp zero
  have code := Framing.utf8Zero inside
  apply free
  rw [← code,Char.ofNat_toNat]
  exact mem

theorem posixFree {path} (free : ∀ name ∈ path, Char.ofNat 0 ∉ name) : 0 ∉ posix path := by
  apply utf8Free
  rw [String.toList_ofList]
  intro mem
  rcases renderMem mem with slash | ⟨name,inside,here⟩
  · exact absurd slash (by decide)
  · exact free name inside here

theorem posixInj {path other} (names : Names path) (otherNames : Names other)
    (same : posix path = posix other) : path = other := by
  apply PosixPath.renderInj names otherNames
  rw [← String.toList_ofList (l := render path),utf8Inj same,String.toList_ofList]

section
variable {κ : Type} {d e : List (κ × Bytes)}

theorem sameOfSorted {le} [DecidableRel le] (order : sortedItems le d = sortedItems le e) :
    SameRows d e := by
  intro row
  have mem : row ∈ sortedItems le d ↔ row ∈ sortedItems le e := by rw [order]
  rwa [Buckets.memSortedItems,Buckets.memSortedItems] at mem

end

namespace PayloadDir
variable {a b : PayloadDir}

theorem sortedMem {dir : PayloadDir} {file} (mem : file ∈ sortedItems (· ≤ ·) dir.payload) :
    file ∈ dir.files :=
  List.mem_of_mem_filter (Buckets.memSortedItems.mp mem)

theorem piecesFree (dir : PayloadDir) : ∀ piece ∈ dir.pieces, 0 ∉ piece := by
  intro piece mem
  obtain ⟨file,inside,here⟩ := List.mem_flatMap.mp mem
  rcases List.mem_cons.mp here with rfl | content
  · exact posixFree (dir.free file (sortedMem inside))
  · exact Framing.splitFree 0 file.2 piece content

theorem checksumIff (apart : CollisionFree [a.stream,b.stream]) :
    artifactPayloadChecksum a = artifactPayloadChecksum b ↔ a.pieces = b.pieces := by
  constructor
  · intro same
    have digest : hexdigest a.stream = hexdigest b.stream := by
      simpa [artifactPayloadChecksum] using same
    have stream := apart _ (by simp) _ (by simp) digest
    rw [streamPieces,streamPieces] at stream
    exact Framing.terminatedInj a.piecesFree b.piecesFree stream
  · intro same
    rw [artifactPayloadChecksum,artifactPayloadChecksum,streamPieces,streamPieces,same]

theorem piecesPlain (dir : PayloadDir) (plain : ∀ file ∈ dir.payload, 0 ∉ file.2) :
    dir.pieces = (sortedItems (· ≤ ·) dir.payload).flatMap fun file => [posix file.1,file.2] := by
  apply List.flatMap_congr
  intro file mem
  rw [List.splitOn_eq_singleton (plain file (Buckets.memSortedItems.mp mem))]

theorem sameOfPieces (plain : ∀ file ∈ a.payload, 0 ∉ file.2) (bare : ∀ file ∈ b.payload, 0 ∉ file.2)
    (same : a.pieces = b.pieces) : SameRows a.payload b.payload := by
  rw [piecesPlain a plain,piecesPlain b bare] at same
  have pairs : ∀ xs ys : List (Path × Bytes), (∀ file ∈ xs, Names file.1) → (∀ file ∈ ys, Names file.1) →
      (xs.flatMap fun file => [posix file.1,file.2]) = ys.flatMap (fun file => [posix file.1,file.2]) →
      xs = ys := by
    intro xs
    induction xs with
    | nil =>
      intro ys _ _ same
      cases ys with
      | nil => rfl
      | cons y rest => simp at same
    | cons x rest ih =>
      intro ys names otherNames same
      cases ys with
      | nil => simp at same
      | cons y others =>
        simp only [List.flatMap_cons,List.cons_append,List.nil_append,List.cons.injEq] at same
        obtain ⟨path,content,tail⟩ := same
        have key := posixInj (names x List.mem_cons_self) (otherNames y List.mem_cons_self) path
        rw [Prod.ext key content,ih others (fun file mem => names file (List.mem_cons_of_mem x mem))
          (fun file mem => otherNames file (List.mem_cons_of_mem y mem)) tail]
  have order := pairs _ _ (fun file mem => a.names file (sortedMem mem))
    (fun file mem => b.names file (sortedMem mem)) same
  exact sameOfSorted order

end PayloadDir

/-! Trees. -/

def treeRows (payloads : List (String × Bytes)) : List (Bytes × Bytes) :=
  (sortedItems (· ≤ ·) payloads).map fun p => (utf8 p.1,utf8 (hexdigest p.2))

def treeStream (payloads : List (String × Bytes)) : Bytes := records 0 10 (treeRows payloads)

theorem treeHash (payloads : List (String × Bytes)) :
    treeSha256 payloads = hexdigest (treeStream payloads) := by
  rw [treeSha256,treeStream,records,treeRows,List.flatMap_map]

theorem hexAscii (message : Bytes) : ∀ c ∈ (hexdigest message).toList, c.toNat ≤ 127 := by
  have digit : ∀ n < 16, (Sha256.hexDigit n).toNat ≤ 127 := by decide
  have word {w : UInt32} {c : Char} (mem : c ∈ Sha256.hexWord w) : c.toNat ≤ 127 := by
    obtain ⟨i,_,rfl⟩ := List.mem_map.mp mem
    exact digit _ (Nat.mod_lt _ (by decide))
  intro c mem
  simp only [hexdigest,String.toList_ofList,List.mem_append] at mem
  rcases mem with ((((((mem | mem) | mem) | mem) | mem) | mem) | mem) | mem <;> exact word mem

theorem hexWidth (message : Bytes) : (utf8 (hexdigest message)).length = 64 := by
  have single : ∀ c ∈ (hexdigest message).toList,
      String.utf8EncodeChar c = [UInt8.ofNat c.val.toNat] := by
    intro c mem
    have small : c.val.toNat ≤ 127 := hexAscii message c mem
    exact if_pos small
  rw [utf8,utf8Chars,List.flatMap_congr single,← List.map_eq_flatMap,List.length_map,
    String.length_toList,Sha256.hexdigestLength]

theorem mapInj {α β} {f : α → β} {xs ys : List α} (inj : ∀ x ∈ xs, ∀ y ∈ ys, f x = f y → x = y)
    (same : xs.map f = ys.map f) : xs = ys := by
  induction xs generalizing ys with
  | nil => rw [List.map_nil,eq_comm,List.map_eq_nil_iff] at same; rw [same]
  | cons x rest ih =>
    cases ys with
    | nil => simp at same
    | cons y others =>
      rw [List.map_cons,List.map_cons,List.cons.injEq] at same
      rw [inj x List.mem_cons_self y List.mem_cons_self same.1,
        ih (fun u mem v there => inj u (List.mem_cons_of_mem x mem) v (List.mem_cons_of_mem y there)) same.2]

def treeMessages (payloads : List (String × Bytes)) : List Bytes :=
  treeStream payloads :: payloads.map Prod.snd

theorem treeSame {p q} (free : ∀ row ∈ p, Char.ofNat 0 ∉ row.1.toList)
    (bare : ∀ row ∈ q, Char.ofNat 0 ∉ row.1.toList)
    (apart : CollisionFree (treeMessages p ++ treeMessages q)) (same : treeSha256 p = treeSha256 q) :
    SameRows p q := by
  rw [treeHash,treeHash] at same
  have stream := apart _ (by simp [treeMessages]) _ (by simp [treeMessages]) same
  have framed {r : List (String × Bytes)} (free : ∀ row ∈ r, Char.ofNat 0 ∉ row.1.toList) :
      ∀ row ∈ treeRows r, 0 ∉ row.1 ∧ row.2.length = 64 := by
    intro row mem
    obtain ⟨file,inside,rfl⟩ := List.mem_map.mp mem
    exact ⟨utf8Free (free file (Buckets.memSortedItems.mp inside)),hexWidth file.2⟩
  have rows := Framing.recordsInj (framed free) (framed bare) stream
  refine sameOfSorted (mapInj ?_ rows)
  intro x first y second equal
  rw [Prod.mk.injEq] at equal
  have content : x.2 = y.2 := by
    refine apart _ ?_ _ ?_ (utf8Inj equal.2)
    · have mem := List.mem_map_of_mem (f := Prod.snd) (Buckets.memSortedItems.mp first)
      simp only [treeMessages,List.mem_append,List.mem_cons]
      exact .inl (.inr mem)
    · have mem := List.mem_map_of_mem (f := Prod.snd) (Buckets.memSortedItems.mp second)
      simp only [treeMessages,List.mem_append,List.mem_cons]
      exact .inr (.inr mem)
  exact Prod.ext (utf8Inj equal.1) content

/- The checksum of an artifact tells two directories apart exactly where their pieces differ, so
always when no content has a zero byte; the checksum of a tree always does. -/
theorem checksumsIdentify (a b : PayloadDir) (p q : List (String × Bytes)) :
    (CollisionFree [a.stream,b.stream] →
      ((¬ SameRows a.payload b.payload → artifactPayloadChecksum a ≠ artifactPayloadChecksum b) ↔
        (¬ SameRows a.payload b.payload → a.pieces ≠ b.pieces)) ∧
      ((∀ file ∈ a.payload ++ b.payload, 0 ∉ file.2) →
        ¬ SameRows a.payload b.payload → a.pieces ≠ b.pieces)) ∧
    ((∀ row ∈ p ++ q, Char.ofNat 0 ∉ row.1.toList) →
      CollisionFree (treeMessages p ++ treeMessages q) →
      ¬ SameRows p q → treeSha256 p ≠ treeSha256 q) := by
  constructor
  · intro apart
    constructor
    · exact imp_congr_right fun _ => not_congr (PayloadDir.checksumIff apart)
    · intro plain differ same
      exact differ (PayloadDir.sameOfPieces (fun file mem => plain file (List.mem_append_left _ mem))
        (fun file mem => plain file (List.mem_append_right _ mem)) same)
  · intro free apart differ same
    exact differ (treeSame (fun row mem => free row (List.mem_append_left _ mem))
      (fun row mem => free row (List.mem_append_right _ mem)) apart same)

def flatDir (files : List (String × Bytes)) (distinct : Distinct (files.map fun f => ([f.1.toList],f.2)))
    (names : ∀ f ∈ files, PosixPath.isName f.1.toList = true)
    (free : ∀ f ∈ files, Char.ofNat 0 ∉ f.1.toList) : PayloadDir where
  files := files.map fun f => ([f.1.toList],f.2)
  distinct := distinct
  names := by
    intro file mem name inside
    obtain ⟨f,here,rfl⟩ := List.mem_map.mp mem
    rw [List.mem_singleton.mp inside]
    exact names f here
  free := by
    intro file mem name inside
    obtain ⟨f,here,rfl⟩ := List.mem_map.mp mem
    rw [List.mem_singleton.mp inside]
    exact free f here

def joinedDir : PayloadDir :=
  flatDir [("a",[120,0,98,0,121])] (by decide +kernel) (by decide +kernel) (by decide +kernel)

def splitDir : PayloadDir :=
  flatDir [("a",[120]),("b",[121])] (by decide +kernel) (by decide +kernel) (by decide +kernel)

theorem joinedLikeSplit : artifactPayloadChecksum joinedDir = artifactPayloadChecksum splitDir ∧
    ¬ SameRows joinedDir.payload splitDir.payload := by
  constructor
  · have stream : joinedDir.stream = splitDir.stream := by decide +kernel
    rw [artifactPayloadChecksum,artifactPayloadChecksum,stream]
  · intro same
    have mem : ([['b']],[121]) ∈ joinedDir.payload := (same _).mpr (by decide +kernel)
    exact absurd mem (by decide +kernel)

def otherDir : PayloadDir :=
  flatDir [("a",[120]),("b",[122])] (by decide +kernel) (by decide +kernel) (by decide +kernel)

theorem plainContentsApart :
    artifactPayloadChecksum splitDir ≠ artifactPayloadChecksum otherDir ∧
    treeSha256 [("redfish/v1/index.json",[1])] ≠ treeSha256 [("redfish/v1/index.json",[2])] := by
  have apart : CollisionFree [splitDir.stream,otherDir.stream] := by decide +kernel
  obtain ⟨artifact,tree⟩ := checksumsIdentify splitDir otherDir [("redfish/v1/index.json",[1])]
    [("redfish/v1/index.json",[2])]
  constructor
  · refine (artifact apart).1.mpr ((artifact apart).2 ?_) ?_
    · decide +kernel
    · intro same
      exact absurd ((same ([['b']],[121])).mp (by decide +kernel)) (by decide +kernel)
  · refine tree (by decide +kernel) (by decide +kernel) ?_
    intro same
    exact absurd ((same ("redfish/v1/index.json",[1])).mp (by decide +kernel)) (by decide +kernel)

end RedfishCtl.Checksums
