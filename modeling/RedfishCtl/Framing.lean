import Mathlib.Data.List.Basic

/-! Byte streams made of words that each end at a mark they do not contain, of records of a word and
a field of fixed width, or of the bytes of a text, and what can be read off them. -/
namespace RedfishCtl.Framing

section
variable {α : Type}

def terminated (mark : α) (words : List (List α)) : List α := words.flatMap (· ++ [mark])

def records (mark stop : α) (rows : List (List α × List α)) : List α :=
  rows.flatMap fun row => row.1 ++ [mark] ++ row.2 ++ [stop]

theorem cutInj {mark} {x y rest tail : List α} (free : mark ∉ x) (other : mark ∉ y)
    (same : x ++ mark::rest = y ++ mark::tail) : x = y ∧ rest = tail := by
  induction x generalizing y with
  | nil =>
    cases y with
    | nil => exact ⟨rfl,(List.cons.inj same).2⟩
    | cons b y =>
      exact absurd ((List.cons.inj same).1 ▸ List.mem_cons_self) other
  | cons a x ih =>
    cases y with
    | nil =>
      exact absurd ((List.cons.inj same).1 ▸ List.mem_cons_self) free
    | cons b y =>
      obtain ⟨head,tail⟩ := List.cons.inj same
      obtain ⟨whole,left⟩ := ih (fun mem => free (List.mem_cons_of_mem a mem))
        (fun mem => other (List.mem_cons_of_mem b mem)) tail
      exact ⟨by rw [head,whole],left⟩

theorem terminatedInj {mark} {xs ys : List (List α)} (free : ∀ w ∈ xs, mark ∉ w)
    (other : ∀ w ∈ ys, mark ∉ w) (same : terminated mark xs = terminated mark ys) : xs = ys := by
  induction xs generalizing ys with
  | nil =>
    cases ys with
    | nil => rfl
    | cons y rest => simp [terminated] at same
  | cons x xs ih =>
    cases ys with
    | nil => simp [terminated] at same
    | cons y ys =>
      have cut : x ++ mark::terminated mark xs = y ++ mark::terminated mark ys := by
        simpa [terminated] using same
      obtain ⟨word,rest⟩ := cutInj (free x List.mem_cons_self) (other y List.mem_cons_self) cut
      rw [word,ih (fun w mem => free w (List.mem_cons_of_mem x mem))
        (fun w mem => other w (List.mem_cons_of_mem y mem)) rest]

theorem recordsInj {mark stop} {width : ℕ} {xs ys : List (List α × List α)}
    (free : ∀ row ∈ xs, mark ∉ row.1 ∧ row.2.length = width)
    (other : ∀ row ∈ ys, mark ∉ row.1 ∧ row.2.length = width)
    (same : records mark stop xs = records mark stop ys) : xs = ys := by
  induction xs generalizing ys with
  | nil =>
    cases ys with
    | nil => rfl
    | cons y rest => simp [records] at same
  | cons x xs ih =>
    cases ys with
    | nil => simp [records] at same
    | cons y ys =>
      have cut : x.1 ++ mark::(x.2 ++ stop::records mark stop xs) =
          y.1 ++ mark::(y.2 ++ stop::records mark stop ys) := by
        simpa [records] using same
      obtain ⟨here,long⟩ := free x List.mem_cons_self
      obtain ⟨there,wide⟩ := other y List.mem_cons_self
      obtain ⟨word,rest⟩ := cutInj here there cut
      obtain ⟨field,tail⟩ := List.append_inj rest (long.trans wide.symm)
      rw [Prod.ext word field,ih (fun row mem => free row (List.mem_cons_of_mem x mem))
        (fun row mem => other row (List.mem_cons_of_mem y mem)) (List.cons.inj tail).2]

variable [DecidableEq α]

theorem terminatedSplit (mark : α) (text : List α) :
    terminated mark (text.splitOn mark) = text ++ [mark] := by
  have join : ∀ words : List (List α), words ≠ [] →
      terminated mark words = [mark].intercalate words ++ [mark] := by
    intro words some
    induction words with
    | nil => exact absurd rfl some
    | cons w rest ih =>
      cases rest with
      | nil => simp [terminated]
      | cons next others =>
        have later := ih (List.cons_ne_nil next others)
        rw [List.intercalate_cons_cons,List.append_assoc,← later]
        simp [terminated]
  rw [join _ (List.splitOn_ne_nil _ _),List.intercalate_splitOn]

theorem splitFree (mark : α) (text : List α) : ∀ w ∈ text.splitOn mark, mark ∉ w := by
  intro w mem inside
  by_cases present : mark ∈ text
  · obtain ⟨front,rest,rfl,free⟩ := List.eq_append_cons_of_mem present
    rw [List.splitOn_append_cons_self,List.splitOn_eq_singleton free] at mem
    rcases List.mem_append.mp mem with first | later
    · rw [List.mem_singleton.mp first] at inside
      exact free inside
    · exact splitFree mark rest w later inside
  · rw [List.splitOn_eq_singleton present,List.mem_singleton] at mem
    exact present (mem ▸ inside)
termination_by text.length
decreasing_by
  rename_i whole
  rw [whole,List.length_append,List.length_cons]
  omega

end

/-! Texts as bytes. -/

theorem toListLoop (bytes : ByteArray) (i : ℕ) (done : List UInt8) :
    ByteArray.toList.loop bytes i done = done.reverse ++ bytes.data.toList.drop i := by
  fun_induction ByteArray.toList.loop bytes i done with
  | case1 i done inside ih =>
    have here : i < bytes.data.toList.length := by simpa using inside
    have byte : bytes.get! i = bytes.data.toList[i] := by
      simp [ByteArray.get!,inside]
    rw [ih,List.drop_eq_getElem_cons here,byte,List.reverse_cons,List.append_assoc]
    rfl
  | case2 i done outside =>
    have past : bytes.data.toList.length ≤ i := by simpa using outside
    rw [List.drop_eq_nil_of_le past,List.append_nil]

theorem toListData (bytes : ByteArray) : bytes.toList = bytes.data.toList := by
  rw [ByteArray.toList,toListLoop]
  rfl

theorem utf8Inj {s t : String} (same : s.toUTF8.toList = t.toUTF8.toList) : s = t := by
  rw [toListData,toListData,Array.toList_inj] at same
  exact String.toByteArray_inj.mp (ByteArray.ext same)

theorem utf8Chars (s : String) : s.toUTF8.toList = s.toList.flatMap String.utf8EncodeChar := by
  rw [toListData,String.toUTF8,← String.utf8Encode_toList,List.utf8Encode,List.data_toByteArray]

theorem utf8Zero {c} (zero : 0 ∈ String.utf8EncodeChar c) : c.toNat = 0 := by
  have byte {n : ℕ} (small : n < 256) (same : (0 : UInt8) = UInt8.ofNat n) : n = 0 := by
    have value := congrArg UInt8.toNat same
    rw [UInt8.toNat_ofNat',Nat.mod_eq_of_lt small] at value
    exact value.symm
  unfold String.utf8EncodeChar at zero
  dsimp only at zero
  split at zero
  · rename_i ascii
    exact byte (n := c.val.toNat) (by omega) (List.mem_singleton.mp zero)
  -- every other byte has its top bit set
  split at zero
  · simp only [List.mem_cons,List.not_mem_nil,or_false] at zero
    rcases zero with zero | zero <;> have := byte (by omega) zero <;> omega
  split at zero
  · simp only [List.mem_cons,List.not_mem_nil,or_false] at zero
    rcases zero with zero | zero | zero <;> have := byte (by omega) zero <;> omega
  · simp only [List.mem_cons,List.not_mem_nil,or_false] at zero
    rcases zero with zero | zero | zero | zero <;> have := byte (by omega) zero <;> omega

end RedfishCtl.Framing
