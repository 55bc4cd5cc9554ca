/-
# Lines of text and their bytes

Texts without line ends are the lines of what they make with a line end behind each, in characters
as in bytes (`Text.splitOn_flatMap`).  Both have the same lines: no other character has the byte of
a line end (`Text.eq_newline_of_mem`), and the bytes of a text are read as the text
(`Text.fromUTF8?_utf8`).
-/
import Mathlib
import CodeGraph.Text.Encoding

namespace CodeGraph.Text

/-! ## Lines -/

section Lines

variable {α : Type} [BEq α] [LawfulBEq α] {c : α}

/-- A piece ends at the first separator. -/
theorem splitOn_append_cons {xs : List α} (h : c ∉ xs) (rest : List α) :
    (xs ++ c :: rest).splitOn c = xs :: rest.splitOn c := by
  have hapart : ∀ x ∈ xs, (x == c) = false := by
    intro x hx
    rw [beq_eq_false_iff_ne]
    exact fun heq => h (heq ▸ hx)
  rw [List.splitOn, List.splitOn]
  exact List.splitOnP_append_cons_of_forall_mem hapart c (beq_self_eq_true c) rest

/-- Texts without line ends, each with a line end behind it, are the lines of what they make. -/
theorem splitOn_flatMap {lines : List (List α)} (h : ∀ line ∈ lines, c ∉ line) :
    (lines.flatMap (· ++ [c])).splitOn c = lines ++ [[]] := by
  induction lines with
  | nil => rfl
  | cons line lines ih =>
    have hlater := ih fun line hline => h line (List.mem_cons_of_mem _ hline)
    rw [List.flatMap_cons, List.append_assoc, List.singleton_append,
      splitOn_append_cons (h line List.mem_cons_self), hlater, List.cons_append]

end Lines

/-! ## Numbers -/

theorem not_mem_toDigits {c : Char} (hdigit : c.isDigit = false) (n : Nat) :
    c ∉ Nat.toDigits 10 n := by
  intro hmem
  have hyes := Nat.isDigit_of_mem_toDigits (by decide) (by decide) hmem
  rw [hdigit] at hyes
  cases hyes

/-! ## Bytes -/

/-- The byte of a line end. -/
def newlineByte : UInt8 := 10

theorem toNat_ofNat (n : Nat) : (UInt8.ofNat n).toNat = n % 256 := UInt8.toNat_ofNat'

/-- The bytes of a character beyond ASCII are beyond ASCII. -/
theorem le_of_mem_utf8EncodeChar {c : Char} (hlong : 127 < c.val.toNat) {b : UInt8}
    (hb : b ∈ String.utf8EncodeChar c) : 128 ≤ b.toNat := by
  unfold String.utf8EncodeChar at hb
  dsimp only at hb
  rw [if_neg (by omega)] at hb
  -- two, three or four bytes; the first has its two highest bits set, the others the highest
  split at hb
  · simp only [List.mem_cons, List.not_mem_nil, or_false] at hb
    rcases hb with rfl | rfl <;> rw [toNat_ofNat] <;> omega
  split at hb
  · simp only [List.mem_cons, List.not_mem_nil, or_false] at hb
    rcases hb with rfl | rfl | rfl <;> rw [toNat_ofNat] <;> omega
  · simp only [List.mem_cons, List.not_mem_nil, or_false] at hb
    rcases hb with rfl | rfl | rfl | rfl <;> rw [toNat_ofNat] <;> omega

/-- **No other character has the byte of a line end.** -/
theorem eq_newline_of_mem {c : Char} (h : newlineByte ∈ String.utf8EncodeChar c) : c = '\n' := by
  by_cases hshort : c.val.toNat ≤ 127
  · unfold String.utf8EncodeChar at h
    dsimp only at h
    rw [if_pos hshort, List.mem_singleton] at h
    have hnat := congrArg UInt8.toNat h
    rw [toNat_ofNat] at hnat
    change 10 = c.val.toNat % 256 at hnat
    have hval : c.val.toNat = 10 := by omega
    exact Char.ext (UInt32.toNat_inj.mp hval)
  · have hle := le_of_mem_utf8EncodeChar (by omega) h
    exact absurd hle (by decide)

/-- A text without line ends has no byte of one. -/
theorem newlineByte_not_mem_utf8 {cs : List Char} (h : '\n' ∉ cs) : newlineByte ∉ utf8 cs := by
  intro hmem
  obtain ⟨c, hc, hbyte⟩ := List.mem_flatMap.mp hmem
  exact h (eq_newline_of_mem hbyte ▸ hc)

/-- **The bytes of a text are read as the text.** -/
theorem fromUTF8?_utf8 (cs : List Char) :
    String.fromUTF8? ⟨(utf8 cs).toArray⟩ = some (String.ofList cs) := by
  have hbytes : (⟨(utf8 cs).toArray⟩ : ByteArray) = (String.ofList cs).toByteArray := by
    rw [String.toByteArray_ofList, List.utf8Encode]
    exact ByteArray.ext List.data_toByteArray.symm
  rw [hbytes, String.fromUTF8?, dif_pos (String.ofList cs).isValidUTF8]
  rfl

end CodeGraph.Text
