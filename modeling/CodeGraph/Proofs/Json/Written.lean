/-
# Reading what has been written

A text is written for a value if the reader takes it for the value, whatever may end it
(`Json.Reads`).  Here are the scalars: the written forms of strings, booleans and natural numbers are
read as what they were written for (`Json.reads_text`, `Json.reads_bool`, `Json.reads_natural`).
-/
import Mathlib
import CodeGraph.Json.Shape
import CodeGraph.Json.Write

namespace CodeGraph.Json

/-! ## Written values -/

/-- What can stand behind a value: nothing, a comma, or the end of what is around it. -/
def EndsValue (rest : List Char) : Prop := ∀ c ∈ rest.head?, c = ',' ∨ c = ']' ∨ c = '}'

/-- The text begins with something that belongs to a value. -/
def BeginsValue (text : List Char) : Prop :=
  ∃ c rest, text = c :: rest ∧ isBlank c = false ∧ c ≠ ']' ∧ c ≠ 'n'

/-- The reader takes the text for the value and leaves what stands behind it. -/
structure Reads {α : Type} (read : Reader α) (text : List Char) (a : α) : Prop where
  begins : BeginsValue text
  read_append : ∀ rest, EndsValue rest → read (text ++ rest) = .ok (a, rest)

theorem endsValue_nil : EndsValue [] := by
  intro c hc
  cases hc

theorem endsValue_cons {c : Char} (hc : c = ',' ∨ c = ']' ∨ c = '}') (rest : List Char) :
    EndsValue (c :: rest) := by
  intro d hd
  obtain rfl : c = d := Option.some.inj hd
  exact hc

/-- There is nothing to skip in front of what is no blank. -/
theorem skipBlank_cons {c : Char} (hc : isBlank c = false) (rest : List Char) :
    skipBlank (c :: rest) = c :: rest := by
  rw [skipBlank, List.dropWhile_cons_of_neg]
  rw [hc]
  exact Bool.false_ne_true

/-! ## Strings -/

/-- The value of a written hexadecimal digit. -/
theorem hexValue?_digitChar {k : Nat} (hk : k < 16) : hexValue? (Nat.digitChar k) = some k := by
  have hall : ∀ k < 16, hexValue? (Nat.digitChar k) = some k := by decide
  exact hall k hk

/-- There are at least as many bytes as characters. -/
theorem length_le_length_utf8 (cs : List Char) : cs.length ≤ (Text.utf8 cs).length := by
  induction cs with
  | nil => exact Nat.zero_le _
  | cons c cs ih =>
    have hpos : 0 < (String.utf8EncodeChar c).length := by
      rw [String.length_utf8EncodeChar]
      exact Char.utf8Size_pos c
    rw [Text.utf8_cons, List.length_cons, List.length_append]
    omega

/-- Four written digits are read as the unit that they stand for. -/
theorem scanHex4_cons {a b c d : Char} {unit : Nat} (h : hexValue4? a b c d = some unit)
    (rest : List Char) : scanHex4 (a :: b :: c :: d :: rest) = .ok (unit, rest) := by
  have hbytes : hasFourBytes (a :: b :: c :: d :: rest) = true := by
    rw [hasFourBytes, decide_eq_true_eq]
    exact length_le_length_utf8 [a, b, c, d]
  rw [scanHex4, if_pos hbytes]
  simp only [h]

/-- A written control character is read as itself. -/
theorem scanEscape_control {c : Char} (hc : c.toNat < 32) (rest : List Char) :
    scanEscape ('u' :: '0' :: '0' :: (controlDigits c ++ rest)) = .ok (c, rest) := by
  have hhigh := hexValue?_digitChar (k := c.toNat / 16) (by omega)
  have hlow := hexValue?_digitChar (k := c.toNat % 16) (by omega)
  have hzero : hexValue? '0' = some 0 := hexValue?_digitChar (k := 0) (by omega)
  have hunit : hexValue4? '0' '0' (Nat.digitChar (c.toNat / 16)) (Nat.digitChar (c.toNat % 16)) =
      some c.toNat := by
    rw [hexValue4?, hhigh, hlow, hzero]
    show some _ = _
    congr 1
    omega
  -- it is no half of a surrogate pair, so no second unit is read
  have hno : ¬ 0xDC00 ≤ c.toNat := by omega
  have hnot : ¬ 0xD800 ≤ c.toNat := by omega
  rw [controlDigits, List.cons_append, List.cons_append, List.nil_append, scanEscape,
    scanHex4_cons hunit]
  simp only [bind, Except.bind, hno, hnot, decide_false, Bool.false_and, Bool.false_eq_true,
    if_false, Char.ofNat_toNat]

/-- An escape adds the character that it stands for. -/
theorem scanString_escape {cs rest : List Char} {x : Char} (h : scanEscape cs = .ok (x, rest))
    (done : List Char) : scanString done ('\\' :: cs) = scanString (x :: done) rest := by
  rw [scanString, if_neg (by decide), if_pos rfl]
  split
  · next y after heq =>
    rw [h] at heq
    cases heq
    rfl
  · next failure heq =>
    rw [h] at heq
    cases heq

/-- **A written character is read as itself.** -/
theorem scanString_encodeChar (c : Char) (done rest : List Char) :
    scanString done (encodeChar c ++ rest) = scanString (c :: done) rest := by
  unfold encodeChar
  split
  case h_8 hquote hbackslash _ _ _ _ _ =>
    split
    · next hcontrol =>
      exact scanString_escape (scanEscape_control hcontrol rest) done
    · next hplain =>
      rw [List.cons_append, List.nil_append, scanString, if_neg hquote, if_neg hbackslash,
        if_neg hplain]
  -- all others are escaped by one letter
  all_goals exact scanString_escape rfl done

theorem scanString_encode (cs done rest : List Char) :
    scanString done (cs.flatMap encodeChar ++ '"' :: rest) =
      .ok (String.ofList (done.reverse ++ cs), rest) := by
  induction cs generalizing done with
  | nil => rw [List.flatMap_nil, List.nil_append, scanString, if_pos rfl, List.append_nil]
  | cons c cs ih =>
    rw [List.flatMap_cons, List.append_assoc, scanString_encodeChar, ih, List.reverse_cons,
      List.append_assoc, List.singleton_append]

/-- **A written string is read as itself**, behind its opening quote. -/
theorem scanString_text (text : String) (rest : List Char) :
    scanString [] (text.toList.flatMap encodeChar ++ '"' :: rest) = .ok (text, rest) := by
  rw [scanString_encode, List.reverse_nil, List.nil_append, String.ofList_toList]

theorem encodeText_append (text : String) (rest : List Char) :
    encodeText text ++ rest = '"' :: (text.toList.flatMap encodeChar ++ '"' :: rest) := by
  rw [encodeText, List.cons_append, List.append_assoc, List.singleton_append]

theorem beginsValue_text (text : String) : BeginsValue (encodeText text) :=
  ⟨'"', _, rfl, rfl, by decide, by decide⟩

/-- **A written string is read as itself.** -/
theorem reads_text (text : String) : Reads readText (encodeText text) text where
  begins := beginsValue_text text
  read_append rest _ := by
    rw [encodeText_append, readText, skipBlank_cons rfl]
    exact scanString_text text rest

/-! ## Booleans -/

theorem reads_bool (b : Bool) : Reads readBool (encodeBool b) b where
  begins := by
    cases b with
    | false => exact ⟨'f', _, rfl, rfl, by decide, by decide⟩
    | true => exact ⟨'t', _, rfl, rfl, by decide, by decide⟩
  read_append rest _ := by
    cases b <;> rfl

/-! ## Natural numbers -/

/-- What ends a value is no part of a number. -/
theorem EndsValue.not_digit {rest : List Char} (h : EndsValue rest) :
    startsWithDigit rest = false := by
  cases rest with
  | nil => rfl
  | cons c rest => rcases h c rfl with rfl | rfl | rfl <;> rfl

/-- A natural number is finished where the value ends. -/
theorem EndsValue.finishInteger {rest : List Char} (h : EndsValue rest) (n : Nat) :
    finishInteger false n rest = .ok (.natural n, rest) := by
  cases rest with
  | nil => rfl
  | cons c rest => rcases h c rfl with rfl | rfl | rfl <;> rfl

theorem digitValue_digitChar {k : Nat} (hk : k < 10) : digitValue (Nat.digitChar k) = k := by
  have hall : ∀ k < 10, digitValue (Nat.digitChar k) = k := by decide
  exact hall k hk

theorem isDigit_digitChar {k : Nat} (hk : k < 10) : (Nat.digitChar k).isDigit = true := by
  have hall : ∀ k < 10, (Nat.digitChar k).isDigit = true := by decide
  exact hall k hk

/-- One more digit of a number that fits. -/
theorem takeDigits_digitChar {n k : Nat} (hk : k < 10) (hn : n * 10 + k < UInt64.size)
    (count : Nat) (rest : List Char) :
    takeDigits n count (Nat.digitChar k :: rest) = takeDigits (n * 10 + k) (count + 1) rest := by
  have hfits : ((Nat.digitChar k).isDigit && decide (n * 10 + k < UInt64.size)) = true := by
    rw [isDigit_digitChar hk, Bool.true_and, decide_eq_true_eq]
    exact hn
  rw [takeDigits, digitValue_digitChar hk, if_pos hfits]

/-- The digits of a number that fits are taken for the number. -/
theorem takeDigits_toDigits {n : Nat} (hn : n < UInt64.size) (rest : List Char) :
    ∃ count, takeDigits 0 0 (Nat.toDigits 10 n ++ rest) = takeDigits n count rest := by
  -- by induction on the number, which loses its last digit
  induction n using Nat.strongRecOn generalizing rest with
  | ind n ih =>
    by_cases hsmall : n < 10
    · refine ⟨1, ?_⟩
      rw [Nat.toDigits_of_lt_base hsmall, List.singleton_append]
      have hstep := takeDigits_digitChar (n := 0) hsmall (by omega) 0 rest
      rw [hstep, Nat.zero_mul, Nat.zero_add]
    · obtain ⟨count, hcount⟩ := ih (n / 10) (by omega) (by omega) (Nat.digitChar (n % 10) :: rest)
      refine ⟨count + 1, ?_⟩
      rw [Nat.toDigits_of_base_le (by omega) (by omega), List.append_assoc, List.singleton_append,
        hcount, takeDigits_digitChar (by omega) (by omega)]
      congr 1
      omega

/-- A number that fits begins with a digit, which is a zero only for zero itself. -/
theorem exists_toDigits_cons (n : Nat) :
    ∃ c digits, Nat.toDigits 10 n = c :: digits ∧ c.isDigit = true ∧ (n ≠ 0 → c ≠ '0') := by
  induction n using Nat.strongRecOn with
  | ind n ih =>
    by_cases hsmall : n < 10
    · refine ⟨Nat.digitChar n, [], Nat.toDigits_of_lt_base hsmall, isDigit_digitChar hsmall, ?_⟩
      have hall : ∀ k < 10, k ≠ 0 → Nat.digitChar k ≠ '0' := by decide
      exact hall n hsmall
    · obtain ⟨c, digits, hdigits, hdigit, hzero⟩ := ih (n / 10) (by omega)
      refine ⟨c, digits ++ [Nat.digitChar (n % 10)], ?_, hdigit, fun _ => hzero (by omega)⟩
      rw [Nat.toDigits_of_base_le (by omega) (by omega), hdigits, List.cons_append]

/-- Digits end where no digit follows. -/
theorem takeDigits_of_not_digit {rest : List Char} (h : startsWithDigit rest = false)
    (n count : Nat) : takeDigits n count rest = (n, count, rest) := by
  cases rest with
  | nil => rfl
  | cons c rest =>
    have hc : c.isDigit = false := h
    rw [takeDigits, hc]
    rfl

/-- **A written number is read as itself**, if it fits in 64 bits. -/
theorem scanNumber_encodeNat {n : Nat} (hn : n < UInt64.size) {rest : List Char}
    (hrest : EndsValue rest) :
    scanNumber false (encodeNat n ++ rest) = .ok (.natural n, rest) := by
  obtain ⟨count, hcount⟩ := takeDigits_toDigits hn rest
  obtain ⟨c, digits, hdigits, hdigit, hzero⟩ := exists_toDigits_cons n
  rw [takeDigits_of_not_digit hrest.not_digit] at hcount
  by_cases hn0 : n = 0
  · -- behind a zero there must be no digit, so zero has a rule of its own
    subst hn0
    show scanNumber false ('0' :: rest) = _
    rw [scanNumber, hrest.not_digit]
    exact hrest.finishInteger 0
  · rw [hdigits] at hcount
    rw [encodeNat, hdigits, scanNumber.eq_def]
    split
    · next heq => cases heq
    · next heq =>
      cases heq
      exact absurd rfl (hzero hn0)
    · next heq =>
      cases heq
      rw [hdigit, if_pos rfl, hcount]
      dsimp only
      rw [hrest.not_digit]
      exact hrest.finishInteger n

/-- A digit is no blank. -/
theorem isBlank_of_isDigit {c : Char} (h : c.isDigit = true) : isBlank c = false := by
  rw [isBlank]
  simp only [Bool.or_eq_false_iff, beq_eq_false_iff_ne]
  refine ⟨⟨⟨?_, ?_⟩, ?_⟩, ?_⟩ <;> (rintro rfl; cases h)

/-- **A written natural number below the bound is read as itself.** -/
theorem reads_natural (expected : String) {bound n : Nat} (hn : n < bound)
    (hbound : bound ≤ UInt64.size) : Reads (readNatural expected bound) (encodeNat n) n where
  begins := by
    obtain ⟨c, digits, hdigits, hdigit, -⟩ := exists_toDigits_cons n
    refine ⟨c, digits, hdigits, isBlank_of_isDigit hdigit, ?_, ?_⟩ <;> (rintro rfl; cases hdigit)
  read_append rest hrest := by
    have hscan := scanNumber_encodeNat (Nat.lt_of_lt_of_le hn hbound) hrest
    obtain ⟨c, digits, hdigits, hdigit, -⟩ := exists_toDigits_cons n
    rw [encodeNat, hdigits, List.cons_append] at hscan ⊢
    rw [readNatural, skipBlank_cons (isBlank_of_isDigit hdigit)]
    split
    · next heq => cases heq
    · next heq =>
      cases heq
      cases hdigit
    · rw [startsWithDigit, if_pos hdigit, hscan]
      show acceptNatural expected bound (.natural n) rest = _
      rw [acceptNatural, if_pos hn]

end CodeGraph.Json
