/-
# Texts without blanks

A text is plain if it has neither a space nor a line end.  Plain texts with spaces in between are
what splitting at spaces gives back, and nothing else is (`Text.splitOn_eq_iff`).  Lower case brings
no blanks in, so the sub-words of a plain text are plain (`Text.Plain.of_mem_subwords`).
-/
import CodeGraph.Proofs.Text.Lines
import CodeGraph.Proofs.Text.Segmentation

namespace CodeGraph.Text

/-! ## Splitting -/

section Splitting

variable {α : Type} [BEq α] [LawfulBEq α] {c : α}

/-- What is in a piece is in the text and is no separator. -/
theorem mem_splitOn_piece {xs piece : List α} {x : α} (h : piece ∈ xs.splitOn c) (hx : x ∈ piece) :
    x ∈ xs ∧ x ≠ c := by
  induction xs generalizing piece with
  | nil =>
    rw [List.mem_singleton.mp h] at hx
    exact absurd hx List.not_mem_nil
  | cons y ys ih =>
    obtain ⟨first, later, hpieces⟩ := List.exists_cons_of_ne_nil (List.splitOn_ne_nil c ys)
    rw [hpieces] at ih
    rw [List.splitOn_eq_splitOnP, List.splitOnP_cons_eq_if_modifyHead,
      ← List.splitOn_eq_splitOnP, hpieces] at h
    split at h
    · rcases List.mem_cons.mp h with rfl | hlater
      · exact absurd hx List.not_mem_nil
      · exact (ih hlater hx).imp_left (List.mem_cons_of_mem y)
    · next hne =>
      rcases List.mem_cons.mp h with rfl | hlater
      · rcases List.mem_cons.mp hx with rfl | hx
        · exact ⟨List.mem_cons_self, fun heq => hne (beq_iff_eq.mpr heq)⟩
        · exact (ih List.mem_cons_self hx).imp_left (List.mem_cons_of_mem y)
      · exact (ih (List.mem_cons_of_mem _ hlater) hx).imp_left (List.mem_cons_of_mem y)

theorem not_mem_of_mem_splitOn {xs piece : List α} (h : piece ∈ xs.splitOn c) : c ∉ piece :=
  fun hmem => (mem_splitOn_piece h hmem).2 rfl

/-- **Pieces that are given back.**  Splitting gives just the lists that are not empty, make up the
text with separators in between and have none inside. -/
theorem splitOn_eq_iff {xs : List α} {pieces : List (List α)} : xs.splitOn c = pieces ↔
    xs = [c].intercalate pieces ∧ pieces ≠ [] ∧ ∀ piece ∈ pieces, c ∉ piece := by
  constructor
  · rintro rfl
    exact ⟨(List.intercalate_splitOn c).symm, List.splitOn_ne_nil c xs,
      fun _ => not_mem_of_mem_splitOn⟩
  · rintro ⟨rfl, hne, hfree⟩
    exact List.splitOn_intercalate c hfree hne

end Splitting

/-! ## Lower case -/

/-- A space or a line end. -/
def IsBlank (c : Char) : Prop := c = ' ' ∨ c = '\n'

instance : DecidablePred IsBlank := fun c => inferInstanceAs (Decidable (c = ' ' ∨ c = '\n'))

/-- Blanks are early characters. -/
theorem not_isBlank_ofNat {n : Nat} (h : 33 ≤ n) : ¬ IsBlank (Char.ofNat n) := by
  intro hblank
  have hnat : (Char.ofNat n).toNat = 32 ∨ (Char.ofNat n).toNat = 10 :=
    hblank.imp (congrArg Char.toNat) (congrArg Char.toNat)
  rw [Char.toNat_ofNat] at hnat
  split at hnat <;> omega

/-- A blank is in the lower-case form of itself only. -/
theorem eq_of_mem_lowerChars {b c : Char} (hb : IsBlank b) (h : b ∈ lowerChars c) : b = c := by
  rw [lowerChars] at h
  split at h
  · have heq := List.mem_singleton.mp h
    by_cases hupper : c.isUpper = true
    · rw [Char.toLower_eq_of_isUpper hupper] at heq
      have hle : 65 ≤ c.toNat := UInt32.le_iff_toNat_le.mp (of_decide_eq_true hupper).1
      exact absurd (heq ▸ hb) (not_isBlank_ofNat (by omega))
    · rwa [Char.toLower_eq_of_not_isUpper hupper] at heq
  split at h
  · rcases List.mem_cons.mp h with rfl | h
    · exact absurd hb (by decide)
    · rw [List.mem_singleton.mp h] at hb
      exact absurd hb (by decide)
  split at h
  · next first last stride distance hfound =>
    -- a mapping of the table leads to a later character
    have habove : ∀ run ∈ lowerRuns, 33 ≤ (run.1 : Int) + run.2.2.2 := by decide +kernel
    have hrun := habove _ (List.mem_of_find?_eq_some hfound)
    have hle := List.find?_some hfound
    simp only [Bool.and_eq_true, decide_eq_true_eq] at hle hrun
    rw [List.mem_singleton.mp h] at hb
    exact absurd hb (not_isBlank_ofNat (by omega))
  · exact List.mem_singleton.mp h

theorem not_isBlank_lowerSigma (before after : List Char) :
    ¬ IsBlank (lowerSigma before after) := by
  rw [lowerSigma]
  split <;> decide

theorem mem_of_mem_lowerOnto {b : Char} (hb : IsBlank b) {before done cs : List Char}
    (h : b ∈ lowerOnto before done cs) : b ∈ done ∨ b ∈ cs := by
  induction cs generalizing before done with
  | nil => exact Or.inl (List.mem_reverse.mp h)
  | cons c cs ih =>
    rcases ih h with hdone | hrest
    · rcases List.mem_append.mp hdone with hsmall | hold
      · refine Or.inr (List.mem_cons.mpr (Or.inl ?_))
        rw [List.mem_reverse] at hsmall
        split at hsmall
        · rw [List.mem_singleton.mp hsmall] at hb
          exact absurd hb (not_isBlank_lowerSigma before cs)
        · exact eq_of_mem_lowerChars hb hsmall
      · exact Or.inl hold
    · exact Or.inr (List.mem_cons_of_mem _ hrest)

/-- **Lower case brings in no blanks.** -/
theorem mem_of_mem_lower {b : Char} (hb : IsBlank b) {cs : List Char} (h : b ∈ lower cs) :
    b ∈ cs :=
  (mem_of_mem_lowerOnto hb h).resolve_left List.not_mem_nil

/-! ## Plain texts -/

/-- The text has neither a space nor a line end. -/
def Plain (text : String) : Prop := ' ' ∉ text.toList ∧ '\n' ∉ text.toList

instance : DecidablePred Plain := fun text =>
  inferInstanceAs (Decidable (' ' ∉ text.toList ∧ '\n' ∉ text.toList))

/-- What is in a fragment is in the text. -/
theorem mem_of_mem_fragments {c : Char} {cs fragment : List Char} (h : fragment ∈ fragments cs)
    (hc : c ∈ fragment) : c ∈ cs := by
  obtain ⟨stretches, -, heq⟩ := exists_isSegmentation cs
  rw [heq] at h
  obtain ⟨stretch, -, rfl⟩ := List.mem_map.mp h
  exact List.mem_of_mem_take (List.mem_of_mem_drop hc)

/-- A blank in a word has been in the text. -/
theorem mem_of_mem_subwords {b : Char} (hb : IsBlank b) {text word : String}
    (h : word ∈ subwords text) (hword : b ∈ word.toList) : b ∈ text.toList := by
  rw [subwords] at h
  split at h
  · exact absurd h List.not_mem_nil
  · rw [List.mem_singleton.mp h] at hword
    exact hword
  · obtain ⟨fragment, hfragment, rfl⟩ := List.mem_map.mp h
    rw [String.toList_ofList] at hword
    exact mem_of_mem_fragments hfragment (mem_of_mem_lower hb hword)

/-- **The sub-words of a plain text are plain.** -/
theorem Plain.of_mem_subwords {text word : String} (h : Plain text) (hword : word ∈ subwords text) :
    Plain word :=
  ⟨fun hmem => h.1 (mem_of_mem_subwords (Or.inl rfl) hword hmem),
    fun hmem => h.2 (mem_of_mem_subwords (Or.inr rfl) hword hmem)⟩

end CodeGraph.Text
