/-
# Written values are on one line

Line ends are escaped in strings, and nothing else that is written has any.
-/
import CodeGraph.Proofs.Json.Brackets
import CodeGraph.Proofs.Text.Lines

namespace CodeGraph.Json

/-- **No written character is a line end.** -/
theorem newline_not_mem_encodeChar (c : Char) : '\n' ∉ encodeChar c := by
  unfold encodeChar
  split
  case h_8 hnewline _ _ =>
    split
    · next hcontrol =>
      have hhex : ∀ k < 16, '\n' ≠ Nat.digitChar k := by decide
      have hhigh := hhex (c.toNat / 16) (by omega)
      have hlow := hhex (c.toNat % 16) (by omega)
      simp [controlDigits, hhigh, hlow]
    · rw [List.mem_singleton]
      exact fun heq => hnewline heq.symm
  all_goals decide

theorem newline_not_mem_encodeText (text : String) : '\n' ∉ encodeText text := by
  have hall : '\n' ∉ text.toList.flatMap encodeChar := by
    intro hmem
    obtain ⟨c, -, hc⟩ := List.mem_flatMap.mp hmem
    exact newline_not_mem_encodeChar c hc
  simp [encodeText, hall]

theorem newline_not_mem_encodeNat (n : Nat) : '\n' ∉ encodeNat n :=
  Text.not_mem_toDigits rfl n

/-- There is no line end in a truth value. -/
theorem newline_not_mem_encodeBool (b : Bool) : '\n' ∉ encodeBool b := by
  cases b <;> decide

section Lists

variable {texts : List (List Char)}

theorem newline_not_mem_behindCommas (h : ∀ text ∈ texts, '\n' ∉ text) :
    '\n' ∉ behindCommas texts := by
  intro hmem
  obtain ⟨text, htext, hc⟩ := List.mem_flatMap.mp hmem
  rcases List.mem_cons.mp hc with hcomma | hc
  · exact absurd hcomma (by decide)
  · exact h text htext hc

/-- There is no line end in values behind each other if there is none in them. -/
theorem newline_not_mem_separate (h : ∀ text ∈ texts, '\n' ∉ text) : '\n' ∉ separate texts := by
  cases texts with
  | nil => exact List.not_mem_nil
  | cons text texts =>
    have hlater := newline_not_mem_behindCommas fun text htext => h text (List.mem_cons_of_mem _ htext)
    rw [separate_cons, List.mem_append]
    exact fun hmem => hmem.elim (h text List.mem_cons_self) hlater

/-- **A list of values without line ends has none.** -/
theorem newline_not_mem_encodeList (h : ∀ text ∈ texts, '\n' ∉ text) : '\n' ∉ encodeList texts := by
  have hall := newline_not_mem_separate h
  simp [encodeList, hall]

/-- There is no line end in a list if there is none in its elements. -/
theorem newline_not_mem_encodeList_map {α : Type} {encode : α → List Char}
    (h : ∀ a, '\n' ∉ encode a) (values : List α) : '\n' ∉ encodeList (values.map encode) := by
  refine newline_not_mem_encodeList ?_
  intro text htext
  obtain ⟨a, -, rfl⟩ := List.mem_map.mp htext
  exact h a

/-- **An object of values without line ends has none**, whatever its keys are. -/
theorem newline_not_mem_encodeObject {members : List (String × List Char)}
    (h : ∀ key text, (key, text) ∈ members → '\n' ∉ text) : '\n' ∉ encodeObject members := by
  have hmember : ∀ text ∈ members.map encodeMember, '\n' ∉ text := by
    intro text htext
    obtain ⟨⟨key, value⟩, hmem, rfl⟩ := List.mem_map.mp htext
    have hkey := newline_not_mem_encodeText key
    have hvalue := h key value hmem
    simp [encodeMember, hkey, hvalue]
  have hall := newline_not_mem_separate hmember
  simp [encodeObject_eq, hall]

end Lists

end CodeGraph.Json
