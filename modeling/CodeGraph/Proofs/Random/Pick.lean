/-
# What dice can pick

A number below a bound is below it whatever is drawn, the carry of a second word included
(`Dice.below_lt`), so a member is picked of every list that has one.  A word of zero always picks the
first member, and draws nothing more.  Every member of a list can be picked: for each there is a word
that picks it (`Dice.exists_word_pick?`).
-/
import Mathlib
import CodeGraph.Random.Dice

namespace CodeGraph

namespace Dice

variable {dice : Dice} {bound : Nat}

/-- Dice that give the word `word` at draw number `d`, and zero at all others. -/
def only (d : Nat) (word : UInt32) (drawn : Nat) : Dice :=
  { stream := fun n => if n = d then word else 0, drawn }

/-- **A number below a bound is below it**, whatever the words are. -/
theorem below_lt (hbound : 0 < bound) (dice : Dice) : (dice.below bound).1 < bound := by
  have hword : (dice.stream dice.drawn).toNat < UInt32.size := UInt32.toNat_lt_size _
  have hmore : (dice.stream (dice.drawn + 1)).toNat < UInt32.size := UInt32.toNat_lt_size _
  rw [below, draw]
  dsimp only
  generalize (dice.stream dice.drawn).toNat = word at hword ⊢
  split
  · rw [draw]
    dsimp only
    generalize (dice.stream (dice.drawn + 1)).toNat = more at hmore ⊢
    -- with the upper half of the second product, the whole product is still that of a lesser word
    have hupper : more * bound / UInt32.size < bound :=
      Nat.div_lt_of_lt_mul (Nat.mul_lt_mul_of_pos_right hmore hbound)
    have hproduct : word * bound + bound ≤ UInt32.size * bound := by
      rw [← Nat.succ_mul]
      exact Nat.mul_le_mul_right bound hword
    have hsum : word * bound / UInt32.size + (word * bound % UInt32.size +
        more * bound / UInt32.size) / UInt32.size =
          (word * bound + more * bound / UInt32.size) / UInt32.size := by
      rw [← Nat.mul_add_div (show 0 < UInt32.size by decide), ← Nat.add_assoc, Nat.div_add_mod]
    rw [hsum]
    refine Nat.div_lt_of_lt_mul ?_
    omega
  · exact Nat.div_lt_of_lt_mul (Nat.mul_lt_mul_of_pos_right hword hbound)

theorem below_of_zero (hzero : dice.stream dice.drawn = 0) :
    dice.below bound = (0, { dice with drawn := dice.drawn + 1 }) := by
  rw [below, draw]
  dsimp only
  rw [hzero, UInt32.toNat_zero, Nat.zero_mul, Nat.zero_div, Nat.zero_mod,
    if_neg (Nat.not_lt_zero _)]

/-- Without a carry the word alone decides. -/
theorem below_fst (hzero : dice.stream (dice.drawn + 1) = 0) :
    (dice.below bound).1 = (dice.stream dice.drawn).toNat * bound / UInt32.size := by
  rw [below, draw]
  dsimp only
  split
  · rw [draw]
    dsimp only
    rw [hzero, UInt32.toNat_zero, Nat.zero_mul, Nat.zero_div, Nat.add_zero, Nat.mod_div_self,
      Nat.add_zero]
  · rfl

/-- Each number below the bound is the upper half of a product with it. -/
theorem exists_word {j : Nat} (hj : j < bound) (hbound : bound ≤ UInt32.size) :
    ∃ word : UInt32, word.toNat * bound / UInt32.size = j := by
  -- the least word whose product with the bound is large enough
  let n := (j * UInt32.size + (bound - 1)) / bound
  have hle : n * bound ≤ j * UInt32.size + (bound - 1) := Nat.div_mul_le_self _ _
  have hlt : j * UInt32.size + (bound - 1) < n * bound + bound :=
    Nat.lt_div_mul_add (Nat.zero_lt_of_lt hj)
  have hupper : n * bound < (j + 1) * UInt32.size := by
    rw [Nat.succ_mul]
    omega
  have hn : n < UInt32.size := by
    by_contra hge
    have hproduct : (j + 1) * UInt32.size ≤ n * bound := by
      rw [Nat.mul_comm n]
      exact Nat.mul_le_mul hj (Nat.not_lt.mp hge)
    exact Nat.not_lt.mpr hproduct hupper
  refine ⟨UInt32.ofNatLT n hn, ?_⟩
  rw [UInt32.toNat_ofNatLT]
  exact Nat.div_eq_of_lt_le (by omega) hupper

/-- Of no members none is picked, and nothing is drawn. -/
theorem pick?_nil {α : Type} (dice : Dice) : dice.pick? ([] : List α) = (none, dice) := rfl

/-- Of some members one is picked. -/
theorem exists_pick? {α : Type} {members : List α} (hmembers : members ≠ []) (dice : Dice) :
    ∃ a, (dice.pick? members).1 = some a := by
  cases members with
  | nil => exact absurd rfl hmembers
  | cons b members =>
    have hlt := below_lt (Nat.succ_pos members.length) dice
    exact ⟨_, List.getElem?_eq_getElem hlt⟩

/-- What is picked is a member of the list. -/
theorem mem_of_pick? {α : Type} {members : List α} {a : α}
    (h : (dice.pick? members).1 = some a) : a ∈ members := by
  cases members with
  | nil => cases h
  | cons b members => exact List.mem_of_getElem? h

theorem pick?_of_zero {α : Type} {members : List α} (hmembers : members ≠ [])
    (hzero : dice.stream dice.drawn = 0) :
    dice.pick? members = (members.head?, { dice with drawn := dice.drawn + 1 }) := by
  cases members with
  | nil => exact absurd rfl hmembers
  | cons b members =>
    show ((b :: members)[(dice.below _).1]?, (dice.below _).2) = _
    rw [below_of_zero hzero]
    rfl

/-- **Every member of a list can be picked.** -/
theorem exists_word_pick? {α : Type} {members : List α} {a : α} (ha : a ∈ members)
    (hlength : members.length ≤ UInt32.size) :
    ∃ word, ∀ d, ((only d word d).pick? members).1 = some a := by
  obtain ⟨j, hj⟩ := List.mem_iff_getElem?.mp ha
  obtain ⟨word, hword⟩ := exists_word (List.getElem?_eq_some_iff.mp hj).1 hlength
  refine ⟨word, fun d => ?_⟩
  have hbelow : ((only d word d).below members.length).1 = j := by
    rw [below_fst (if_neg (Nat.succ_ne_self d)), ← hword]
    show (if d = d then word else 0).toNat * _ / _ = _
    rw [if_pos rfl]
  cases members with
  | nil => cases ha
  | cons b members =>
    show (b :: members)[((only d word d).below _).1]? = some a
    rw [hbelow]
    exact hj

end Dice

end CodeGraph
