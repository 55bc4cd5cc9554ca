/-
# Random words and uniform numbers

Dice draw words of 32 bits from an endless stream, one after another. A number below a bound is the
upper half of the product of a word and the bound; when the lower half is so large that it could
carry, one more word decides.
-/

namespace CodeGraph

/-- A stream of random words and how many of them have been drawn. -/
structure Dice where
  stream : Nat → UInt32
  drawn : Nat := 0

namespace Dice

/-- Dice that repeat a list of words for ever. -/
def cycling (words : List UInt32) : Dice :=
  let words := words.toArray
  { stream := fun n => words.getD (n % words.size) 0 }

/-- Draws a word. -/
def draw (dice : Dice) : UInt32 × Dice :=
  (dice.stream dice.drawn, { dice with drawn := dice.drawn + 1 })

/-- Draws so many words. -/
def drawMany (dice : Dice) : Nat → List UInt32 × Dice
  | 0 => ([], dice)
  | n + 1 =>
    let (word, dice) := dice.draw
    let (words, dice) := dice.drawMany n
    (word :: words, dice)

/-- Draws a number below `bound`, each with the same chance. -/
def below (dice : Dice) (bound : Nat) : Nat × Dice :=
  let (word, dice) := dice.draw
  let product := word.toNat * bound
  let high := product / UInt32.size
  let low := product % UInt32.size
  if UInt32.size - bound < low then
    let (more, dice) := dice.draw
    let carry := (low + more.toNat * bound / UInt32.size) / UInt32.size
    (high + carry, dice)
  else (high, dice)

/-- Picks a member of a list, each with the same chance. An empty list draws nothing. -/
def pick? {α : Type} (dice : Dice) (members : List α) : Option α × Dice :=
  match members with
  | [] => (none, dice)
  | _ =>
    let (i, dice) := dice.below members.length
    (members[i]?, dice)

end Dice

end CodeGraph
