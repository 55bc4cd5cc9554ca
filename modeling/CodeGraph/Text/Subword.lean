/-
# Sub-words of identifiers

`subwords` cuts a text at underscores and before every capital that follows a character other than a
capital, and lower-cases the pieces. A run of capitals stays whole, so `HTTPServer` is the one
sub-word `httpserver`. A text of one character is its own only sub-word, unchanged.
-/
import CodeGraph.Text.Case

namespace CodeGraph.Text

/-! ## Cutting -/

/-- The state of a cut in progress. Both lists have their latest member first. -/
structure Cut where
  /-- The finished fragments. -/
  fragments : List (List Char) := []
  /-- The characters of the fragment at hand. -/
  current : List Char := []
  /-- The fragment at hand ends in a capital. -/
  afterUpper : Bool := false

namespace Cut

/-- Ends the fragment at hand; an empty one leaves no trace. -/
def flush (cut : Cut) : Cut :=
  match cut.current with
  | [] => cut
  | current => { cut with fragments := current.reverse :: cut.fragments, current := [] }

/-- Takes one more character. -/
def step (cut : Cut) (c : Char) : Cut :=
  if c = '_' then { cut.flush with afterUpper := false }
  else
    let upper := isUpper c
    let cut := if upper && !cut.afterUpper then cut.flush else cut
    { cut with current := c :: cut.current, afterUpper := upper }

end Cut

/-- The fragments of a text, in order and in the case they are written in. -/
def fragments (cs : List Char) : List (List Char) :=
  (cs.foldl Cut.step {}).flush.fragments.reverse

/-! ## Sub-words -/

/-- The sub-words of a text of any length. -/
def subwords (text : String) : List String :=
  match text.toList with
  | [] => []
  | [_] => [text]
  | cs => (fragments cs).map fun fragment => String.ofList (lower fragment)

end CodeGraph.Text
