/-
# Upper and lower case

`isUpper` is the Unicode property Uppercase, `lowerChars` the full lower-case form of one character,
and `lower` the lower-case form of a whole text. Only the capital sigma looks at its neighbours: at
the end of a word it becomes the final small sigma.
-/
import CodeGraph.Text.CaseTable

namespace CodeGraph.Text

/-! ## Character properties -/

/-- The code point lies on one of the runs `(first, last, stride)`. -/
def onRuns (runs : List (Nat × Nat × Nat)) (c : Char) : Bool :=
  runs.any fun (first, last, stride) =>
    first ≤ c.toNat && c.toNat ≤ last && (c.toNat - first) % stride == 0

/-- An upper-case character. Title-case letters do not count. -/
def isUpper (c : Char) : Bool :=
  if c.toNat < 128 then c.isUpper else onRuns upperRuns c

/-- A character that has case: upper, lower or title. -/
def isCased (c : Char) : Bool := onRuns casedRuns c

/-- A character that case rules look through, such as an apostrophe or an accent. -/
def isIgnorable (c : Char) : Bool := onRuns ignorableRuns c

/-! ## Lower case -/

/-- The lower-case form of a character by itself. The dotted capital I becomes two characters. -/
def lowerChars (c : Char) : List Char :=
  if c.toNat < 128 then [c.toLower]
  else if c = 'İ' then ['i', '\u0307']
  else
    match lowerRuns.find? fun (first, last, stride, _) =>
        first ≤ c.toNat && c.toNat ≤ last && (c.toNat - first) % stride == 0 with
    | some (_, _, _, distance) => [Char.ofNat (c.toNat + distance).toNat]
    | none => [c]

/-- The nearest character that case rules do not look through is cased. -/
def casedNext (cs : List Char) : Bool :=
  match cs.dropWhile isIgnorable with
  | [] => false
  | c :: _ => isCased c

/-- The small sigma between `before`, read backwards, and `after`: final at the end of a word. -/
def lowerSigma (before after : List Char) : Char :=
  if casedNext before && !casedNext after then 'ς' else 'σ'

/-- Lower-cases the text ahead; `before` is the text already passed and `done` its lower-case form,
both with the latest character first. -/
def lowerOnto (before done : List Char) : List Char → List Char
  | [] => done.reverse
  | c :: rest =>
    let small := if c = 'Σ' then [lowerSigma before rest] else lowerChars c
    lowerOnto (c :: before) (small.reverse ++ done) rest

/-- The lower-case form of a text. -/
def lower (cs : List Char) : List Char := lowerOnto [] [] cs

end CodeGraph.Text
