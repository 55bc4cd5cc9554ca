/-
# Off-by-one bugs

A bug is put into a record by changing one comparison into the one that differs at equality. One of
the comparisons in the record is picked by dice; everything else stays as it is.
-/
import CodeGraph.Log
import CodeGraph.Random.Dice
import CodeGraph.Record.Basic

namespace CodeGraph

/-! ## Comparisons -/

/-- The operators that bugs are made of. -/
def relationalOperators : List String := ["<", "<=", ">", ">="]

/-- The operator that differs from a comparison just when both sides are equal. -/
def offByOne? (operator : String) : Option String :=
  match operator with
  | "<" => some "<="
  | "<=" => some "<"
  | ">" => some ">="
  | ">=" => some ">"
  | _ => none

/-! ## Mutants -/

namespace TrainingRecord

/-- The positions of the comparisons in a record. -/
def candidates (record : TrainingRecord) : List Nat :=
  record.sourceTokens.zipIdx.filterMap fun (label, i) =>
    if (offByOne? label).isSome then some i else none

/-- The record with the comparison at a position changed. -/
def mutateAt? (record : TrainingRecord) (position : Nat) : Option TrainingRecord := do
  let replacement ← offByOne? (← record.sourceTokens[position]?)
  let mutant := { record with sourceTokens := record.sourceTokens.set position replacement }
  return mutant.markBug .offByOne position

/-- The record with one comparison changed, if it has any. -/
def mutate (record : TrainingRecord) (dice : Dice) : Option TrainingRecord × Dice :=
  let (position?, dice) := dice.pick? record.candidates
  (position?.bind record.mutateAt?, dice)

end TrainingRecord

/-! ## Pairs -/

/-- A record and a mutant of it. -/
structure RecordPair where
  correct : TrainingRecord
  buggy : TrainingRecord
  deriving DecidableEq, Repr

/-- How pairs are made. -/
structure Mutator where
  /-- Records without edges get no mutant. -/
  skipEmptyRecords : Bool := true
  deriving DecidableEq, Repr

namespace Mutator

/-- A record with a mutant of it, if it is to get one. -/
def pair (mutator : Mutator) (record : TrainingRecord) (dice : Dice) :
    Option RecordPair × Dice :=
  if mutator.skipEmptyRecords && record.edges.isEmpty then (none, dice)
  else
    let (buggy?, dice) := record.mutate dice
    (buggy?.map fun buggy => { correct := record, buggy }, dice)

/-- The pairs of a list of records, made one after another with the same dice. -/
def pairs (mutator : Mutator) : List TrainingRecord → Dice → List RecordPair × Dice
  | [], dice => ([], dice)
  | record :: records, dice =>
    let (pair?, dice) := mutator.pair record dice
    let (later, dice) := mutator.pairs records dice
    (pair?.toList ++ later, dice)

end Mutator

/-- What the log says when a mutant is made. -/
def RecordPair.line (pair : RecordPair) : LogLine :=
  let position := pair.buggy.errorLocation
  .trace .mutation ("mutating " ++ pair.correct.sourceTokens.getD position "" ++ " -> " ++
    pair.buggy.sourceTokens.getD position "" ++ " at " ++ toString position)

/-! ## Sampling -/

/-- How many of the mutants are kept: so many in a hundred, or all of them. -/
structure Sampler where
  buggyPerHundred : Nat := 10
  /-- All mutants are kept. -/
  balanced : Bool := false
  deriving DecidableEq, Repr

namespace Sampler

/-- Keeps every mutant. -/
def keepAll : Sampler := { buggyPerHundred := 100, balanced := true }

/-- Decides whether to keep a mutant. There is nothing to draw when all are kept. -/
def keepBuggy (sampler : Sampler) (dice : Dice) : Bool × Dice :=
  if sampler.balanced then (true, dice)
  else
    let (n, dice) := dice.below 100
    (n < sampler.buggyPerHundred, dice)

end Sampler

end CodeGraph
