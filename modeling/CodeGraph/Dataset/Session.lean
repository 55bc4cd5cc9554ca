/-
# Writing sessions

A session is a run of the operations of a data set: records and pairs are written and the sink is
flushed, one after another and with the same dice. A step that fails does not end the session.
-/
import CodeGraph.Dataset.Writer

namespace CodeGraph

namespace DatasetWriter

/-- Flushes the sink. It holds nothing back, so there is nothing to do. -/
def flush (writer : DatasetWriter) : DatasetWriter × Except Fault Unit := (writer, .ok ())

/-- One step of a session. -/
inductive Step
  | record (record : TrainingRecord)
  | pair (pair : RecordPair)
  | flush
  deriving DecidableEq, Repr

/-- What a step reports: what came of it, and how many lines have been written and how many words
drawn up to its end. -/
structure Report where
  /-- Of a pair, whether its mutant has been written. -/
  result : Except Fault (Option Bool)
  written : Nat
  drawn : Nat

/-- Takes a step. -/
def step (writer : DatasetWriter) (dice : Dice) :
    Step → DatasetWriter × Dice × Except Fault (Option Bool)
  | .record record =>
    let (writer, result) := writer.writeRecord record
    (writer, dice, result.map fun _ => none)
  | .pair pair =>
    let (writer, dice, result) := writer.writePair pair dice
    (writer, dice, result.map some)
  | .flush =>
    let (writer, result) := writer.flush
    (writer, dice, result.map fun _ => none)

/-- Takes steps one after another, and goes on when one fails. -/
def run (writer : DatasetWriter) (dice : Dice) :
    List Step → DatasetWriter × Dice × List Report
  | [] => (writer, dice, [])
  | step :: steps =>
    let (writer, dice, result) := writer.step dice step
    let report : Report := { result, written := writer.written, drawn := dice.drawn }
    let (writer, dice, reports) := writer.run dice steps
    (writer, dice, report :: reports)

end DatasetWriter

end CodeGraph
