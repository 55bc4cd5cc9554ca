/-
# Data sets

A data set is a text with a record on every line. A correct record is always written, its mutant
only if the sampler keeps it.
-/
import CodeGraph.Dataset.Mutation
import CodeGraph.Dataset.Sink
import CodeGraph.Record.Format
import CodeGraph.Record.OfEvents

namespace CodeGraph

/-! ## Pairs of a class -/

namespace ClassGraph

/-- What the log says when the pairs of a class have been made. -/
def pairLines (graph : ClassGraph) (records : List TrainingRecord) (pairs : List RecordPair) :
    List LogLine :=
  pairs.map RecordPair.line ++
    [.debug .dataset ("class " ++ graph.name ++ ": " ++
      toString records.length ++ " record(s), " ++ toString pairs.length ++ " pair(s)")]

/-- The pairs of the methods of a class, what the log says of them, and the dice afterwards; `none`
if the class cannot be walked. -/
def recordPairs? (graph : ClassGraph) (mutator : Mutator) (dice : Dice) :
    Option (List RecordPair × List LogLine × Dice) := do
  let records ← graph.records?
  let (pairs, dice) := mutator.pairs records dice
  return (pairs, graph.walkLines .fresh ++ graph.pairLines records pairs, dice)

end ClassGraph

/-! ## Writing records -/

/-- A data set that is being written. -/
structure DatasetWriter where
  sink : Sink := {}
  sampler : Sampler := {}
  /-- How many lines have been written whole. -/
  written : Nat := 0
  deriving DecidableEq, Repr

namespace DatasetWriter

/-- Writes a record and ends the line. -/
def writeRecord (writer : DatasetWriter) (record : TrainingRecord) :
    DatasetWriter × Except Fault Unit :=
  let (sink, whole) := writer.sink.putText record.toJson
  if !whole then ({ writer with sink }, .error (.json .sinkFull))
  else
    let (sink, whole) := sink.putText ['\n']
    if !whole then ({ writer with sink }, .error (.io .sinkFull))
    else ({ writer with sink, written := writer.written + 1 }, .ok ())

/-- Writes a correct record and, if the sampler keeps it, its mutant. Tells whether it did. -/
def writePair (writer : DatasetWriter) (pair : RecordPair) (dice : Dice) :
    DatasetWriter × Dice × Except Fault Bool :=
  match writer.writeRecord pair.correct with
  | (writer, .error fault) => (writer, dice, .error fault)
  | (writer, .ok ()) =>
    match writer.sampler.keepBuggy dice with
    | (false, dice) => (writer, dice, .ok false)
    | (true, dice) =>
      match writer.writeRecord pair.buggy with
      | (writer, .error fault) => (writer, dice, .error fault)
      | (writer, .ok ()) => (writer, dice, .ok true)

/-- Writes pairs one after another, and goes on when one fails. -/
def writePairs (writer : DatasetWriter) (dice : Dice) :
    List RecordPair → DatasetWriter × Dice × List (Except Fault Bool)
  | [] => (writer, dice, [])
  | pair :: pairs =>
    let (writer, dice, result) := writer.writePair pair dice
    let (writer, dice, results) := writer.writePairs dice pairs
    (writer, dice, result :: results)

/-- Writes records one after another, and goes on when one fails. -/
def writeRecords (writer : DatasetWriter) (records : List TrainingRecord) : DatasetWriter :=
  records.foldl (fun writer record => (writer.writeRecord record).1) writer

end DatasetWriter

end CodeGraph
