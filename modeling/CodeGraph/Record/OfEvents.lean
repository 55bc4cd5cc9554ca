/-
# Records of a walk

A record collects the labels that a walk meets in a method, and the edges between them. The position
of a label is the distance of its number from that of the root, so labels have to come in step with
their numbers; edges that lead out of the method are left out.
-/
import CodeGraph.Record.Basic
import CodeGraph.Walk.Basic

namespace CodeGraph

/-! ## A record in the making -/

/-- The labels and edges of a method so far, and the number of its root. -/
structure PendingRecord where
  base : Nat
  labels : Array String := #[]
  edges : Array RecordEdge := #[]
  deriving DecidableEq, Repr

namespace PendingRecord

/-- The position of a number, if its label has been met in this method. -/
def position? (pending : PendingRecord) (id : Nat) : Option Nat :=
  if pending.base ≤ id && id - pending.base < pending.labels.size then some (id - pending.base)
  else none

/-- Takes the next label; its number must be the next one. -/
def label? (pending : PendingRecord) (visit : Visit) : Option PendingRecord :=
  if visit.id = pending.base + pending.labels.size then
    some { pending with labels := pending.labels.push visit.label }
  else none

/-- Takes an edge if both its ends are in this method. -/
def edge (pending : PendingRecord) (kind : EdgeKind) (source target : Nat) : PendingRecord :=
  match pending.position? source, pending.position? target with
  | some source, some target =>
    { pending with edges := pending.edges.push (.ofKind source target kind) }
  | _, _ => pending

/-- The finished record. -/
def finish (pending : PendingRecord) : TrainingRecord :=
  .correct pending.labels.toList pending.edges.toList

end PendingRecord

/-! ## All records of a walk -/

/-- The records finished so far and the one in the making. -/
structure RecordCollector where
  pending? : Option PendingRecord := none
  done : Array TrainingRecord := #[]
  deriving DecidableEq, Repr

namespace RecordCollector

/-- Takes one event; `none` if a label is out of step. What is met outside of methods does not
matter. -/
def step? (collector : RecordCollector) (event : Event) : Option RecordCollector :=
  match event, collector.pending? with
  | .methodStart _ root, _ => some { collector with pending? := some { base := root.id } }
  | .methodEnd _ _, some pending =>
    some { pending? := none, done := collector.done.push pending.finish }
  | .entity _ visit, some pending =>
    (pending.label? visit).map fun pending => { collector with pending? := some pending }
  | .edge relation source target, some pending =>
    some { collector with pending? := some (pending.edge relation.kind source.id target.id) }
  | _, _ => some collector

end RecordCollector

/-- The records of the methods that begin and end in a list of events; `none` if a label is out of
step. -/
def recordsOf? (events : List Event) : Option (List TrainingRecord) :=
  (events.foldlM RecordCollector.step? {}).map (·.done.toList)

/-- The records of the methods of a class; `none` if it cannot be walked. -/
def ClassGraph.records? (graph : ClassGraph) : Option (List TrainingRecord) := do
  let (events, _) ← (graph.walk .fresh).toOption
  recordsOf? events

end CodeGraph
