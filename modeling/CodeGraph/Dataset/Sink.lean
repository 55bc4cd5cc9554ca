/-
# Sinks

A sink takes bytes until it is full. Of a write that does not fit, it keeps the front.
-/
import CodeGraph.Fault
import CodeGraph.Text.Encoding

namespace CodeGraph

/-- The bytes taken so far, and how many there can be. -/
structure Sink where
  capacity? : Option Nat := none
  bytes : Array UInt8 := #[]
  deriving DecidableEq, Repr

namespace Sink

/-- How many more bytes are taken; `none` if there is no end to it. -/
def room? (sink : Sink) : Option Nat := sink.capacity?.map (· - sink.bytes.size)

/-- Writes bytes; the second part says whether all of them were taken. -/
def put (sink : Sink) (bytes : List UInt8) : Sink × Bool :=
  match sink.room? with
  | none => ({ sink with bytes := sink.bytes ++ bytes.toArray }, true)
  | some room =>
    ({ sink with bytes := sink.bytes ++ (bytes.take room).toArray }, bytes.length ≤ room)

/-- Writes a text. -/
def putText (sink : Sink) (cs : List Char) : Sink × Bool := sink.put (Text.utf8 cs)

/-- Writes pieces one after another, and stops at the first that is not taken whole. -/
def putAll (sink : Sink) : List (List UInt8) → Sink × Bool
  | [] => (sink, true)
  | piece :: pieces =>
    match sink.put piece with
    | (sink, true) => sink.putAll pieces
    | (sink, false) => (sink, false)

end Sink

end CodeGraph
