/-
# Training records

A training record is the graph of one method in the form in which models are trained: labels, edges
between their positions, and what is known of a bug. A record without a bug offers position zero as
the only candidate for a repair.
-/
import CodeGraph.Graph.Edge
import CodeGraph.Json.Write

namespace CodeGraph

/-! ## Edges -/

/-- An edge between two positions, with the code and the name of its kind. -/
structure RecordEdge where
  source : Nat
  target : Nat
  code : Nat
  name : String
  deriving DecidableEq, Repr

namespace RecordEdge

/-- An edge of the given kind. -/
def ofKind (source target : Nat) (kind : EdgeKind) : RecordEdge :=
  { source, target, code := kind.code, name := kind.name }

/-- The kind that the code of an edge stands for. -/
def kind? (edge : RecordEdge) : Option EdgeKind := EdgeKind.ofCode? edge.code

end RecordEdge

/-! ## Bugs -/

/-- The kinds of bugs that records can have. -/
inductive BugKind
  | none
  | offByOne
  deriving DecidableEq, Repr

namespace BugKind

/-- All kinds of bugs. -/
def all : List BugKind := [.none, .offByOne]

/-- The code of a kind. -/
def code : BugKind → Nat
  | none => 0
  | offByOne => 1

/-- The name of a kind. -/
def name : BugKind → String
  | none => "NONE"
  | offByOne => "OFF_BY_ONE"

end BugKind

/-! ## Records -/

/-- A training record. -/
structure TrainingRecord where
  /-- The labels of the nodes, tokens, symbols and words. -/
  sourceTokens : List String
  edges : List RecordEdge
  hasBug : Bool
  bugKind : Nat
  bugKindName : String
  errorLocation : Nat
  repairTargets : List Nat
  repairCandidates : List Nat
  deriving DecidableEq, Repr

namespace TrainingRecord

/-- A record without a bug. -/
def correct (sourceTokens : List String) (edges : List RecordEdge) : TrainingRecord :=
  { sourceTokens, edges, hasBug := false, bugKind := BugKind.none.code
    bugKindName := BugKind.none.name, errorLocation := 0, repairTargets := []
    repairCandidates := [0] }

/-- The record with a bug of the given kind at a position. -/
def markBug (record : TrainingRecord) (kind : BugKind) (location : Nat) : TrainingRecord :=
  { record with
    hasBug := kind != .none
    bugKind := kind.code
    bugKindName := kind.name
    errorLocation := location
    repairTargets := if kind = .none then [] else [location] }

end TrainingRecord

end CodeGraph
