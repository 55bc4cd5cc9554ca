/-
# Kinds of edges

The seven kinds of edges of a program graph. Their codes and names are written into every training
record and never change.
-/
import CodeGraph.Json.Shape

namespace CodeGraph

/-- The kind of an edge. -/
inductive EdgeKind
  /-- From a token to the next one. -/
  | nextToken
  /-- From a node to a node or token it contains. -/
  | child
  /-- From a token to the symbol it stands for. -/
  | occurrenceOf
  /-- From a word to a token made of it. -/
  | subtokenOf
  /-- From a token to the next one with the same text. -/
  | nextLexicalUse
  /-- From a name to the node of the value it is given. -/
  | assignedFrom
  /-- From a call site to a return of the method called. -/
  | returnsTo
  deriving DecidableEq, Repr

namespace EdgeKind

/-- All kinds of edges, in the order of their codes. -/
def all : List EdgeKind :=
  [.nextToken, .child, .occurrenceOf, .subtokenOf, .nextLexicalUse, .assignedFrom, .returnsTo]

/-- The code of a kind. -/
def code : EdgeKind → Nat
  | nextToken => 0
  | child => 1
  | occurrenceOf => 2
  | subtokenOf => 3
  | nextLexicalUse => 4
  | assignedFrom => 5
  | returnsTo => 6

/-- The name of a kind in records. -/
def name : EdgeKind → String
  | nextToken => "NEXT_TOKEN"
  | child => "CHILD"
  | occurrenceOf => "OCCURRENCE_OF"
  | subtokenOf => "SUBTOKEN_OF"
  | nextLexicalUse => "NEXT_LEXICAL_USE"
  | assignedFrom => "ASSIGNED_FROM"
  | returnsTo => "RETURNS_TO"

/-- The name of a kind in JSON texts of its own. -/
def tag : EdgeKind → String
  | nextToken => "NextToken"
  | child => "Child"
  | occurrenceOf => "OccurrenceOf"
  | subtokenOf => "SubtokenOf"
  | nextLexicalUse => "NextLexicalUse"
  | assignedFrom => "AssignedFrom"
  | returnsTo => "ReturnsTo"

/-- The kind with that code. -/
def ofCode? (code : Nat) : Option EdgeKind := all[code]?

/-- Codes find their kinds. -/
theorem ofCode?_code (kind : EdgeKind) : ofCode? kind.code = some kind := by
  cases kind <;> rfl

/-- Reads a kind of edge by its tag. -/
def read : Json.Reader EdgeKind :=
  Json.readChoice (all.map fun kind => Json.Alternative.named kind.tag kind)

end EdgeKind

end CodeGraph
