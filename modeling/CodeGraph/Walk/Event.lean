/-
# Walk events

A walk over the graph of a class is a list of events: the class and its methods begin and end, the
things in a method are met one by one, and then its edges. A thing is known by its number and its
label.
-/
import CodeGraph.Graph.Edge

namespace CodeGraph

/-- The sorts of things in a method. -/
inductive Entity
  | node
  | token
  | symbol
  | word
  deriving DecidableEq, Repr

/-- A thing that is visited: its number and its label. -/
structure Visit where
  id : Nat
  label : String
  deriving DecidableEq, Repr

/-- The relations between the things of a method. -/
inductive Relation
  | nextToken
  | childToken
  | child
  | occurrenceOf
  | subtokenOf
  | nextLexicalUse
  | assignedFrom
  | returnsTo
  deriving DecidableEq, Repr

namespace Relation

/-- The kind of the edges that show a relation. -/
def kind : Relation → EdgeKind
  | nextToken => .nextToken
  | childToken => .child
  | child => .child
  | occurrenceOf => .occurrenceOf
  | subtokenOf => .subtokenOf
  | nextLexicalUse => .nextLexicalUse
  | assignedFrom => .assignedFrom
  | returnsTo => .returnsTo

/-- What a relation starts from. -/
def source : Relation → Entity
  | nextToken => .token
  | childToken => .node
  | child => .node
  | occurrenceOf => .token
  | subtokenOf => .word
  | nextLexicalUse => .token
  | assignedFrom => .token
  | returnsTo => .node

/-- What a relation leads to. -/
def target : Relation → Entity
  | nextToken => .token
  | childToken => .token
  | child => .node
  | occurrenceOf => .symbol
  | subtokenOf => .token
  | nextLexicalUse => .token
  | assignedFrom => .node
  | returnsTo => .token

end Relation

/-- One event of a walk. -/
inductive Event
  | classStart (name : String)
  | classEnd (name : String)
  | methodStart (signature : String) (root : Visit)
  | methodEnd (signature : String) (root : Visit)
  | entity (sort : Entity) (visit : Visit)
  | edge (relation : Relation) (source target : Visit)
  deriving DecidableEq, Repr

end CodeGraph
