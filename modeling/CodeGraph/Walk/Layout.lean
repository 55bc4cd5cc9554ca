/-
# Numbers and layouts

Everything a walk visits gets a number that is new in the whole sequence of walks. The numbers are
counted up, and there is an end to them. A walk numbers the nodes of a method in the order of the
walk, then its tokens, its symbols and the words of the class. The numbers of a method follow one
another without a gap, so a layout is known by the first of them.
-/
import CodeGraph.Graph.Basic

namespace CodeGraph

/-! ## Sequences of numbers -/

/-- The numbers below this one can be given out. -/
def idLimit : Nat := UInt32.size - 1

/-- The numbers not yet given out. -/
structure IdSequence where
  next : Nat
  next_le : next ≤ idLimit
  deriving DecidableEq

namespace IdSequence

/-- The sequence that starts with the given number. -/
def startingAt (first : Nat) : IdSequence := ⟨min first idLimit, Nat.min_le_right _ _⟩

/-- The sequence of all numbers. -/
def fresh : IdSequence := startingAt 0

/-- Gives out so many numbers at once, the first of them and those that follow it. -/
def reserve? (ids : IdSequence) (count : Nat) : Option (Nat × IdSequence) :=
  if h : ids.next + count ≤ idLimit then some (ids.next, ⟨ids.next + count, h⟩) else none

/-- Gives out a number. -/
def take? (ids : IdSequence) : Option (Nat × IdSequence) := ids.reserve? 1

end IdSequence

/-! ## The numbers of a method -/

/-- The numbers of the things in a method. -/
structure Layout where
  /-- The number of the root. -/
  first : Nat
  /-- The nodes in the order of the walk. -/
  order : List Nat
  /-- The position of every node in that order. -/
  positions : Array Nat
  tokenCount : Nat
  symbolCount : Nat
  wordCount : Nat
  deriving DecidableEq, Repr

namespace Layout

/-- The position of every node in the given order. -/
def positionsIn (order : List Nat) (size : Nat) : Array Nat :=
  order.zipIdx.foldl (fun positions (node, k) => positions.setIfInBounds node k)
    (Array.replicate size 0)

/-- The layout of a method in a class with so many words, from the given number on. -/
def ofMethod (method : MethodGraph) (wordCount first : Nat) : Layout :=
  let order := method.preorder
  { first, order, positions := positionsIn order method.nodes.size
    tokenCount := method.tokens.size, symbolCount := method.symbols.size, wordCount }

/-- How many numbers a method takes. -/
def sizeOf (method : MethodGraph) (wordCount : Nat) : Nat :=
  method.preorder.length + method.tokens.size + method.symbols.size + wordCount

/-- The number of a node. -/
def nodeId (layout : Layout) (node : Nat) : Nat :=
  layout.first + (layout.positions[node]?).getD 0

/-- The number of a token. -/
def tokenId (layout : Layout) (token : Nat) : Nat :=
  layout.first + layout.order.length + token

/-- The number of a symbol. -/
def symbolId (layout : Layout) (symbol : Nat) : Nat :=
  layout.first + layout.order.length + layout.tokenCount + symbol

/-- The number of a word. -/
def wordId (layout : Layout) (word : Nat) : Nat :=
  layout.first + layout.order.length + layout.tokenCount + layout.symbolCount + word

/-- The layouts of the methods of a class, one after another; `none` if the numbers run out. -/
def ofMethods? (wordCount : Nat) : List MethodGraph → IdSequence → Option (List Layout × IdSequence)
  | [], ids => some ([], ids)
  | method :: methods, ids => do
    let (first, ids) ← ids.reserve? (sizeOf method wordCount)
    let (layouts, ids) ← ofMethods? wordCount methods ids
    return (ofMethod method wordCount first :: layouts, ids)

end Layout

end CodeGraph
