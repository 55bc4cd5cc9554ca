/-
# Syntax trees

A tree is a node with a forest of children, in which nodes and tokens come in document order. The
forest is a type of its own, so that every walk over a tree is one recursion over forests.
-/
import CodeGraph.Tree.Kind

namespace CodeGraph

/-! ## Trees and forests -/

/-- A sequence of tokens and nodes. -/
inductive Forest
  | nil
  | token (text : String) (role : Role) (rest : Forest)
  | node (kind : Kind) (name signature : Option String) (children rest : Forest)
  deriving DecidableEq, Repr, Inhabited

/-- A syntax node: its kind, the name it declares, the signature it declares or calls, and what it
contains. -/
structure Tree where
  kind : Kind
  name : Option String := none
  signature : Option String := none
  children : Forest := .nil
  deriving DecidableEq, Repr, Inhabited

/-- One member of a forest. -/
inductive Item
  | token (text : String) (role : Role)
  | node (tree : Tree)
  deriving DecidableEq, Repr, Inhabited

namespace Forest

/-! ## Forests as lists -/

/-- Puts an item in front. -/
def cons : Item → Forest → Forest
  | .token text role, rest => .token text role rest
  | .node tree, rest => .node tree.kind tree.name tree.signature tree.children rest

/-- The forest of the given items. -/
def ofList (items : List Item) : Forest := items.foldr cons nil

/-- The items of a forest. -/
def toList : Forest → List Item
  | nil => []
  | token text role rest => .token text role :: rest.toList
  | node kind name signature children rest =>
    .node { kind, name, signature, children } :: rest.toList

/-- The first item comes first. -/
@[simp] theorem toList_cons (item : Item) (forest : Forest) :
    (cons item forest).toList = item :: forest.toList := by
  cases item <;> rfl

/-- A forest made of items consists of them. -/
@[simp] theorem toList_ofList (items : List Item) : (ofList items).toList = items := by
  induction items with
  | nil => rfl
  | cons item items ih => simp only [ofList, List.foldr_cons, toList_cons] at *; rw [ih]

/-- A forest is made of its items. -/
@[simp] theorem ofList_toList (forest : Forest) : ofList forest.toList = forest := by
  induction forest with
  | nil => rfl
  | token text role rest ih => simp only [ofList, toList, List.foldr_cons, cons] at *; rw [ih]
  | node kind name signature children rest _ ih =>
    simp only [ofList, toList, List.foldr_cons, cons] at *; rw [ih]

/-- The nodes of a forest, without what they contain. -/
def trees (forest : Forest) : List Tree :=
  forest.toList.filterMap fun
    | .node tree => some tree
    | .token _ _ => none

/-- How many nodes there are, at any depth. -/
def nodeCount : Forest → Nat
  | nil => 0
  | token _ _ rest => rest.nodeCount
  | node _ _ _ children rest => 1 + children.nodeCount + rest.nodeCount

end Forest

namespace Tree

/-! ## Making trees -/

/-- The same node with one more item at its end. -/
def push (tree : Tree) (item : Item) : Tree :=
  { tree with children := .ofList (tree.children.toList ++ [item]) }

/-- A tree by itself, as a forest. -/
def toForest (tree : Tree) : Forest :=
  .node tree.kind tree.name tree.signature tree.children .nil

end Tree

end CodeGraph
