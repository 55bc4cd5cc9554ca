/-
# The nodes and tokens of a tree in document order

A tree read off row by row: every node with its kind, the signature it has and the number of its
parent, and every token with the number of the node that directly contains it.  Nodes are numbered
in document order.
-/
import Mathlib
import CodeGraph.Tree.Basic

namespace CodeGraph

/-- A node of a tree in document order. -/
structure Row where
  kind : Kind
  callee : Option String
  parent : Option Nat
  deriving DecidableEq

/-- A token of a tree in document order. -/
structure Leaf where
  text : String
  role : Role
  /-- The node that directly contains the token. -/
  owner : Nat
  deriving DecidableEq

namespace Forest

/-- The forest without the methods and types in it, and without all that these contain. -/
def prune : Forest → Forest
  | nil => nil
  | token text role rest => .token text role rest.prune
  | node kind name signature children rest =>
    if kind = .methodDeclaration ∨ kind.isTypeDeclaration = true then rest.prune
    else .node kind name signature children.prune rest.prune

/-- The nodes of a forest below a parent, numbered from `first` on. -/
def rows (parent first : Nat) : Forest → List Row
  | nil => []
  | token _ _ rest => rest.rows parent first
  | node kind _ signature children rest =>
    ⟨kind, signature, some parent⟩ ::
      (children.rows first (first + 1) ++ rest.rows parent (first + 1 + children.nodeCount))

/-- The tokens of a forest in an owner, where the nodes are numbered from `first` on. -/
def leaves (owner first : Nat) : Forest → List Leaf
  | nil => []
  | token text role rest => ⟨text, role, owner⟩ :: rest.leaves owner first
  | node _ _ _ children rest =>
    children.leaves first (first + 1) ++ rest.leaves owner (first + 1 + children.nodeCount)

/-- There is a row for each node. -/
theorem length_rows (forest : Forest) (parent first : Nat) :
    (forest.rows parent first).length = forest.nodeCount := by
  induction forest generalizing parent first with
  | nil => rfl
  | token text role rest ih => exact ih parent first
  | node kind name signature children rest ihChildren ihRest =>
    rw [rows, List.length_cons, List.length_append, ihChildren, ihRest, nodeCount]
    omega

end Forest

namespace Tree

/-- The tree without the methods and types below its root. -/
def prune (tree : Tree) : Tree := { tree with children := tree.children.prune }

/-- The nodes of a tree in document order. The root has no parent, and calls nothing. -/
def rows (tree : Tree) : List Row := ⟨tree.kind, none, none⟩ :: tree.children.rows 0 1

/-- The tokens of a tree in document order. -/
def leaves (tree : Tree) : List Leaf := tree.children.leaves 0 1

end Tree

end CodeGraph
