/-
# Addresses in a tree

A node is found by the way from the root down to it, as the list of the places of its ancestors among
their siblings.  The lexicographic order of addresses is document order, in which a node comes before
what it contains; branches that part stay apart (`List.append_lt_append_of_lt`).
-/
import Mathlib
import CodeGraph.Tree.Basic

namespace CodeGraph

/-! ## Nodes by address -/

/-- The node at a place among the items of a forest. -/
def Forest.child? (forest : Forest) (k : Nat) : Option Tree :=
  match forest.toList[k]? with
  | some (.node tree) => some tree
  | _ => none

namespace Forest

/-- A node of a forest has fewer nodes below it than there are in the forest. -/
theorem nodeCount_child? {forest : Forest} {k : Nat} {tree : Tree}
    (h : forest.child? k = some tree) : tree.children.nodeCount < forest.nodeCount := by
  induction forest generalizing k with
  | nil => cases h
  | token text role rest ih =>
    cases k with
    | zero => cases h
    | succ k => exact ih h
  | node kind name signature children rest _ ih =>
    rw [nodeCount]
    cases k with
    | zero =>
      cases h
      show children.nodeCount < _
      omega
    | succ k =>
      have hrest := ih h
      omega

end Forest

namespace Tree

/-- The node at an address. The root is at the empty address. -/
def at? (tree : Tree) : List Nat → Option Tree
  | [] => some tree
  | k :: address => (tree.children.child? k).bind (·.at? address)

theorem at?_nil (tree : Tree) : tree.at? [] = some tree := rfl

theorem at?_cons (tree : Tree) (k : Nat) (address : List Nat) :
    tree.at? (k :: address) = (tree.children.child? k).bind (·.at? address) := rfl

/-- The way to a node goes through its ancestors. -/
theorem at?_append (tree : Tree) (address below : List Nat) :
    tree.at? (address ++ below) = (tree.at? address).bind (·.at? below) := by
  induction address generalizing tree with
  | nil => rfl
  | cons k address ih =>
    rw [List.cons_append, at?_cons, at?_cons]
    rcases tree.children.child? k with _ | child
    · rfl
    · exact ih child

/-- A way is not longer than there are nodes. -/
theorem length_le_nodeCount {tree node : Tree} {address : List Nat}
    (h : tree.at? address = some node) : address.length ≤ tree.children.nodeCount := by
  induction address generalizing tree with
  | nil => exact Nat.zero_le _
  | cons k address ih =>
    obtain ⟨child, hchild, h⟩ := Option.bind_eq_some_iff.mp h
    have hlength := ih h
    have hcount := Forest.nodeCount_child? hchild
    rw [List.length_cons]
    omega

/-- The kind of the node at an address. -/
def kindAt? (tree : Tree) (address : List Nat) : Option Kind := (tree.at? address).map Tree.kind

end Tree

/-- A node on the way is on the way to the first part, or behind it. -/
theorem prefix_append_cases {address below e : List Nat} (h : e <+: address ++ below) :
    e <+: address ∨ ∃ e', e = address ++ e' ∧ e' <+: below := by
  rcases List.prefix_or_prefix_of_prefix h (List.prefix_append address below) with he | ⟨e', rfl⟩
  · exact Or.inl he
  · exact Or.inr ⟨e', rfl, (List.prefix_append_right_inj address).mp h⟩

/-! ## Document order -/

/-- A node comes before what it contains. -/
theorem lt_append_of_ne_nil (address : List Nat) {below : List Nat} (h : below ≠ []) :
    address < address ++ below := by
  induction address with
  | nil =>
    cases below with
    | nil => exact absurd rfl h
    | cons k below => exact List.nil_lt_cons k below
  | cons k address ih =>
    rw [List.cons_append, List.cons_lt_cons_iff]
    exact Or.inr ⟨rfl, ih⟩

/-- The order below one node is that of the ways from there. -/
theorem append_lt_append_left_iff (address : List Nat) {below other : List Nat} :
    address ++ below < address ++ other ↔ below < other := by
  induction address with
  | nil => exact Iff.rfl
  | cons k address ih =>
    rw [List.cons_append, List.cons_append, List.cons_lt_cons_iff, ih]
    exact ⟨fun h => (h.resolve_left (Nat.lt_irrefl k)).2, fun h => Or.inr ⟨rfl, h⟩⟩

/-- What two nodes contain is in the order of the nodes, if neither contains the other. -/
theorem append_lt_append_of_lt {address other : List Nat} (h : address < other)
    (hapart : ¬ address <+: other) (below beyond : List Nat) :
    address ++ below < other ++ beyond := by
  induction address generalizing other with
  | nil => exact absurd List.nil_prefix hapart
  | cons k address ih =>
    cases other with
    | nil => exact absurd h (List.not_lt_nil _)
    | cons j other =>
      rw [List.cons_append, List.cons_append, List.cons_lt_cons_iff]
      rcases List.cons_lt_cons_iff.mp h with hlt | ⟨rfl, hlt⟩
      · exact Or.inl hlt
      · exact Or.inr ⟨rfl, ih hlt fun hway => hapart (List.cons_prefix_cons.mpr ⟨rfl, hway⟩)⟩

end CodeGraph
