/-
# What a walk enters

A walk stands at the root of a tree and goes down into the nodes of some kinds, but not into others.
`Tree.entered` lists where it comes, with addresses: the nodes below which all the way is entered
(`Tree.mem_entered`), in document order (`Tree.pairwise_entered`).
-/
import CodeGraph.Proofs.Tree.Address

namespace CodeGraph

variable (enters : Kind → Bool)

/-- The entered nodes of a forest with their addresses; the items of the forest are numbered from `k`
on. -/
def Forest.entered (k : Nat) : Forest → List (List Nat × Tree)
  | .nil => []
  | .token _ _ rest => rest.entered (k + 1)
  | .node kind name signature children rest =>
    (if enters kind then
      ([k], { kind, name, signature, children }) ::
        (children.entered 0).map fun (address, tree) => (k :: address, tree)
      else []) ++
      rest.entered (k + 1)

/-- The nodes of a tree where a walk from its root comes, with their addresses. -/
def Tree.entered (tree : Tree) : List (List Nat × Tree) :=
  ([], tree) :: tree.children.entered enters 0

/-- A node at an address, where it and all above it are entered, except that the walk begins at the
root. -/
structure Tree.Enters (tree : Tree) (address : List Nat) (node : Tree) : Prop where
  found : tree.at? address = some node
  way : ∀ e, e <+: address → e ≠ [] → ∀ s, tree.at? e = some s → enters s.kind = true

variable {enters}

namespace Tree

variable {tree node : Tree}

/-- At the empty address there is the tree itself. -/
theorem enters_nil : tree.Enters enters [] node ↔ node = tree := by
  constructor
  · intro h
    exact (Option.some.inj h.found).symm
  · rintro rfl
    exact ⟨rfl, fun e he hnil => absurd (List.prefix_nil.mp he) hnil⟩

/-- The way to a node below the root begins with a child that is entered. -/
theorem enters_cons {k : Nat} {below : List Nat} :
    tree.Enters enters (k :: below) node ↔ ∃ child, tree.children.child? k = some child ∧
      enters child.kind = true ∧ child.Enters enters below node := by
  constructor
  · intro h
    obtain ⟨child, hchild, hfound⟩ := Option.bind_eq_some_iff.mp h.found
    have hat : ∀ e, tree.at? (k :: e) = child.at? e := by
      intro e
      rw [at?_cons, hchild]
      rfl
    have hway : ∀ e, e <+: below → ∀ s, child.at? e = some s → enters s.kind = true :=
      fun e he s hs => h.way (k :: e) (List.cons_prefix_cons.mpr ⟨rfl, he⟩)
        (List.cons_ne_nil k e) s ((hat e).trans hs)
    exact ⟨child, hchild, hway [] List.nil_prefix child rfl, hfound,
      fun e he _ s hs => hway e he s hs⟩
  · rintro ⟨child, hchild, hkind, h⟩
    refine ⟨?_, fun e he hnil s hs => ?_⟩
    · rw [at?_cons, hchild]
      exact h.found
    · cases e with
      | nil => exact absurd rfl hnil
      | cons j e =>
        obtain ⟨rfl, hbelow⟩ := List.cons_prefix_cons.mp he
        rw [at?_cons, hchild] at hs
        by_cases hroot : e = []
        · subst hroot
          obtain rfl := Option.some.inj hs
          exact hkind
        · exact h.way e hbelow hroot s hs

end Tree

/-! ## All of them -/

namespace Forest

/-- A node is entered with what is below it, and then what is behind it. -/
theorem entered_node (k : Nat) (kind : Kind) (name signature : Option String)
    (children rest : Forest) :
    (node kind name signature children rest).entered enters k =
      (if enters kind then
        (Tree.entered enters { kind, name, signature, children }).map
          fun (address, tree) => (k :: address, tree)
        else []) ++ rest.entered enters (k + 1) := by
  rw [entered, Tree.entered, List.map_cons]

/-- What is entered is entered through one of the trees of the forest. -/
theorem mem_entered {forest : Forest} {k : Nat} {address : List Nat} {found : Tree} :
    (address, found) ∈ forest.entered enters k ↔
      ∃ j below child, address = (k + j) :: below ∧ forest.child? j = some child ∧
        enters child.kind = true ∧ child.Enters enters below found := by
  induction forest generalizing k address found with
  | nil =>
    constructor
    · intro h
      cases h
    · rintro ⟨j, below, child, -, hchild, -⟩
      cases hchild
  | token text role rest ih =>
    rw [entered, ih]
    constructor
    · rintro ⟨j, below, child, rfl, hchild, h⟩
      exact ⟨j + 1, below, child, by rw [Nat.add_right_comm, Nat.add_assoc], hchild, h⟩
    · rintro ⟨j, below, child, rfl, hchild, h⟩
      cases j with
      | zero => cases hchild
      | succ j => exact ⟨j, below, child, by rw [Nat.add_right_comm, Nat.add_assoc], hchild, h⟩
  | node kind name signature children rest ihChildren ihRest =>
    -- where the walk comes from this node on is known from its children, which are a forest
    have hhere : ∀ {below : List Nat} {node : Tree},
        (below, node) ∈ Tree.entered enters { kind, name, signature, children } ↔
          Tree.Enters enters { kind, name, signature, children } below node := by
      intro below node
      rw [Tree.entered, List.mem_cons, Prod.mk.injEq, ihChildren]
      cases below with
      | nil => simp [Tree.enters_nil]
      | cons k below => simp [Tree.enters_cons]
    rw [entered_node, List.mem_append, ihRest]
    constructor
    · rintro (hmem | ⟨j, below, child, rfl, hchild, h⟩)
      · split at hmem
        · rename_i hkind
          obtain ⟨⟨below, node⟩, hmem, heq⟩ := List.mem_map.mp hmem
          cases heq
          exact ⟨0, below, _, rfl, rfl, hkind, hhere.mp hmem⟩
        · cases hmem
      · exact ⟨j + 1, below, child, by rw [Nat.add_right_comm, Nat.add_assoc], hchild, h⟩
    · rintro ⟨j, below, child, rfl, hchild, hkind, h⟩
      cases j with
      | zero =>
        cases hchild
        rw [if_pos hkind]
        exact Or.inl (List.mem_map.mpr ⟨(below, found), hhere.mpr h, rfl⟩)
      | succ j =>
        exact Or.inr ⟨j, below, child, by rw [Nat.add_right_comm, Nat.add_assoc], hchild, hkind, h⟩

end Forest

/-- **A walk comes where all the way is entered.** -/
theorem Tree.mem_entered {tree node : Tree} {address : List Nat} :
    (address, node) ∈ tree.entered enters ↔ tree.Enters enters address node := by
  rw [entered, List.mem_cons, Prod.mk.injEq, Forest.mem_entered]
  cases address with
  | nil => simp [enters_nil]
  | cons k below => simp [enters_cons]

/-! ## In document order -/

/-- A walk is in document order if it is so below the root. -/
theorem Tree.pairwise_entered_of {tree : Tree}
    (h : ((tree.children.entered enters 0).map Prod.fst).Pairwise (· < ·)) :
    ((tree.entered enters).map Prod.fst).Pairwise (· < ·) := by
  rw [entered, List.map_cons, List.pairwise_cons]
  refine ⟨fun a ha => ?_, h⟩
  obtain ⟨⟨below, node⟩, hmem, rfl⟩ := List.mem_map.mp ha
  obtain ⟨j, below, child, rfl, -⟩ := Forest.mem_entered.mp hmem
  exact List.nil_lt_cons _ below

/-- What is entered is listed in document order. -/
theorem Forest.pairwise_entered (forest : Forest) (k : Nat) :
    ((forest.entered enters k).map Prod.fst).Pairwise (· < ·) := by
  induction forest generalizing k with
  | nil => exact .nil
  | token text role rest ih => exact ih (k + 1)
  | node kind name signature children rest ihChildren ihRest =>
    rw [entered_node, List.map_append, List.pairwise_append]
    refine ⟨?_, ihRest (k + 1), fun a ha b hb => ?_⟩
    · split
      · have hhere : ((Tree.entered enters { kind, name, signature, children }).map
            Prod.fst).Pairwise (· < ·) := Tree.pairwise_entered_of (ihChildren 0)
        rw [List.map_map]
        rw [List.pairwise_map] at hhere ⊢
        exact hhere.imp fun h => List.cons_lt_cons_iff.mpr (Or.inr ⟨rfl, h⟩)
      · exact .nil
    · obtain ⟨⟨address, later⟩, hlater, rfl⟩ := List.mem_map.mp hb
      obtain ⟨j, beyond, child, rfl, -, -⟩ := mem_entered.mp hlater
      split at ha
      · obtain ⟨p, hp, rfl⟩ := List.mem_map.mp ha
        obtain ⟨⟨below, first⟩, -, rfl⟩ := List.mem_map.mp hp
        exact List.cons_lt_cons_iff.mpr (Or.inl (by omega))
      · cases ha

/-- **A walk goes in document order.** -/
theorem Tree.pairwise_entered (tree : Tree) :
    ((tree.entered enters).map Prod.fst).Pairwise (· < ·) :=
  pairwise_entered_of (tree.children.pairwise_entered 0)

end CodeGraph
