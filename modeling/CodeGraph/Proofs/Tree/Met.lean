/-
# What a traversal meets

A traversal looks for nodes of some kinds, and on its way enters nodes of other kinds.
`Forest.met` lists what it meets with addresses; these are exactly the nodes that are looked for and
have only entered ones above them (`Tree.mem_met`), and they come in document order
(`Tree.pairwise_met`).
-/
import CodeGraph.Proofs.Tree.Address

namespace CodeGraph

variable (wanted enters : Kind → Bool)

/-- The wanted nodes of a forest that are met through entered ones, with their addresses; the items
of the forest are numbered from `k` on. -/
def Forest.met (k : Nat) : Forest → List (List Nat × Tree)
  | .nil => []
  | .token _ _ rest => rest.met (k + 1)
  | .node kind name signature children rest =>
    (if wanted kind then [([k], { kind, name, signature, children })]
      else if enters kind then (children.met 0).map fun (address, tree) => (k :: address, tree)
      else []) ++
      rest.met (k + 1)

/-- The wanted nodes of a tree that are met from its root on, with their addresses. -/
def Tree.met (tree : Tree) : List (List Nat × Tree) :=
  if wanted tree.kind then [([], tree)]
  else if enters tree.kind then tree.children.met wanted enters 0
  else []

/-- A wanted node at an address, with only entered ones above it. -/
structure Tree.Meets (tree : Tree) (address : List Nat) (node : Tree) : Prop where
  found : tree.at? address = some node
  wanted_eq : wanted node.kind = true
  above : ∀ e, e <+: address → e ≠ address → ∀ s, tree.at? e = some s →
    wanted s.kind = false ∧ enters s.kind = true

/-- A wanted node below the root, with only entered ones in between. -/
structure Tree.MeetsBelow (tree : Tree) (address : List Nat) (node : Tree) : Prop where
  ne_nil : address ≠ []
  found : tree.at? address = some node
  wanted_eq : wanted node.kind = true
  between : ∀ e, e <+: address → e ≠ [] → e ≠ address → ∀ s, tree.at? e = some s →
    wanted s.kind = false ∧ enters s.kind = true

variable {wanted enters}

namespace Tree

variable {tree node : Tree} {address : List Nat}

/-- A node is met below the root if it is met from one of the children on. -/
theorem meetsBelow_iff : tree.MeetsBelow wanted enters address node ↔
    ∃ k below child, address = k :: below ∧ tree.children.child? k = some child ∧
      child.Meets wanted enters below node := by
  constructor
  · intro h
    cases address with
    | nil => exact absurd rfl h.ne_nil
    | cons k below =>
      obtain ⟨child, hchild, hfound⟩ := Option.bind_eq_some_iff.mp h.found
      refine ⟨k, below, child, rfl, hchild, hfound, h.wanted_eq, fun e he hne s hs => ?_⟩
      refine h.between (k :: e) (List.cons_prefix_cons.mpr ⟨rfl, he⟩) (List.cons_ne_nil _ _)
        (fun heq => hne (List.cons.inj heq).2) s ?_
      rw [at?_cons, hchild]
      exact hs
  · rintro ⟨k, below, child, rfl, hchild, h⟩
    refine ⟨List.cons_ne_nil _ _, ?_, h.wanted_eq, fun e he hnil hne s hs => ?_⟩
    · rw [at?_cons, hchild]
      exact h.found
    · cases e with
      | nil => exact absurd rfl hnil
      | cons j e =>
        obtain ⟨rfl, hway⟩ := List.cons_prefix_cons.mp he
        rw [at?_cons, hchild] at hs
        exact h.above e hway (fun heq => hne (congrArg _ heq)) s hs

/-- What is met is the root, or met below it if it is entered. -/
theorem meets_iff : tree.Meets wanted enters address node ↔
    (address = [] ∧ node = tree ∧ wanted tree.kind = true) ∨
      (wanted tree.kind = false ∧ enters tree.kind = true ∧
        tree.MeetsBelow wanted enters address node) := by
  constructor
  · intro h
    by_cases hnil : address = []
    · subst hnil
      obtain rfl := Option.some.inj h.found
      exact Or.inl ⟨rfl, rfl, h.wanted_eq⟩
    · obtain ⟨hwanted, henters⟩ := h.above [] List.nil_prefix (Ne.symm hnil) tree rfl
      exact Or.inr ⟨hwanted, henters, hnil, h.found, h.wanted_eq,
        fun e he _ hne s hs => h.above e he hne s hs⟩
  · rintro (⟨rfl, rfl, hwanted⟩ | ⟨hwanted, henters, h⟩)
    · refine ⟨rfl, hwanted, fun e he hne => ?_⟩
      exact absurd (List.prefix_nil.mp he) hne
    · refine ⟨h.found, h.wanted_eq, fun e he hne s hs => ?_⟩
      by_cases hnil : e = []
      · subst hnil
        obtain rfl := Option.some.inj hs
        exact ⟨hwanted, henters⟩
      · exact h.between e he hnil hne s hs

end Tree

/-! ## The traversal meets them all -/

namespace Forest

/-- A node is met with what is below it, and then what is behind it. -/
theorem met_node (k : Nat) (kind : Kind) (name signature : Option String)
    (children rest : Forest) :
    (node kind name signature children rest).met wanted enters k =
      (Tree.met wanted enters { kind, name, signature, children }).map
        (fun (address, tree) => (k :: address, tree)) ++ rest.met wanted enters (k + 1) := by
  rw [met, Tree.met]
  split
  · rfl
  · split <;> rfl

end Forest

/-- What a tree meets is known once it is known what its children meet. -/
theorem Tree.mem_met_of {tree : Tree}
    (h : ∀ {address : List Nat} {node : Tree}, (address, node) ∈ tree.children.met wanted enters 0 ↔
      tree.MeetsBelow wanted enters address node)
    {address : List Nat} {node : Tree} :
    (address, node) ∈ tree.met wanted enters ↔ tree.Meets wanted enters address node := by
  rw [meets_iff, met]
  cases hwanted : wanted tree.kind with
  | true =>
    rw [if_pos rfl, List.mem_singleton, Prod.mk.injEq]
    simp only [and_true, Bool.true_eq_false, false_and, or_false]
  | false =>
    rw [if_neg Bool.false_ne_true]
    cases henters : enters tree.kind with
    | true =>
      rw [if_pos rfl, h]
      simp only [Bool.false_eq_true, and_false, true_and, false_or]
    | false =>
      rw [if_neg Bool.false_ne_true]
      simp only [List.not_mem_nil, Bool.false_eq_true, and_false, false_and, or_self]

/-- What is met is met through one of the trees of the forest. -/
theorem Forest.mem_met {forest : Forest} {k : Nat} {address : List Nat} {found : Tree} :
    (address, found) ∈ forest.met wanted enters k ↔
      ∃ j below child, address = (k + j) :: below ∧ forest.child? j = some child ∧
        child.Meets wanted enters below found := by
  induction forest generalizing k address found with
  | nil =>
    constructor
    · intro h
      cases h
    · rintro ⟨j, below, child, -, hchild, -⟩
      cases hchild
  | token text role rest ih =>
    rw [met, ih]
    constructor
    · rintro ⟨j, below, child, rfl, hchild, h⟩
      exact ⟨j + 1, below, child, by rw [Nat.add_right_comm, Nat.add_assoc], hchild, h⟩
    · rintro ⟨j, below, child, rfl, hchild, h⟩
      cases j with
      | zero => cases hchild
      | succ j => exact ⟨j, below, child, by rw [Nat.add_right_comm, Nat.add_assoc], hchild, h⟩
  | node kind name signature children rest ihChildren ihRest =>
    -- what the node itself meets is known from its children, which are a forest
    have hhere : ∀ {address : List Nat} {node : Tree},
        (address, node) ∈ Tree.met wanted enters { kind, name, signature, children } ↔
          Tree.Meets wanted enters { kind, name, signature, children } address node := by
      refine Tree.mem_met_of fun {address node} => ?_
      rw [Tree.meetsBelow_iff, ihChildren]
      simp only [Nat.zero_add]
    rw [met_node, List.mem_append, List.mem_map, ihRest]
    constructor
    · rintro (⟨⟨below, node⟩, hmem, heq⟩ | ⟨j, below, child, rfl, hchild, h⟩)
      · cases heq
        exact ⟨0, below, _, rfl, rfl, hhere.mp hmem⟩
      · exact ⟨j + 1, below, child, by rw [Nat.add_right_comm, Nat.add_assoc], hchild, h⟩
    · rintro ⟨j, below, child, rfl, hchild, h⟩
      cases j with
      | zero =>
        cases hchild
        exact Or.inl ⟨(below, found), hhere.mpr h, rfl⟩
      | succ j =>
        exact Or.inr ⟨j, below, child, by rw [Nat.add_right_comm, Nat.add_assoc], hchild, h⟩

namespace Tree

variable {tree node : Tree} {address : List Nat}

/-- A traversal of the children meets what can be met below the root. -/
theorem mem_children_met : (address, node) ∈ tree.children.met wanted enters 0 ↔
    tree.MeetsBelow wanted enters address node := by
  rw [meetsBelow_iff, Forest.mem_met]
  simp only [Nat.zero_add]

/-- **A traversal meets what can be met.** -/
theorem mem_met :
    (address, node) ∈ tree.met wanted enters ↔ tree.Meets wanted enters address node :=
  mem_met_of mem_children_met

end Tree

/-! ## In document order -/

theorem Forest.pairwise_met (forest : Forest) (k : Nat) :
    ((forest.met wanted enters k).map Prod.fst).Pairwise (· < ·) := by
  induction forest generalizing k with
  | nil => exact .nil
  | token text role rest ih => exact ih (k + 1)
  | node kind name signature children rest ihChildren ihRest =>
    have hhere : ((Tree.met wanted enters { kind, name, signature, children }).map
        Prod.fst).Pairwise (· < ·) := by
      rw [Tree.met]
      split
      · exact List.pairwise_singleton _ _
      · split
        · exact ihChildren 0
        · exact .nil
    rw [met_node, List.map_append, List.map_map, List.pairwise_append]
    refine ⟨?_, ihRest (k + 1), fun a ha b hb => ?_⟩
    · rw [List.pairwise_map] at hhere ⊢
      exact hhere.imp fun h => List.cons_lt_cons_iff.mpr (Or.inr ⟨rfl, h⟩)
    · obtain ⟨⟨below, first⟩, -, rfl⟩ := List.mem_map.mp ha
      obtain ⟨⟨address, later⟩, hlater, rfl⟩ := List.mem_map.mp hb
      obtain ⟨j, beyond, child, rfl, -, -⟩ := mem_met.mp hlater
      exact List.cons_lt_cons_iff.mpr (Or.inl (by omega))

/-- **A traversal goes in document order.** -/
theorem Tree.pairwise_met (tree : Tree) :
    ((tree.met wanted enters).map Prod.fst).Pairwise (· < ·) := by
  rw [met]
  split
  · exact List.pairwise_singleton _ _
  · split
    · exact tree.children.pairwise_met 0
    · exact .nil

end CodeGraph
