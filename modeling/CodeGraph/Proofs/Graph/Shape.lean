/-
# The shape of a method

The nodes of a method form a tree in which every node but the root comes after its parent, and no
two branches interleave: `IsNumbering` says so of the list of parents alone. A method has its shape
(`MethodGraph.Shaped`) if its lists of children and of tokens are what the parents and the owners
say.  Then the walk from the root meets the nodes in the order of their numbers
(`MethodGraph.Shaped.preorder_eq`), so creation order and walk order are one.
-/
import Mathlib
import CodeGraph.Graph.Basic

namespace CodeGraph

/-! ## Numbered trees -/

/-- The parents of nodes that are numbered in the order of a walk. -/
structure IsNumbering (parents : List (Option Nat)) : Prop where
  root : parents[0]? = some none
  parent_lt : ∀ v, 0 < v → v < parents.length → ∃ p, parents[v]? = some (some p) ∧ p < v
  /-- A node that has a later sibling branch beside it gets no more children. -/
  nested : ∀ u v p q : Nat, u < v → parents[u]? = some (some p) → parents[v]? = some (some q) →
    p < q → u ≤ q

namespace IsNumbering

variable {parents : List (Option Nat)}

theorem length_pos (h : IsNumbering parents) : 0 < parents.length :=
  (List.getElem?_eq_some_iff.mp h.root).1

/-- A parent comes before its child. -/
theorem lt_of_parent (h : IsNumbering parents) {v p : Nat}
    (hv : parents[v]? = some (some p)) : p < v := by
  have hlt : v < parents.length := (List.getElem?_eq_some_iff.mp hv).1
  rcases Nat.eq_zero_or_pos v with rfl | hpos
  · rw [h.root] at hv
    cases hv
  · obtain ⟨q, hq, hqv⟩ := h.parent_lt v hpos hlt
    rw [hv] at hq
    cases hq
    exact hqv

/-- The tree that has a root and nothing else. -/
theorem singleton : IsNumbering [none] where
  root := rfl
  parent_lt := by
    intro v hpos hlt
    rw [List.length_singleton] at hlt
    omega
  nested := by
    intro u v p q huv _ hv _
    have hlt := (List.getElem?_eq_some_iff.mp hv).1
    rw [List.length_singleton] at hlt
    obtain rfl : v = 0 := by omega
    omega

/-- One more node keeps the numbering if all branches beside its parent are finished. -/
theorem concat (h : IsNumbering parents) {p : Nat} (hp : p < parents.length)
    (hopen : ∀ v q, p < v → parents[v]? = some (some q) → p ≤ q) :
    IsNumbering (parents ++ [some p]) where
  root := by
    rw [List.getElem?_append_left h.length_pos, h.root]
  parent_lt := by
    intro v hpos hlt
    rw [List.length_append, List.length_singleton] at hlt
    by_cases hv : v < parents.length
    · rw [List.getElem?_append_left hv]
      exact h.parent_lt v hpos hv
    · obtain rfl : v = parents.length := by omega
      exact ⟨p, by simp, hp⟩
  nested := by
    intro u v q r huv hu hv hqr
    have hlt := (List.getElem?_eq_some_iff.mp hv).1
    rw [List.length_append, List.length_singleton] at hlt
    rw [List.getElem?_append_left (by omega)] at hu
    by_cases hv' : v < parents.length
    · rw [List.getElem?_append_left hv'] at hv
      exact h.nested u v q r huv hu hv hqr
    · -- the new node hangs below `p`, and nothing behind `p` hangs above it
      obtain rfl : v = parents.length := by omega
      rw [List.getElem?_concat_length] at hv
      cases hv
      by_contra hcon
      have := hopen u q (by omega) hu
      omega

end IsNumbering

/-! ## Walking a numbered tree -/

/-- The places of a value in a list are those where it is found. -/
theorem mem_idxsOf_iff {α : Type} [BEq α] [LawfulBEq α] {xs : List α} {a : α} {i : Nat} :
    i ∈ xs.idxsOf a ↔ xs[i]? = some a := by
  rw [List.mem_idxsOf_iff_exists_getElem_pos, List.getElem?_eq_some_iff]
  simp only [beq_iff_eq]

/-- The nodes from `k` on that hang below one of the nodes before `k`: what waits to be visited once
those before `k` have been. -/
def waitingAt (parents : List (Option Nat)) (k : Nat) : List Nat :=
  (List.range' k (parents.length - k)).filter fun v => (parents[v]?.join).all (· < k)

/-- The nodes that wait are those to come whose parent has been visited. -/
theorem mem_waitingAt {parents : List (Option Nat)} {k v : Nat} :
    v ∈ waitingAt parents k ↔
      k ≤ v ∧ v < parents.length ∧ ∀ p, parents[v]? = some (some p) → p < k := by
  simp only [waitingAt, List.mem_filter, List.mem_range'_1, Option.all_eq_true, decide_eq_true_eq,
    Option.join_eq_some_iff]
  constructor
  · rintro ⟨⟨h1, h2⟩, h3⟩
    exact ⟨h1, by omega, h3⟩
  · rintro ⟨h1, h2, h3⟩
    exact ⟨⟨h1, by omega⟩, h3⟩

theorem pairwise_waitingAt (parents : List (Option Nat)) (k : Nat) :
    (waitingAt parents k).Pairwise (· < ·) :=
  List.Pairwise.filter _ List.pairwise_lt_range'

namespace IsNumbering

variable {parents : List (Option Nat)}

/-- At the start the root is waiting. -/
theorem waitingAt_zero (h : IsNumbering parents) : waitingAt parents 0 = [0] := by
  refine (pairwise_waitingAt parents 0).eq_of_mem_iff (List.pairwise_singleton _ 0) fun v => ?_
  rw [mem_waitingAt, List.mem_singleton]
  constructor
  · rintro ⟨-, hlt, hp⟩
    rcases Nat.eq_zero_or_pos v with hv | hpos
    · exact hv
    · obtain ⟨p, hv, -⟩ := h.parent_lt v hpos hlt
      exact absurd (hp p hv) (Nat.not_lt_zero p)
  · rintro rfl
    refine ⟨Nat.le_refl 0, h.length_pos, fun p hp => ?_⟩
    rw [h.root] at hp
    cases hp

/-- The next node waits first. -/
theorem waitingAt_eq_cons (h : IsNumbering parents) {k : Nat} (hk : k < parents.length) :
    waitingAt parents k = k :: (waitingAt parents k).tail := by
  obtain ⟨m, hm⟩ : ∃ m, parents.length - k = m + 1 := ⟨parents.length - k - 1, by omega⟩
  have hhead : (parents[k]?.join).all (· < k) = true := by
    simp only [Option.all_eq_true, decide_eq_true_eq, Option.join_eq_some_iff]
    exact fun p hp => h.lt_of_parent hp
  rw [waitingAt, hm, List.range'_succ, List.filter_cons, if_pos hhead, List.tail_cons]

/-- What waits behind the next node. -/
theorem mem_tail_waitingAt (h : IsNumbering parents) {k v : Nat} (hk : k < parents.length) :
    v ∈ (waitingAt parents k).tail ↔ v ∈ waitingAt parents k ∧ k < v := by
  have hcons := h.waitingAt_eq_cons hk
  have hsorted : (k :: (waitingAt parents k).tail).Pairwise (· < ·) :=
    hcons ▸ pairwise_waitingAt parents k
  constructor
  · intro hv
    exact ⟨List.mem_of_mem_tail hv, List.rel_of_pairwise_cons hsorted hv⟩
  · rintro ⟨hv, hkv⟩
    rw [hcons, List.mem_cons] at hv
    exact hv.resolve_left (by omega)

/-- The children of a node come before what has been waiting behind it. -/
theorem lt_of_waitingAt (h : IsNumbering parents) {k u v : Nat} (hk : k < parents.length)
    (hu : parents[u]? = some (some k)) (hv : v ∈ (waitingAt parents k).tail) : u < v := by
  rw [h.mem_tail_waitingAt hk, mem_waitingAt] at hv
  obtain ⟨⟨-, hlt, hbelow⟩, hkv⟩ := hv
  obtain ⟨p, hp, -⟩ := h.parent_lt v (by omega) hlt
  have hpk := hbelow p hp
  by_contra hcon
  rcases Nat.lt_or_ge v u with hvu | hvu
  · -- the branch below `p` would go on behind a child of `k`
    have := h.nested v u p k hvu hp hu hpk
    omega
  · obtain rfl : u = v := by omega
    rw [hu] at hp
    cases hp
    omega

/-- After a node come its children, and then what has been waiting behind it. -/
theorem waitingAt_succ (h : IsNumbering parents) {k : Nat} (hk : k < parents.length) :
    waitingAt parents (k + 1) = parents.idxsOf (some k) ++ (waitingAt parents k).tail := by
  have htail : (waitingAt parents k).tail.Pairwise (· < ·) := (pairwise_waitingAt parents k).tail
  -- both lists are sorted, so that it is enough to compare their members
  refine (pairwise_waitingAt parents (k + 1)).eq_of_mem_iff ?_ fun v => ?_
  · refine List.pairwise_append.mpr ⟨List.pairwise_idxsOf, htail, fun u hu v hv => ?_⟩
    exact h.lt_of_waitingAt hk (mem_idxsOf_iff.mp hu) hv
  · rw [List.mem_append, mem_idxsOf_iff, h.mem_tail_waitingAt hk, mem_waitingAt,
      mem_waitingAt]
    constructor
    · rintro ⟨hkv, hlt, hbelow⟩
      obtain ⟨p, hp, -⟩ := h.parent_lt v (by omega) hlt
      rcases Nat.lt_succ_iff_lt_or_eq.mp (hbelow p hp) with hpk | rfl
      · right
        refine ⟨⟨by omega, hlt, fun q hq => ?_⟩, hkv⟩
        rw [hp] at hq
        cases hq
        exact hpk
      · exact Or.inl hp
    · rintro (hv | ⟨⟨-, hlt, hbelow⟩, hkv⟩)
      · refine ⟨h.lt_of_parent hv, (List.getElem?_eq_some_iff.mp hv).1, fun q hq => ?_⟩
        rw [hv] at hq
        cases hq
        exact Nat.lt_succ_self k
      · exact ⟨hkv, hlt, fun q hq => Nat.lt_succ_of_lt (hbelow q hq)⟩

end IsNumbering

/-! ## Shaped methods -/

namespace MethodGraph

/-- The parents of the nodes, in the order of the nodes. -/
def parents (method : MethodGraph) : List (Option Nat) :=
  method.nodes.toList.map NonTerminal.parent

/-- The owners of the tokens, in the order of the tokens. -/
def owners (method : MethodGraph) : List Nat := method.tokens.toList.map Token.owner

/-- The nodes form a numbered tree, and every node lists its children and its tokens. -/
structure Shaped (method : MethodGraph) : Prop where
  tree : IsNumbering method.parents
  children_eq : ∀ v node, method.nodes[v]? = some node →
    node.children = method.parents.idxsOf (some v)
  tokens_eq : ∀ v node, method.nodes[v]? = some node → node.tokens = method.owners.idxsOf v
  owner_lt : ∀ v ∈ method.owners, v < method.nodes.size

theorem length_parents (method : MethodGraph) : method.parents.length = method.nodes.size := by
  rw [parents, List.length_map, Array.length_toList]

theorem length_owners (method : MethodGraph) : method.owners.length = method.tokens.size := by
  rw [owners, List.length_map, Array.length_toList]

/-- The parents are those of the nodes, one by one. -/
theorem getElem?_parents (method : MethodGraph) (v : Nat) :
    method.parents[v]? = method.nodes[v]?.map NonTerminal.parent := by
  rw [parents, List.getElem?_map, Array.getElem?_toList]

namespace Shaped

variable {method : MethodGraph}

theorem size_pos (h : method.Shaped) : 0 < method.nodes.size :=
  method.length_parents ▸ h.tree.length_pos

/-- The children of a node are the nodes with this parent. -/
theorem childrenOf_eq (h : method.Shaped) {v : Nat} (hv : v < method.nodes.size) :
    method.childrenOf v = method.parents.idxsOf (some v) := by
  rw [childrenOf, Array.getElem?_eq_getElem hv]
  exact h.children_eq v _ (Array.getElem?_eq_getElem hv)

/-- Nothing hangs below a node that is yet to be made. -/
theorem idxsOf_parents_size (h : method.Shaped) :
    method.parents.idxsOf (some method.nodes.size) = [] := by
  rw [List.idxsOf_eq_nil_iff]
  intro q hq
  obtain ⟨u, hu⟩ := List.mem_iff_getElem?.mp hq
  rw [beq_eq_false_iff_ne]
  rintro rfl
  have hlt := (List.getElem?_eq_some_iff.mp hu).1
  rw [MethodGraph.length_parents] at hlt
  exact absurd (h.tree.lt_of_parent hu) (Nat.lt_asymm hlt)

/-- No token belongs to a node that is not there. -/
theorem idxsOf_owners_size (h : method.Shaped) : method.owners.idxsOf method.nodes.size = [] := by
  rw [List.idxsOf_eq_nil_iff]
  intro q hq
  rw [beq_eq_false_iff_ne]
  exact Nat.ne_of_lt (h.owner_lt q hq)

/-- A walk that has come to the node `k` goes through all that follow. -/
theorem visit_waitingAt (h : method.Shaped) (fuel k : Nat)
    (hk : k + fuel = method.nodes.size) :
    method.visit fuel (waitingAt method.parents k) = List.range' k fuel := by
  -- what waits after the node `k` is again what waits at a place of the numbering, `k + 1`
  induction fuel generalizing k with
  | zero => rfl
  | succ fuel ih =>
    have hlt : k < method.parents.length := by rw [length_parents]; omega
    rw [h.tree.waitingAt_eq_cons hlt, visit, h.childrenOf_eq (by omega),
      ← h.tree.waitingAt_succ hlt, ih (k + 1) (by omega), List.range'_succ]

/-- **The walk from the root meets the nodes in the order in which they were made.** -/
theorem preorder_eq (h : method.Shaped) : method.preorder = List.range method.nodes.size := by
  rw [preorder, ← h.tree.waitingAt_zero, h.visit_waitingAt _ 0 (Nat.zero_add _),
    List.range_eq_range']

end Shaped

end MethodGraph

end CodeGraph
