/-
# The arenas of a method in the making

The nodes and tokens that any moves of a cursor make fit together (`Cursor.Arenas`): every node
but the root is listed once, as a child of its parent, every token is listed once, by its owner,
the open nodes are the way from the root down to the cursor, and the walk from the root comes to
its end after it has met every node once, in the order in which they were made.  No move refers to
a node or a token that is not there (`Cursor.arenas_tryMoves`).
-/
import CodeGraph.Proofs.Build.Checked

namespace CodeGraph

/-! ## The walk from the root -/

namespace MethodGraph

/-- A walk from the nodes that wait comes to its end, with no bound on its length: it visits the
first of them, puts the children of this one before the others, and goes on until none is waiting.
-/
inductive Visits (method : MethodGraph) : List Nat → List Nat → Prop
  | done : method.Visits [] []
  | next {v : Nat} {node : NonTerminal} {waiting order : List Nat}
      (lookup : method.nodes[v]? = some node)
      (rest : method.Visits (node.children ++ waiting) order) :
      method.Visits (v :: waiting) (v :: order)

theorem waitingAt_length (parents : List (Option Nat)) : waitingAt parents parents.length = [] := by
  rw [waitingAt, Nat.sub_self]
  rfl

/-- From any node on, the rest is visited in the order of indices. -/
theorem Shaped.visits_waitingAt {method : MethodGraph} (h : method.Shaped) (rest k : Nat)
    (hk : k + rest = method.nodes.size) :
    method.Visits (waitingAt method.parents k) (List.range' k rest) := by
  -- by induction on the number of nodes that are left
  induction rest generalizing k with
  | zero =>
    rw [← method.length_parents, Nat.add_zero] at hk
    rw [hk, waitingAt_length]
    exact Visits.done
  | succ rest ih =>
    have hlt : k < method.parents.length := by rw [length_parents]; omega
    have hsize : k < method.nodes.size := by omega
    have hget := Array.getElem?_eq_getElem hsize
    rw [h.tree.waitingAt_eq_cons hlt, List.range'_succ]
    apply Visits.next hget
    rw [h.children_eq k _ hget, ← h.tree.waitingAt_succ hlt]
    exact ih (k + 1) (by omega)

/-- **The walk from the root ends after it has met every node once.** -/
theorem Shaped.visits {method : MethodGraph} (h : method.Shaped) :
    method.Visits [0] (List.range method.nodes.size) := by
  have hvisits := h.visits_waitingAt method.nodes.size 0 (Nat.zero_add _)
  rw [h.tree.waitingAt_zero, ← List.range_eq_range'] at hvisits
  exact hvisits

end MethodGraph

/-! ## The way from the root -/

/-- The nodes lead from the root down to the node `last`, each being the parent of the next one. The
root itself is not among them. -/
def LeadsTo (parents : List (Option Nat)) (stack : List Nat) (last : Nat) : Prop :=
  (0 :: stack).IsChain (fun p v => parents[v]? = some (some p)) ∧
    (0 :: stack).getLast? = some last

/-- The path from the root ends at the node that is open. -/
theorem getLast?_root_cons_reverse (path : List Nat) :
    (0 :: path.reverse).getLast? = some (path.head?.getD 0) := by
  cases path with
  | nil => rfl
  | cons v path =>
    rw [List.reverse_cons, ← List.cons_append, List.getLast?_append]
    rfl

/-- The path from the root leads down from parent to child. -/
theorem isChain_root_reverse_iff {parents : List (Option Nat)} {path : List Nat} :
    (0 :: path.reverse).IsChain (fun p v => parents[v]? = some (some p)) ↔
      Ascends parents path := by
  induction path with
  | nil => simp [Ascends]
  | cons v path ih =>
    rw [List.reverse_cons, ← List.cons_append, List.isChain_append, ih,
      getLast?_root_cons_reverse, Ascends]
    simp [and_comm]

/-- The way down to a node is the way up from it, taken from its end. -/
theorem leadsTo_reverse_iff {parents : List (Option Nat)} {path : List Nat} {last : Nat} :
    LeadsTo parents path.reverse last ↔ Ascends parents path ∧ path.head?.getD 0 = last := by
  rw [LeadsTo, getLast?_root_cons_reverse, Option.some.injEq, isChain_root_reverse_iff]

/-- There is only one way up from a node. -/
theorem Ascends.unique {parents : List (Option Nat)} (htree : IsNumbering parents)
    {path other : List Nat} (h : Ascends parents path) (hother : Ascends parents other)
    (hhead : path.head?.getD 0 = other.head?.getD 0) : path = other := by
  induction path generalizing other with
  | nil =>
    cases other with
    | nil => rfl
    | cons w other =>
      -- the way up from the root is empty
      obtain rfl : 0 = w := hhead
      have hparent := hother.1
      rw [htree.root] at hparent
      cases hparent
  | cons v path ih =>
    cases other with
    | nil =>
      obtain rfl : v = 0 := hhead
      have hparent := h.1
      rw [htree.root] at hparent
      cases hparent
    | cons w other =>
      obtain rfl : v = w := hhead
      have hparent := h.1.symm.trans hother.1
      rw [Option.some.injEq, Option.some.injEq] at hparent
      rw [ih h.2 hother.2 hparent]

/-! ## Arenas -/

namespace Cursor

/-- The nodes and tokens of a method in the making fit together. -/
structure Arenas (cursor : Cursor) : Prop where
  nodes_pos : 0 < cursor.nodes.size
  /-- The root, and no other node, has no parent. -/
  root : ∀ (v : Nat) (node : NonTerminal), cursor.nodes[v]? = some node →
    (node.parent = none ↔ v = 0)
  parent_lt : ∀ (v : Nat) (node : NonTerminal) (p : Nat), cursor.nodes[v]? = some node →
    node.parent = some p → p < v
  /-- A number is listed once by the parent of the node with that number, and by no other node. -/
  count_children : ∀ (u : Nat) (parent : NonTerminal), cursor.nodes[u]? = some parent → ∀ v : Nat,
    parent.children.count v = if cursor.nodes[v]?.bind NonTerminal.parent = some u then 1 else 0
  children_sorted : ∀ (u : Nat) (node : NonTerminal), cursor.nodes[u]? = some node →
    node.children.Pairwise (· < ·)
  /-- A number is listed by the owner of the token with that number, and by no other node. -/
  mem_tokens : ∀ (u : Nat) (node : NonTerminal), cursor.nodes[u]? = some node → ∀ i : Nat,
    i ∈ node.tokens ↔ cursor.tokens[i]?.map Token.owner = some u
  tokens_sorted : ∀ (u : Nat) (node : NonTerminal), cursor.nodes[u]? = some node →
    node.tokens.Pairwise (· < ·)
  owner_lt : ∀ (i : Nat) (token : Token), cursor.tokens[i]? = some token →
    token.owner < cursor.nodes.size
  /-- The open nodes, the outermost first, are the only way from the root down to the cursor. -/
  path : ∀ stack, LeadsTo cursor.method.parents stack cursor.current ↔ stack = cursor.path.reverse
  visits : cursor.method.Visits [0] (List.range cursor.nodes.size)
  preorder : cursor.method.preorder = List.range cursor.nodes.size

variable {cursor : Cursor}

theorem getElem?_parents_bind (v : Nat) :
    cursor.method.parents[v]?.join = cursor.nodes[v]?.bind NonTerminal.parent := by
  rw [MethodGraph.getElem?_parents, ← Option.bind_id_eq_join, Option.bind_map]
  rfl

theorem getElem?_owners (i : Nat) :
    cursor.method.owners[i]? = cursor.tokens[i]?.map Token.owner := by
  rw [MethodGraph.owners, List.getElem?_map, Array.getElem?_toList]
  rfl

/-- Where a cursor stands decides how the arenas fit together. -/
theorem Placed.arenas (h : cursor.Placed) : cursor.Arenas := by
  have hshaped := h.shaped
  have hparent : ∀ (v : Nat) (node : NonTerminal), cursor.nodes[v]? = some node →
      cursor.method.parents[v]? = some node.parent := by
    intro v node hv
    rw [MethodGraph.getElem?_parents]
    show cursor.nodes[v]?.map _ = _
    rw [hv, Option.map_some]
  refine
    { nodes_pos := hshaped.size_pos
      root := ?_
      parent_lt := ?_
      count_children := ?_
      children_sorted := ?_
      mem_tokens := ?_
      tokens_sorted := ?_
      owner_lt := ?_
      path := ?_
      visits := hshaped.visits
      preorder := hshaped.preorder_eq }
  · intro v node hv
    have hv' := hparent v node hv
    constructor
    · intro hnone
      rw [hnone] at hv'
      by_contra hpos
      obtain ⟨p, hp, -⟩ := hshaped.tree.parent_lt v (Nat.pos_of_ne_zero hpos)
        (List.getElem?_eq_some_iff.mp hv').1
      rw [hv'] at hp
      cases hp
    · rintro rfl
      rw [hshaped.tree.root] at hv'
      exact (Option.some.inj hv').symm
  · intro v node p hv hp
    have hv' := hparent v node hv
    rw [hp] at hv'
    exact hshaped.tree.lt_of_parent hv'
  · intro u parent hu v
    rw [hshaped.children_eq u parent hu, ← getElem?_parents_bind]
    have hmem : v ∈ cursor.method.parents.idxsOf (some u) ↔
        cursor.method.parents[v]?.join = some u := by
      rw [mem_idxsOf_iff, Option.join_eq_some_iff]
    split
    · next hv => exact List.count_eq_one_of_mem List.nodup_idxsOf (hmem.mpr hv)
    · next hv => exact List.count_eq_zero_of_not_mem (mt hmem.mp hv)
  · intro u node hu
    rw [hshaped.children_eq u node hu]
    exact List.pairwise_idxsOf
  · intro u node hu i
    rw [hshaped.tokens_eq u node hu, mem_idxsOf_iff, getElem?_owners]
  · intro u node hu
    rw [hshaped.tokens_eq u node hu]
    exact List.pairwise_idxsOf
  · intro i token hi
    apply hshaped.owner_lt
    apply List.mem_of_getElem?
    rw [getElem?_owners, hi, Option.map_some]
  · intro stack
    have hstack := stack.reverse_reverse
    rw [← hstack, leadsTo_reverse_iff]
    constructor
    · rintro ⟨hascends, hlast⟩
      rw [hascends.unique hshaped.tree h.ascends hlast]
    · intro heq
      rw [List.reverse_inj.mp heq]
      exact ⟨h.ascends, rfl⟩

/-- **Whatever moves are made, no number of nothing is looked up, and the arenas fit together.** -/
theorem arenas_tryMoves (builder : ClassBuilder) (signature : String) (moves : List Move) :
    (∃ latest, (CheckedCursor.openMethod builder signature).tryMoves? moves =
      some ⟨(builder.openMethod signature).tryMoves moves, latest⟩) ∧
    ((builder.openMethod signature).tryMoves moves).Arenas := by
  have hready := CheckedCursor.Ready.openMethod builder signature
  have hplaced : ((builder.openMethod signature).tryMoves moves).Placed :=
    tryMoves_of_move (fun _ _ _ h hm => h.move hm) hready.placed moves
  exact ⟨hready.exists_tryMoves? moves, hplaced.arenas⟩

end Cursor

end CodeGraph
