/-
# Where a cursor stands

`Cursor.Placed` is the invariant that the moves of a cursor keep: the method made so far has its
shape, the open nodes lead from the cursor up to the root, and only they can still get children.
From it the shape of every finished method follows (`Cursor.Placed.move`).
-/
import CodeGraph.Proofs.Build.Moves
import CodeGraph.Proofs.Graph.Shape

namespace CodeGraph

/-! ## The open nodes -/

/-- Each node of the path is a child of the next one, and the last a child of the root. -/
def Ascends (parents : List (Option Nat)) : List Nat → Prop
  | [] => True
  | v :: path => parents[v]? = some (some (path.head?.getD 0)) ∧ Ascends parents path

/-- New nodes do not change the way up. -/
theorem Ascends.append {parents : List (Option Nat)} {path : List Nat}
    (h : Ascends parents path) (more : List (Option Nat)) : Ascends (parents ++ more) path := by
  induction path with
  | nil => trivial
  | cons v path ih =>
    refine ⟨?_, ih h.2⟩
    rw [List.getElem?_append_left (List.getElem?_eq_some_iff.mp h.1).1]
    exact h.1

/-- The way up leads through nodes of the tree. -/
theorem Ascends.lt_length {parents : List (Option Nat)} {path : List Nat}
    (h : Ascends parents path) {v : Nat} (hv : v ∈ path) : v < parents.length := by
  induction path with
  | nil => cases hv
  | cons u path ih =>
    rcases List.mem_cons.mp hv with rfl | hv
    · exact (List.getElem?_eq_some_iff.mp h.1).1
    · exact ih h.2 hv

/-- The way up leads to smaller numbers. -/
theorem Ascends.le_head {parents : List (Option Nat)} {path : List Nat}
    (htree : IsNumbering parents) (h : Ascends parents path) {v : Nat} (hv : v ∈ path) :
    v ≤ path.head?.getD 0 := by
  induction path with
  | nil => cases hv
  | cons u path ih =>
    rcases List.mem_cons.mp hv with rfl | hv
    · exact Nat.le_refl v
    · have hlt := htree.lt_of_parent h.1
      have hle := ih h.2 hv
      show v ≤ u
      omega

namespace Cursor

/-- The method made so far has its shape, and the open nodes are those that can get children. -/
structure Placed (cursor : Cursor) : Prop where
  shaped : cursor.method.Shaped
  ascends : Ascends cursor.method.parents cursor.path
  /-- What comes after an open node is below it. -/
  below : ∀ k ∈ cursor.path, ∀ v q : Nat, k < v →
    cursor.method.parents[v]? = some (some q) → k ≤ q

/-! ## Parents and owners -/

variable {cursor : Cursor}

theorem length_parents : cursor.method.parents.length = cursor.nodes.size :=
  cursor.method.length_parents

/-- A push adds a child of the node that is open. -/
theorem parents_push (kind : Kind) (callee : Option String) :
    (cursor.push kind callee).method.parents =
      cursor.method.parents ++ [some cursor.current] := by
  show ((cursor.push kind callee).nodes).toList.map NonTerminal.parent = _
  rw [push_nodes, adopt, map_toList_modify NonTerminal.parent, Array.toList_push, List.map_append]
  · rfl
  · exact fun _ => rfl

theorem owners_push (kind : Kind) (callee : Option String) :
    (cursor.push kind callee).method.owners = cursor.method.owners := by
  show ((cursor.push kind callee).tokens).toList.map Token.owner = _
  rw [push_tokens, map_settledTokens _ fun _ _ => rfl]
  rfl

theorem parents_emit (text : String) (role : Role) :
    (cursor.emit text role).method.parents = cursor.method.parents := by
  show ((cursor.emit text role).nodes).toList.map NonTerminal.parent = _
  rw [emit_nodes, map_toList_modify NonTerminal.parent]
  · rfl
  · exact fun _ => rfl

/-- A token belongs to the node that is open. -/
theorem owners_emit (text : String) (role : Role) :
    (cursor.emit text role).method.owners = cursor.method.owners ++ [cursor.current] := by
  show ((cursor.emit text role).tokens).toList.map Token.owner = _
  rw [emit_tokens, Array.toList_push, List.map_append, map_linkUse _ fun _ _ => rfl]
  rfl

/-! ## Every move keeps the place -/

theorem current_lt (h : cursor.Placed) : cursor.current < cursor.nodes.size := by
  have hsize := h.shaped.size_pos
  rcases hpath : cursor.path with _ | ⟨v, path⟩
  · rw [current, hpath]
    exact hsize
  · rw [current, hpath]
    have hlt := h.ascends.lt_length (v := v) (by rw [hpath]; exact List.mem_cons_self)
    rw [MethodGraph.length_parents] at hlt
    exact hlt

/-- What comes after the node at hand is below it. -/
theorem le_parent_of_current_lt (h : cursor.Placed) {v q : Nat} (hv : cursor.current < v)
    (hq : cursor.method.parents[v]? = some (some q)) : cursor.current ≤ q := by
  rcases hpath : cursor.path with _ | ⟨u, path⟩
  · rw [current, hpath]
    exact Nat.zero_le q
  · rw [current, hpath] at hv ⊢
    exact h.below u (by rw [hpath]; exact List.mem_cons_self) v q hv hq

/-- The nodes of a pushed cursor, looked up one by one. -/
theorem getElem?_push_nodes (h : cursor.Placed) {kind : Kind} {callee : Option String} {v : Nat}
    {node : NonTerminal} (hv : (cursor.push kind callee).nodes[v]? = some node) :
    (v = cursor.nodes.size ∧ node = { kind, parent := some cursor.current, callee }) ∨
    (v < cursor.nodes.size ∧ ∃ old, cursor.nodes[v]? = some old ∧
      node = { old with
        children := old.children ++ if v = cursor.current then [cursor.nodes.size] else [] }) := by
  have hcurrent := current_lt h
  rw [push_nodes, adopt, Array.getElem?_modify, Array.getElem?_push] at hv
  by_cases hsize : v = cursor.nodes.size
  · rw [if_neg (by omega), if_pos hsize] at hv
    cases hv
    exact Or.inl ⟨hsize, rfl⟩
  · rw [if_neg hsize] at hv
    right
    by_cases hcur : cursor.current = v
    · rw [if_pos hcur, Option.map_eq_some_iff] at hv
      obtain ⟨old, hold, rfl⟩ := hv
      refine ⟨(Array.getElem?_eq_some_iff.mp hold).1, old, hold, ?_⟩
      rw [if_pos hcur.symm]
    · rw [if_neg hcur] at hv
      refine ⟨(Array.getElem?_eq_some_iff.mp hv).1, node, hv, ?_⟩
      rw [if_neg (Ne.symm hcur), List.append_nil]

/-- A new node below the one at hand keeps the shape. -/
theorem shaped_push (h : cursor.Placed) (kind : Kind) (callee : Option String) :
    (cursor.push kind callee).method.Shaped where
  tree := by
    rw [parents_push]
    refine h.shaped.tree.concat ?_ fun v q => le_parent_of_current_lt h
    rw [MethodGraph.length_parents]
    exact current_lt h
  children_eq := by
    intro v node hv
    rw [parents_push, List.idxsOf_append, Nat.zero_add, MethodGraph.length_parents]
    rcases getElem?_push_nodes h hv with ⟨rfl, rfl⟩ | ⟨-, old, hold, rfl⟩
    · have hcurrent := current_lt h
      have hnone : cursor.method.parents.idxsOf (some cursor.nodes.size) = [] :=
        h.shaped.idxsOf_parents_size
      rw [hnone, List.idxsOf_cons, if_neg (by rw [beq_iff_eq, Option.some.injEq]; omega)]
      rfl
    · rw [List.idxsOf_cons, ← h.shaped.children_eq v old hold]
      by_cases hcur : v = cursor.current
      · subst hcur
        rw [if_pos rfl, if_pos (beq_self_eq_true _)]
        rfl
      · rw [if_neg hcur, if_neg (by rw [beq_iff_eq, Option.some.injEq]; exact Ne.symm hcur)]
        rfl
  tokens_eq := by
    intro v node hv
    rw [owners_push]
    rcases getElem?_push_nodes h hv with ⟨rfl, rfl⟩ | ⟨-, old, hold, rfl⟩
    · exact h.shaped.idxsOf_owners_size.symm
    · exact h.shaped.tokens_eq v old hold
  owner_lt := by
    intro v hv
    rw [owners_push] at hv
    have hlt := h.shaped.owner_lt v hv
    rw [← MethodGraph.length_parents, parents_push, List.length_append,
      MethodGraph.length_parents]
    exact Nat.lt_add_right _ hlt

/-- A new token of the node at hand keeps the shape. -/
theorem shaped_emit (h : cursor.Placed) (text : String) (role : Role) :
    (cursor.emit text role).method.Shaped where
  tree := by
    rw [parents_emit]
    exact h.shaped.tree
  children_eq := by
    intro v node hv
    rw [parents_emit]
    change (cursor.emit text role).nodes[v]? = some node at hv
    rw [emit_nodes, Array.getElem?_modify] at hv
    split at hv
    · obtain ⟨old, hold, rfl⟩ := Option.map_eq_some_iff.mp hv
      exact h.shaped.children_eq v old hold
    · exact h.shaped.children_eq v node hv
  tokens_eq := by
    intro v node hv
    rw [owners_emit, List.idxsOf_append, Nat.zero_add, MethodGraph.length_owners,
      List.idxsOf_cons]
    change (cursor.emit text role).nodes[v]? = some node at hv
    rw [emit_nodes, Array.getElem?_modify] at hv
    by_cases hcur : cursor.current = v
    · rw [if_pos hcur] at hv
      obtain ⟨old, hold, rfl⟩ := Option.map_eq_some_iff.mp hv
      rw [if_pos (beq_iff_eq.mpr hcur), ← h.shaped.tokens_eq v old hold]
      rfl
    · rw [if_neg hcur] at hv
      rw [if_neg (by rw [beq_iff_eq]; exact hcur), ← h.shaped.tokens_eq v node hv]
      exact (List.append_nil _).symm
  owner_lt := by
    intro v hv
    rw [owners_emit, List.mem_append, List.mem_singleton] at hv
    have hsize : (cursor.emit text role).method.nodes.size = cursor.nodes.size := by
      show (cursor.emit text role).nodes.size = cursor.nodes.size
      rw [emit_nodes, Array.size_modify]
    rw [hsize]
    rcases hv with hv | rfl
    · exact h.shaped.owner_lt v hv
    · exact current_lt h

namespace Placed

theorem openMethod (builder : ClassBuilder) (signature : String) :
    (builder.openMethod signature).Placed where
  shaped :=
    { tree := IsNumbering.singleton
      children_eq := by
        intro v node hv
        obtain ⟨hlt, rfl⟩ := Array.getElem?_eq_some_iff.mp hv
        obtain rfl : v = 0 := Nat.lt_one_iff.mp hlt
        rfl
      tokens_eq := by
        intro v node hv
        obtain ⟨hlt, rfl⟩ := Array.getElem?_eq_some_iff.mp hv
        obtain rfl : v = 0 := Nat.lt_one_iff.mp hlt
        rfl
      owner_lt := fun v hv => absurd hv List.not_mem_nil }
  ascends := trivial
  below := fun k hk => absurd hk List.not_mem_nil

/-- A push goes down to a node that is there. -/
theorem push (h : cursor.Placed) (kind : Kind) (callee : Option String) :
    (cursor.push kind callee).Placed where
  shaped := shaped_push h kind callee
  ascends := by
    rw [push_path, parents_push]
    refine ⟨?_, h.ascends.append _⟩
    rw [← length_parents, List.getElem?_concat_length]
    rfl
  below := by
    intro k hk v q hkv hq
    rw [push_path] at hk
    rw [parents_push] at hq
    have hv := (List.getElem?_eq_some_iff.mp hq).1
    rw [List.length_append, List.length_singleton] at hv
    rcases List.mem_cons.mp hk with rfl | hk
    · -- nothing comes behind the new node yet
      rw [length_parents] at hv
      omega
    · by_cases hnew : v < cursor.method.parents.length
      · rw [List.getElem?_append_left hnew] at hq
        exact h.below k hk v q hkv hq
      · obtain rfl : v = cursor.method.parents.length := by omega
        rw [List.getElem?_concat_length] at hq
        cases hq
        exact h.ascends.le_head h.shaped.tree hk

/-- A token goes to a node that is there. -/
theorem emit (h : cursor.Placed) (text : String) (role : Role) :
    (cursor.emit text role).Placed where
  shaped := shaped_emit h text role
  ascends := by
    rw [emit_path, parents_emit]
    exact h.ascends
  below := by
    rw [emit_path, parents_emit]
    exact h.below

/-- **Every move that can be made keeps the place.** -/
theorem move (h : cursor.Placed) {m : Move} {next : Cursor} (hm : cursor.move m = .ok next) :
    next.Placed := by
  rcases move_cases hm with ⟨kind, rfl, rfl⟩ | ⟨kind, callee, rfl, rfl⟩ |
    ⟨rfl, node, path, hpath, rfl⟩ | ⟨text, role, rfl, rfl⟩
  · exact h.push kind none
  · have hnoted :
        Placed { cursor with builder := cursor.builder.noteCall cursor.signature callee } :=
      ⟨h.shaped, h.ascends, h.below⟩
    exact hnoted.push kind (some callee)
  · have hascends := h.ascends
    have hbelow := h.below
    rw [hpath] at hascends hbelow
    exact ⟨h.shaped, hascends.2, fun k hk => hbelow k (List.mem_cons_of_mem node hk)⟩
  · exact h.emit text role

end Placed

end Cursor

end CodeGraph
