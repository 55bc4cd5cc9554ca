/-
# The edges of a record

What the labels and the edges of a record say about the method, kind of edge by kind of edge
(`MethodGraph.filter_edgesIn`): which edges there are of a kind, and where their ends lie.
-/
import CodeGraph.Proofs.Build.Sites
import CodeGraph.Proofs.Record.Positions

namespace CodeGraph

/-! ## Edges of one kind -/

theorem EdgeKind.code_inj {kind other : EdgeKind} (h : kind.code = other.code) : kind = other := by
  have hcode := EdgeKind.ofCode?_code kind
  rw [h, EdgeKind.ofCode?_code] at hcode
  exact (Option.some.inj hcode).symm

/-- All edges are of the given kind. -/
def AllOfKind (kind : EdgeKind) (edges : List RecordEdge) : Prop :=
  ∀ e ∈ edges, e = .ofKind e.source e.target kind

namespace AllOfKind

variable {kind other : EdgeKind} {edges : List RecordEdge}

/-- Edges of one kind are all kept when edges of this kind are asked for. -/
theorem filter_self (h : AllOfKind kind edges) :
    edges.filter (·.code = kind.code) = edges := by
  refine List.filter_eq_self.mpr fun e he => decide_eq_true ?_
  rw [h e he]
  rfl

/-- No edge of one kind is kept when edges of another are asked for. -/
theorem filter_other (h : AllOfKind kind edges) (hne : kind ≠ other) :
    edges.filter (·.code = other.code) = [] := by
  refine List.filter_eq_nil_iff.mpr fun e he => ?_
  rw [h e he, decide_eq_true_eq]
  exact fun hcode => hne (EdgeKind.code_inj hcode)

theorem filter_eq (h : AllOfKind kind edges) (other : EdgeKind) :
    edges.filter (·.code = other.code) = if kind = other then edges else [] := by
  split
  · next heq => exact heq ▸ h.filter_self
  · next hne => exact h.filter_other hne

end AllOfKind

namespace MethodGraph

variable {method : MethodGraph} {e : RecordEdge}

/-! ## What the edges join -/

/-- A token is followed by the one behind it. -/
theorem mem_nextTokenEdges : e ∈ method.nextTokenEdges ↔ ∃ i, i + 1 < method.tokens.size ∧
    e = .ofKind (method.tokenPosition i) (method.tokenPosition (i + 1)) .nextToken := by
  rw [nextTokenEdges, List.mem_map]
  constructor
  · rintro ⟨i, hi, rfl⟩
    rw [List.mem_range] at hi
    exact ⟨i, by omega, rfl⟩
  · rintro ⟨i, hi, rfl⟩
    exact ⟨i, List.mem_range.mpr (by omega), rfl⟩

/-- An edge that is drawn for the tokens is drawn for one of them. -/
theorem mem_tokenLinks {links : Nat → Token → List RecordEdge} :
    e ∈ method.tokenLinks links ↔
      ∃ i token, method.tokens[i]? = some token ∧ e ∈ links i token := by
  rw [tokenLinks, List.mem_flatMap]
  constructor
  · rintro ⟨⟨token, i⟩, hmem, he⟩
    have htoken := List.mk_mem_zipIdx_iff_getElem?.mp hmem
    rw [Array.getElem?_toList] at htoken
    exact ⟨i, token, htoken, he⟩
  · rintro ⟨i, token, htoken, he⟩
    refine ⟨(token, i), List.mk_mem_zipIdx_iff_getElem?.mpr ?_, he⟩
    rw [Array.getElem?_toList]
    exact htoken

/-- The edges of tokens that have one for each of some members. -/
theorem mem_tokenLinks_map {α : Type} {members : Token → List α}
    {edge : Nat → α → RecordEdge} :
    e ∈ method.tokenLinks (fun i token => (members token).map (edge i)) ↔
      ∃ i token x, method.tokens[i]? = some token ∧ x ∈ members token ∧ e = edge i x := by
  simp only [mem_tokenLinks, List.mem_map]
  constructor
  · rintro ⟨i, token, hi, x, hx, rfl⟩
    exact ⟨i, token, x, hi, hx, rfl⟩
  · rintro ⟨i, token, x, hi, hx, rfl⟩
    exact ⟨i, token, hi, x, hx, rfl⟩

theorem mem_occurrenceEdges : e ∈ method.occurrenceEdges ↔ ∃ i token s,
    method.tokens[i]? = some token ∧ token.symbol = some s ∧
      e = .ofKind (method.tokenPosition i) (method.symbolPosition s) .occurrenceOf := by
  simp only [occurrenceEdges, mem_tokenLinks_map, Option.mem_toList]

/-- A word is part of each token that is spelt with it. -/
theorem mem_subtokenEdges : e ∈ method.subtokenEdges ↔ ∃ i token w,
    method.tokens[i]? = some token ∧ w ∈ token.vocabulary ∧
      e = .ofKind (method.wordPosition w) (method.tokenPosition i) .subtokenOf :=
  mem_tokenLinks_map

theorem mem_nextUseEdges : e ∈ method.nextUseEdges ↔ ∃ i token j,
    method.tokens[i]? = some token ∧ token.nextUse = some j ∧
      e = .ofKind (method.tokenPosition i) (method.tokenPosition j) .nextLexicalUse := by
  simp only [nextUseEdges, mem_tokenLinks_map, Option.mem_toList]

/-- A target leads to the value that is assigned to it. -/
theorem mem_assignedEdges : e ∈ method.assignedEdges ↔ ∃ i token n,
    method.tokens[i]? = some token ∧ token.assignedFrom = some n ∧
      e = .ofKind (method.tokenPosition i) (method.nodePosition n) .assignedFrom := by
  simp only [assignedEdges, mem_tokenLinks_map, Option.mem_toList]

/-- A call in the method itself leads to the return tokens that record it. -/
theorem mem_returnEdges {index : Nat} : e ∈ method.returnEdges index ↔ ∃ i token site,
    method.tokens[i]? = some token ∧ site ∈ token.returnsTo ∧ site.method = index ∧
      e = .ofKind (method.nodePosition site.node) (method.tokenPosition i) .returnsTo := by
  simp only [returnEdges, mem_tokenLinks_map, List.mem_filter, decide_eq_true_eq, and_assoc]

namespace Shaped

/-- The edges to tokens, node by node, are those of the owners. -/
theorem ownerEdges_eq (h : method.Shaped) : method.ownerEdges =
    (List.range method.nodes.size).flatMap fun v =>
      (method.owners.idxsOf v).map fun i => .ofKind v (method.tokenPosition i) .child := by
  rw [ownerEdges, h.preorder_eq]
  refine List.flatMap_congr fun v hv => ?_
  rw [List.mem_range] at hv
  rw [Array.getElem?_eq_getElem hv, Option.map_some, Option.getD_some, h.nodePosition_eq hv,
    h.tokens_eq v _ (Array.getElem?_eq_getElem hv)]

theorem mem_ownerEdges (h : method.Shaped) : e ∈ method.ownerEdges ↔ ∃ i v,
    method.owners[i]? = some v ∧ e = .ofKind v (method.tokenPosition i) .child := by
  simp only [h.ownerEdges_eq, List.mem_flatMap, List.mem_map, mem_idxsOf_iff, List.mem_range]
  constructor
  · rintro ⟨v, -, i, hi, rfl⟩
    exact ⟨i, v, hi, rfl⟩
  · rintro ⟨i, v, hi, rfl⟩
    exact ⟨v, h.owner_lt v (List.mem_of_getElem? hi), i, hi, rfl⟩

/-- Each node but the root has one edge from its parent, in the order of the nodes. -/
theorem parentEdges_eq (h : method.Shaped) : method.parentEdges =
    (List.range' 1 (method.nodes.size - 1)).map fun v =>
      .ofKind ((method.parents[v]?.join).getD 0) v .child := by
  rw [parentEdges, h.preorder_eq, List.range_eq_range', List.drop_range', Nat.zero_add, Nat.one_mul]
  refine List.filterMap_eq_map_iff_forall_eq_some.mpr fun v hv => ?_
  rw [List.mem_range'_1] at hv
  have hlt : v < method.nodes.size := by omega
  obtain ⟨p, hp, hpv⟩ := h.tree.parent_lt v (by omega) (by rw [length_parents]; omega)
  have hparent : method.nodes[v].parent = some p := by
    rw [getElem?_parents, Array.getElem?_eq_getElem hlt, Option.map_some, Option.some.injEq] at hp
    exact hp
  rw [hp, Array.getElem?_eq_getElem hlt]
  simp only [Option.bind_eq_bind, Option.bind_some, hparent, Option.join_some, Option.getD_some]
  rw [h.nodePosition_eq (by omega), h.nodePosition_eq hlt]
  rfl

theorem mem_parentEdges (h : method.Shaped) : e ∈ method.parentEdges ↔ ∃ v p,
    method.parents[v]? = some (some p) ∧ e = .ofKind p v .child := by
  rw [h.parentEdges_eq, List.mem_map]
  constructor
  · rintro ⟨v, hv, rfl⟩
    rw [List.mem_range'_1] at hv
    obtain ⟨p, hp, -⟩ := h.tree.parent_lt v (by omega) (by rw [length_parents]; omega)
    refine ⟨v, p, hp, ?_⟩
    rw [hp]
    rfl
  · rintro ⟨v, p, hp, rfl⟩
    have hpos := h.tree.lt_of_parent hp
    have hlt := (List.getElem?_eq_some_iff.mp hp).1
    rw [length_parents] at hlt
    refine ⟨v, List.mem_range'_1.mpr ⟨by omega, by omega⟩, ?_⟩
    rw [hp]
    rfl

/-! ## Every node and token has one parent -/

/-- Each token is owned once. -/
theorem perm_idxsOf_owners (h : method.Shaped) :
    ((List.range method.nodes.size).flatMap fun v => method.owners.idxsOf v).Perm
      (List.range method.tokens.size) := by
  refine (List.perm_ext_iff_of_nodup ?_ List.nodup_range).mpr fun i => ?_
  · refine List.nodup_flatMap.mpr ⟨fun v _ => List.nodup_idxsOf, ?_⟩
    -- no token is among those of two nodes, since it has one owner
    refine List.nodup_range.imp fun {v w} hne i hv hw => hne ?_
    rw [mem_idxsOf_iff] at hv hw
    exact Option.some.inj (hv.symm.trans hw)
  · rw [List.mem_flatMap, List.mem_range, ← method.length_owners]
    constructor
    · rintro ⟨v, -, hi⟩
      exact (List.getElem?_eq_some_iff.mp (mem_idxsOf_iff.mp hi)).1
    · intro hi
      have howner := List.getElem?_eq_getElem hi
      exact ⟨method.owners[i], List.mem_range.mpr (h.owner_lt _ (List.getElem_mem hi)),
        mem_idxsOf_iff.mpr howner⟩

/-- Every token is the target of one edge from an owner. -/
theorem targets_ownerEdges (h : method.Shaped) :
    (method.ownerEdges.map RecordEdge.target).Perm
      (List.range' method.nodes.size method.tokens.size) := by
  have heq : method.ownerEdges.map RecordEdge.target =
      ((List.range method.nodes.size).flatMap fun v => method.owners.idxsOf v).map
        method.tokenPosition := by
    rw [h.ownerEdges_eq, List.map_flatMap, List.map_flatMap]
    refine List.flatMap_congr fun v _ => ?_
    rw [List.map_map]
    rfl
  rw [heq, List.range'_eq_map_range]
  exact h.perm_idxsOf_owners.map _

/-- **Each position of a node or token but the root is the target of one edge to a child.** -/
theorem targets_children (h : method.Shaped) :
    ((method.ownerEdges ++ method.parentEdges).map RecordEdge.target).Perm
      (List.range' 1 (method.nodes.size + method.tokens.size - 1)) := by
  have hparents : method.parentEdges.map RecordEdge.target =
      List.range' 1 (method.nodes.size - 1) := by
    rw [h.parentEdges_eq, List.map_map]
    exact List.map_id _
  have hsize := h.size_pos
  have hsplit : List.range' 1 (method.nodes.size + method.tokens.size - 1) =
      List.range' 1 (method.nodes.size - 1) ++
        List.range' method.nodes.size method.tokens.size := by
    rw [show method.nodes.size + method.tokens.size - 1 =
        method.nodes.size - 1 + method.tokens.size by omega, ← List.range'_append_1,
      show 1 + (method.nodes.size - 1) = method.nodes.size by omega]
  rw [List.map_append, hparents, hsplit]
  exact (h.targets_ownerEdges.append_right _).trans List.perm_append_comm

end Shaped

/-! ## Edges by their codes -/

/-- The edges of one kind. -/
def edgesOfKind (method : MethodGraph) (index : Nat) : EdgeKind → List RecordEdge
  | .nextToken => method.nextTokenEdges
  | .child => method.ownerEdges ++ method.parentEdges
  | .occurrenceOf => method.occurrenceEdges
  | .subtokenOf => method.subtokenEdges
  | .nextLexicalUse => method.nextUseEdges
  | .assignedFrom => method.assignedEdges
  | .returnsTo => method.returnEdges index

namespace Shaped

/-- The edges of a kind have the code of this kind. -/
theorem allOfKind (h : method.Shaped) (index : Nat) (kind : EdgeKind) :
    AllOfKind kind (method.edgesOfKind index kind) := by
  intro e he
  cases kind with
  | nextToken =>
    obtain ⟨i, -, rfl⟩ := mem_nextTokenEdges.mp he
    rfl
  | child =>
    rcases List.mem_append.mp he with he | he
    · obtain ⟨i, v, -, rfl⟩ := h.mem_ownerEdges.mp he
      rfl
    · obtain ⟨v, p, -, rfl⟩ := h.mem_parentEdges.mp he
      rfl
  | occurrenceOf =>
    obtain ⟨i, token, s, -, -, rfl⟩ := mem_occurrenceEdges.mp he
    rfl
  | subtokenOf =>
    obtain ⟨i, token, w, -, -, rfl⟩ := mem_subtokenEdges.mp he
    rfl
  | nextLexicalUse =>
    obtain ⟨i, token, j, -, -, rfl⟩ := mem_nextUseEdges.mp he
    rfl
  | assignedFrom =>
    obtain ⟨i, token, n, -, -, rfl⟩ := mem_assignedEdges.mp he
    rfl
  | returnsTo =>
    obtain ⟨i, token, site, -, -, -, rfl⟩ := mem_returnEdges.mp he
    rfl

/-- The edges of a method are listed kind by kind. -/
theorem edgesIn_eq (method : MethodGraph) (index : Nat) :
    method.edgesIn index = EdgeKind.all.flatMap (method.edgesOfKind index) := by
  rw [edgesIn]
  simp only [EdgeKind.all, List.flatMap_cons, List.flatMap_nil, edgesOfKind, List.append_nil,
    List.append_assoc]

/-- **The code of an edge tells in which part of the edges it is.** -/
theorem filter_edgesIn (h : method.Shaped) (index : Nat) (kind : EdgeKind) :
    (method.edgesIn index).filter (·.code = kind.code) = method.edgesOfKind index kind := by
  have hparts : (method.edgesIn index).filter (·.code = kind.code) =
      EdgeKind.all.flatMap fun other => if other = kind then method.edgesOfKind index other
        else [] := by
    rw [edgesIn_eq, List.filter_flatMap]
    exact List.flatMap_congr fun other _ => (h.allOfKind index other).filter_eq kind
  -- of all kinds only one part is left
  rw [hparts]
  cases kind <;> exact List.append_nil _

/-- An edge of a method is of the kind that it is listed under. -/
theorem exists_of_mem_edgesIn (h : method.Shaped) {index : Nat} (he : e ∈ method.edgesIn index) :
    ∃ kind, e ∈ method.edgesOfKind index kind ∧ e = .ofKind e.source e.target kind := by
  rw [edgesIn_eq, List.mem_flatMap] at he
  obtain ⟨kind, -, he⟩ := he
  exact ⟨kind, he, h.allOfKind index kind e he⟩

end Shaped

/-! ## Labels by their positions -/

variable {words : Array String}

/-- Labels in the middle section of three. -/
theorem getElem?_section {xs ys zs : List String} {n i : Nat} {label : String}
    (hn : xs.length = n) (hi : ys[i]? = some label) : (xs ++ ys ++ zs)[n + i]? = some label := by
  have hlt := (List.getElem?_eq_some_iff.mp hi).1
  rw [List.append_assoc, List.getElem?_append_right (by omega), hn, Nat.add_sub_cancel_left,
    List.getElem?_append_left hlt]
  exact hi

theorem length_labels (method : MethodGraph) :
    (method.nodes.toList.map NonTerminal.label).length = method.nodes.size := by
  rw [List.length_map, Array.length_toList]

namespace Shaped

theorem getElem?_labelsIn_node (h : method.Shaped) {v : Nat} {node : NonTerminal}
    (hv : method.nodes[v]? = some node) : (method.labelsIn words)[v]? = some node.label := by
  have hget : (method.nodes.toList.map NonTerminal.label)[v]? = some node.label := by
    rw [List.getElem?_map, Array.getElem?_toList, hv]
    rfl
  have hlt := (List.getElem?_eq_some_iff.mp hget).1
  rw [h.labelsIn_eq, List.append_assoc, List.append_assoc, List.getElem?_append_left hlt]
  exact hget

/-- Behind the nodes there are the texts of the tokens. -/
theorem getElem?_labelsIn_token (h : method.Shaped) {i : Nat} {text : String}
    (hi : method.texts[i]? = some text) :
    (method.labelsIn words)[method.tokenPosition i]? = some text := by
  rw [h.labelsIn_eq, List.append_assoc (_ ++ _)]
  exact getElem?_section method.length_labels hi

/-- Behind the tokens there are the names of the symbols. -/
theorem getElem?_labelsIn_symbol (h : method.Shaped) {s : Nat} {name : String}
    (hs : method.symbols[s]? = some name) :
    (method.labelsIn words)[method.symbolPosition s]? = some name := by
  have hlength : (method.nodes.toList.map NonTerminal.label ++ method.texts).length =
      method.nodes.size + method.tokens.size := by
    rw [List.length_append, method.length_labels, method.length_texts]
  rw [← Array.getElem?_toList] at hs
  rw [h.labelsIn_eq]
  exact getElem?_section hlength hs

theorem getElem?_labelsIn_word (h : method.Shaped) {w : Nat} {word : String}
    (hw : words[w]? = some word) :
    (method.labelsIn words)[method.wordPosition w]? = some word := by
  have hlength : (method.nodes.toList.map NonTerminal.label ++ method.texts ++
      method.symbols.toList).length =
      method.nodes.size + method.tokens.size + method.symbols.size := by
    rw [List.length_append, List.length_append, method.length_labels, method.length_texts,
      Array.length_toList]
  rw [← Array.getElem?_toList] at hw
  rw [h.labelsIn_eq, ← List.append_nil (_ ++ words.toList)]
  exact getElem?_section hlength hw

end Shaped

end MethodGraph

end CodeGraph
