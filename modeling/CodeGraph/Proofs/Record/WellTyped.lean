/-
# Records are well-typed graphs

The labels of a record fall into sections of nodes, tokens, symbols and words, and its edges join
what the table of edge kinds says (`TrainingRecord.WellTyped`).  All records of a sound class are
such graphs (`ClassGraph.Sound.wellTyped`), and so are all records of a tree.
-/
import CodeGraph.Proofs.Build.Drive
import CodeGraph.Proofs.Record.Edges
import CodeGraph.Proofs.Record.OfGraph

namespace CodeGraph

/-! ## Well-typed records -/

/-- The sorts of things that edges of a kind join. -/
def EdgeKind.Joins : EdgeKind → Entity → Entity → Prop
  | .nextToken, source, target => source = .token ∧ target = .token
  | .child, source, target => source = .node ∧ (target = .node ∨ target = .token)
  | .occurrenceOf, source, target => source = .token ∧ target = .symbol
  | .subtokenOf, source, target => source = .word ∧ target = .token
  | .nextLexicalUse, source, target => source = .token ∧ target = .token
  | .assignedFrom, source, target => source = .token ∧ target = .node
  | .returnsTo, source, target => source = .node ∧ target = .token

namespace TrainingRecord

/-- The position lies in the section of a sort of things, where `n` nodes, `t` tokens and `s` symbols
come first and the words behind them. -/
def InSection (record : TrainingRecord) (n t s : Nat) : Entity → Nat → Prop
  | .node, p => p < n
  | .token, p => n ≤ p ∧ p < n + t
  | .symbol, p => n + t ≤ p ∧ p < n + t + s
  | .word, p => n + t + s ≤ p ∧ p < record.sourceTokens.length

/-- The edges with the code of a kind. -/
def edgesOf (record : TrainingRecord) (kind : EdgeKind) : List RecordEdge :=
  record.edges.filter (·.code = kind.code)

/-- One position is a child of another. -/
def IsChild (record : TrainingRecord) (parent child : Nat) : Prop :=
  ∃ e ∈ record.edgesOf .child, e.source = parent ∧ e.target = child

/-- The record is a well-typed graph with `n` nodes, `t` tokens and `s` symbols. -/
structure WellTyped (record : TrainingRecord) (n t s : Nat) : Prop where
  nodes_pos : 0 < n
  bound : n + t + s ≤ record.sourceTokens.length
  /-- Edges have the code and the name of one kind, and join what this kind joins. -/
  typed : ∀ e ∈ record.edges, ∃ kind, e = .ofKind e.source e.target kind ∧
    ∃ source target, kind.Joins source target ∧ record.InSection n t s source e.source ∧
      record.InSection n t s target e.target
  in_range : ∀ e ∈ record.edges,
    e.source < record.sourceTokens.length ∧ e.target < record.sourceTokens.length
  /-- Nodes and tokens other than the root have one parent, and nothing else has any. -/
  parents : ∀ p, (record.edgesOf .child).countP (·.target = p) = if 0 < p ∧ p < n + t then 1 else 0
  reachable : ∀ p < n + t, Relation.ReflTransGen record.IsChild 0 p
  /-- Tokens follow one another from the first to the last. -/
  path : record.edgesOf .nextToken =
    (List.range (t - 1)).map fun i => .ofKind (n + i) (n + (i + 1)) .nextToken
  nextUse : ∀ e ∈ record.edgesOf .nextLexicalUse, e.source < e.target ∧
    record.sourceTokens[e.source]? = record.sourceTokens[e.target]?
  occurrence : ∀ e ∈ record.edgesOf .occurrenceOf,
    record.sourceTokens[e.source]? = record.sourceTokens[e.target]?
  subtoken : ∀ e ∈ record.edgesOf .subtokenOf, ∃ word text,
    record.sourceTokens[e.source]? = some word ∧ record.sourceTokens[e.target]? = some text ∧
      word ∈ Text.subwords text
  /-- Returns go back to calls, which all call the same method. -/
  returns : ∃ callee, ∀ e ∈ record.edgesOf .returnsTo,
    record.sourceTokens[e.target]? = some "return" ∧
    ∃ kind : Kind, record.sourceTokens[e.source]? = some (kind.name ++ ":" ++ callee)

end TrainingRecord

/-! ## Records of a sound class -/

namespace ClassGraph

variable {graph : ClassGraph} {method : MethodGraph} {index : Nat}

/-- The edges of a kind in the record are those of the method. -/
theorem edgesOf_recordOf (h : method.Shaped) (kind : EdgeKind) :
    (graph.recordOf method index).edgesOf kind = method.edgesOfKind index kind :=
  h.filter_edgesIn index kind

/-- The position lies in the section of the record of the method. -/
def InSection (graph : ClassGraph) (method : MethodGraph) (index : Nat) : Entity → Nat → Prop :=
  (graph.recordOf method index).InSection method.nodes.size method.tokens.size method.symbols.size

/-- The sections of a record are as long as the method and the vocabulary tell. -/
theorem length_sourceTokens (h : method.Shaped) :
    (graph.recordOf method index).sourceTokens.length = method.nodes.size + method.tokens.size +
      method.symbols.size + graph.vocabulary.size :=
  h.length_labelsIn graph.vocabulary

/-- A node has its position in the first section. -/
theorem inSection_node (h : method.Shaped) {v : Nat} (hv : v < method.nodes.size) :
    graph.InSection method index .node (method.nodePosition v) := by
  rw [h.nodePosition_eq hv]
  exact hv

/-- A token has its position in the second section. -/
theorem inSection_token {i : Nat} (hi : i < method.tokens.size) :
    graph.InSection method index .token (method.tokenPosition i) :=
  ⟨Nat.le_add_right _ _, Nat.add_lt_add_left hi _⟩

/-- A symbol has its position in the third section. -/
theorem inSection_symbol {s : Nat} (hs : s < method.symbols.size) :
    graph.InSection method index .symbol (method.symbolPosition s) :=
  ⟨Nat.le_add_right _ _, Nat.add_lt_add_left hs _⟩

/-- A word has its position in the last section. -/
theorem inSection_word (h : method.Shaped) {w : Nat} (hw : w < graph.vocabulary.size) :
    graph.InSection method index .word (method.wordPosition w) := by
  refine ⟨Nat.le_add_right _ _, ?_⟩
  rw [length_sourceTokens h]
  exact Nat.add_lt_add_left hw _

/-- A position in a section is one of the record. -/
theorem lt_length_of_inSection (h : method.Shaped) {sort : Entity} {p : Nat}
    (hp : graph.InSection method index sort p) :
    p < (graph.recordOf method index).sourceTokens.length := by
  rw [length_sourceTokens h]
  cases sort with
  | node => exact Nat.lt_of_lt_of_le hp (by omega)
  | token => exact Nat.lt_of_lt_of_le hp.2 (by omega)
  | symbol => exact Nat.lt_of_lt_of_le hp.2 (by omega)
  | word =>
    rw [← length_sourceTokens h]
    exact hp.2

namespace Sound

/-- Edges join the sections that their kind prescribes. -/
theorem joins (h : graph.Sound) (hmethod : graph.methods[index]? = some method) {kind : EdgeKind}
    {e : RecordEdge} (he : e ∈ method.edgesOfKind index kind) :
    ∃ source target, kind.Joins source target ∧ graph.InSection method index source e.source ∧
      graph.InSection method index target e.target := by
  have hmem := List.mem_of_getElem? hmethod
  have hshaped := h.shaped method hmem
  have htoken : ∀ {i : Nat} {token : Token}, method.tokens[i]? = some token →
      graph.InSection method index .token (method.tokenPosition i) :=
    fun hi => inSection_token (Array.getElem?_eq_some_iff.mp hi).1
  cases kind with
  | nextToken =>
    obtain ⟨i, hi, rfl⟩ := MethodGraph.mem_nextTokenEdges.mp he
    exact ⟨.token, .token, ⟨rfl, rfl⟩, inSection_token (by omega), inSection_token hi⟩
  | child =>
    rcases List.mem_append.mp he with he | he
    · obtain ⟨i, v, hi, rfl⟩ := hshaped.mem_ownerEdges.mp he
      have hlt := (List.getElem?_eq_some_iff.mp hi).1
      rw [method.length_owners] at hlt
      exact ⟨.node, .token, ⟨rfl, Or.inr rfl⟩, hshaped.owner_lt v (List.mem_of_getElem? hi),
        inSection_token hlt⟩
    · obtain ⟨v, p, hp, rfl⟩ := hshaped.mem_parentEdges.mp he
      have hlt := (List.getElem?_eq_some_iff.mp hp).1
      rw [method.length_parents] at hlt
      exact ⟨.node, .node, ⟨rfl, Or.inl rfl⟩, Nat.lt_trans (hshaped.tree.lt_of_parent hp) hlt, hlt⟩
  | occurrenceOf =>
    obtain ⟨i, token, s, hi, hs, rfl⟩ := MethodGraph.mem_occurrenceEdges.mp he
    have hsymbol := (h.linked method hmem i token hi).symbol s hs
    exact ⟨.token, .symbol, ⟨rfl, rfl⟩, htoken hi,
      inSection_symbol (Array.getElem?_eq_some_iff.mp hsymbol).1⟩
  | subtokenOf =>
    obtain ⟨i, token, w, hi, hw, rfl⟩ := MethodGraph.mem_subtokenEdges.mp he
    obtain ⟨word, hword, -⟩ := (h.linked method hmem i token hi).vocabulary w hw
    exact ⟨.word, .token, ⟨rfl, rfl⟩,
      inSection_word hshaped (Array.getElem?_eq_some_iff.mp hword).1, htoken hi⟩
  | nextLexicalUse =>
    obtain ⟨i, token, j, hi, hj, rfl⟩ := MethodGraph.mem_nextUseEdges.mp he
    obtain ⟨-, htext⟩ := (h.linked method hmem i token hi).nextUse j hj
    exact ⟨.token, .token, ⟨rfl, rfl⟩, htoken hi, inSection_token (method.lt_size_of_texts htext)⟩
  | assignedFrom =>
    obtain ⟨i, token, n, hi, hn, rfl⟩ := MethodGraph.mem_assignedEdges.mp he
    exact ⟨.token, .node, ⟨rfl, rfl⟩, htoken hi,
      inSection_node hshaped ((h.linked method hmem i token hi).assignedFrom n hn)⟩
  | returnsTo =>
    obtain ⟨i, token, site, hi, hsite, rfl, rfl⟩ := MethodGraph.mem_returnEdges.mp he
    obtain ⟨-, node, hnode, -⟩ := h.returns method hmem i token hi site hsite
    obtain ⟨caller, hcaller, hnode⟩ := Option.bind_eq_some_iff.mp hnode
    obtain rfl : caller = method := Option.some.inj (hcaller.symm.trans hmethod)
    exact ⟨.node, .token, ⟨rfl, rfl⟩,
      inSection_node hshaped (Array.getElem?_eq_some_iff.mp hnode).1, htoken hi⟩

end Sound

/-- Each position is the target of as many edges to a child as it should be. -/
theorem countP_children (h : method.Shaped) (p : Nat) :
    ((graph.recordOf method index).edgesOf .child).countP (·.target = p) =
      if 0 < p ∧ p < method.nodes.size + method.tokens.size then 1 else 0 := by
  have hcount := h.targets_children.count_eq p
  rw [List.count_range_1', List.count, List.countP_map] at hcount
  have hmem : 1 ≤ p ∧ p < 1 + (method.nodes.size + method.tokens.size - 1) ↔
      0 < p ∧ p < method.nodes.size + method.tokens.size := by
    have hsize := h.size_pos
    omega
  rw [edgesOf_recordOf h, ← if_congr hmem rfl rfl, ← hcount]
  exact List.countP_congr fun e _ => by
    rw [Function.comp_apply, decide_eq_true_eq, beq_iff_eq]

/-- All nodes hang below the root. -/
theorem reachable_node (h : method.Shaped) (v : Nat) (hv : v < method.nodes.size) :
    Relation.ReflTransGen (graph.recordOf method index).IsChild 0 v := by
  induction v using Nat.strongRecOn with
  | ind v ih =>
    rcases Nat.eq_zero_or_pos v with rfl | hpos
    · exact .refl
    · obtain ⟨p, hp, hpv⟩ := h.tree.parent_lt v hpos (by rw [method.length_parents]; exact hv)
      refine (ih p hpv (Nat.lt_trans hpv hv)).tail ⟨.ofKind p v .child, ?_, rfl, rfl⟩
      rw [edgesOf_recordOf h]
      exact List.mem_append_right _ (h.mem_parentEdges.mpr ⟨v, p, hp, rfl⟩)

/-- All tokens hang below the root. -/
theorem reachable_token (h : method.Shaped) (i : Nat) (hi : i < method.tokens.size) :
    Relation.ReflTransGen (graph.recordOf method index).IsChild 0 (method.tokenPosition i) := by
  rw [← method.length_owners] at hi
  have howner := List.getElem?_eq_getElem hi
  refine (reachable_node h method.owners[i] (h.owner_lt _ (List.getElem_mem hi))).tail
    ⟨.ofKind method.owners[i] (method.tokenPosition i) .child, ?_, rfl, rfl⟩
  rw [edgesOf_recordOf h]
  exact List.mem_append_left _ (h.mem_ownerEdges.mpr ⟨i, _, howner, rfl⟩)

/-- Nodes and tokens hang below the root. -/
theorem reachable_of_lt (h : method.Shaped) (p : Nat)
    (hp : p < method.nodes.size + method.tokens.size) :
    Relation.ReflTransGen (graph.recordOf method index).IsChild 0 p := by
  rcases Nat.lt_or_ge p method.nodes.size with hnode | htoken
  · exact reachable_node h p hnode
  · have hi : p - method.nodes.size < method.tokens.size := by omega
    have hreach : Relation.ReflTransGen (graph.recordOf method index).IsChild 0
        (method.tokenPosition (p - method.nodes.size)) := reachable_token h _ hi
    rw [MethodGraph.tokenPosition, Nat.add_sub_cancel' htoken] at hreach
    exact hreach

/-- The label of a token is its text. -/
theorem label_token (h : method.Shaped) {i : Nat} {token : Token}
    (hi : method.tokens[i]? = some token) :
    (graph.recordOf method index).sourceTokens[method.tokenPosition i]? = some token.text := by
  refine h.getElem?_labelsIn_token ?_
  rw [method.getElem?_texts, hi]
  rfl

namespace Sound

variable {e : RecordEdge}

/-- The next use of a token comes later and has the same label. -/
theorem labels_nextUse (h : graph.Sound) (hmethod : graph.methods[index]? = some method)
    (he : e ∈ (graph.recordOf method index).edgesOf .nextLexicalUse) :
    e.source < e.target ∧ (graph.recordOf method index).sourceTokens[e.source]? =
      (graph.recordOf method index).sourceTokens[e.target]? := by
  have hmem := List.mem_of_getElem? hmethod
  have hshaped := h.shaped method hmem
  rw [edgesOf_recordOf hshaped] at he
  obtain ⟨i, token, j, hi, hj, rfl⟩ := MethodGraph.mem_nextUseEdges.mp he
  obtain ⟨hij, hnext⟩ := (h.linked method hmem i token hi).nextUse j hj
  refine ⟨Nat.add_lt_add_left hij _, ?_⟩
  show _[method.tokenPosition i]? = _[method.tokenPosition j]?
  rw [label_token hshaped hi]
  exact (hshaped.getElem?_labelsIn_token hnext).symm

/-- A symbol has the label of its tokens. -/
theorem labels_occurrence (h : graph.Sound) (hmethod : graph.methods[index]? = some method)
    (he : e ∈ (graph.recordOf method index).edgesOf .occurrenceOf) :
    (graph.recordOf method index).sourceTokens[e.source]? =
      (graph.recordOf method index).sourceTokens[e.target]? := by
  have hmem := List.mem_of_getElem? hmethod
  have hshaped := h.shaped method hmem
  rw [edgesOf_recordOf hshaped] at he
  obtain ⟨i, token, s, hi, hs, rfl⟩ := MethodGraph.mem_occurrenceEdges.mp he
  have hsymbol := (h.linked method hmem i token hi).symbol s hs
  show _[method.tokenPosition i]? = _[method.symbolPosition s]?
  rw [label_token hshaped hi]
  exact (hshaped.getElem?_labelsIn_symbol hsymbol).symm

/-- A word is one of the words of the token that it is in. -/
theorem labels_subtoken (h : graph.Sound) (hmethod : graph.methods[index]? = some method)
    (he : e ∈ (graph.recordOf method index).edgesOf .subtokenOf) :
    ∃ word text, (graph.recordOf method index).sourceTokens[e.source]? = some word ∧
      (graph.recordOf method index).sourceTokens[e.target]? = some text ∧
      word ∈ Text.subwords text := by
  have hmem := List.mem_of_getElem? hmethod
  have hshaped := h.shaped method hmem
  rw [edgesOf_recordOf hshaped] at he
  obtain ⟨i, token, w, hi, hw, rfl⟩ := MethodGraph.mem_subtokenEdges.mp he
  obtain ⟨word, hword, hsub⟩ := (h.linked method hmem i token hi).vocabulary w hw
  exact ⟨word, token.text, hshaped.getElem?_labelsIn_word hword, label_token hshaped hi, hsub⟩

/-- The call site of a return in the method itself has the label of a call. -/
theorem label_callSite (h : graph.Sound) (hmethod : graph.methods[index]? = some method)
    {i : Nat} {token : Token} (hi : method.tokens[i]? = some token) {site : CallSite}
    (hsite : site ∈ token.returnsTo) (hindex : site.method = index) :
    token.text = "return" ∧ ∃ node : NonTerminal, method.nodes[site.node]? = some node ∧
      node.label = node.kind.name ++ ":" ++ method.signature := by
  obtain ⟨hreturn, node, hnode, hcallee⟩ :=
    h.returns method (List.mem_of_getElem? hmethod) i token hi site hsite
  obtain ⟨caller, hcaller, hnode⟩ := Option.bind_eq_some_iff.mp hnode
  rw [hindex] at hcaller
  obtain rfl : caller = method := Option.some.inj (hcaller.symm.trans hmethod)
  refine ⟨beq_iff_eq.mp hreturn, node, hnode, ?_⟩
  rw [NonTerminal.label, hcallee]

/-- Returns go back to calls of the method. -/
theorem labels_returns (h : graph.Sound) (hmethod : graph.methods[index]? = some method)
    (he : e ∈ (graph.recordOf method index).edgesOf .returnsTo) :
    (graph.recordOf method index).sourceTokens[e.target]? = some "return" ∧
      ∃ kind : Kind, (graph.recordOf method index).sourceTokens[e.source]? =
        some (kind.name ++ ":" ++ method.signature) := by
  have hshaped := h.shaped method (List.mem_of_getElem? hmethod)
  rw [edgesOf_recordOf hshaped] at he
  obtain ⟨i, token, site, hi, hsite, hindex, rfl⟩ := MethodGraph.mem_returnEdges.mp he
  obtain ⟨hreturn, node, hnode, hlabel⟩ := h.label_callSite hmethod hi hsite hindex
  refine ⟨hreturn ▸ label_token hshaped hi, node.kind, ?_⟩
  show _[method.nodePosition site.node]? = _
  rw [hshaped.nodePosition_eq (Array.getElem?_eq_some_iff.mp hnode).1, ← hlabel]
  exact hshaped.getElem?_labelsIn_node hnode

/-- **The records of a sound class are well-typed graphs.** -/
theorem wellTyped (h : graph.Sound) (hmethod : graph.methods[index]? = some method) :
    (graph.recordOf method index).WellTyped method.nodes.size method.tokens.size
      method.symbols.size := by
  have hshaped := h.shaped method (List.mem_of_getElem? hmethod)
  have htyped : ∀ e ∈ (graph.recordOf method index).edges, ∃ kind,
      e = .ofKind e.source e.target kind ∧ ∃ source target, kind.Joins source target ∧
        graph.InSection method index source e.source ∧
        graph.InSection method index target e.target := by
    intro e he
    obtain ⟨kind, hkind, heq⟩ := hshaped.exists_of_mem_edgesIn he
    exact ⟨kind, heq, h.joins hmethod hkind⟩
  refine
    { nodes_pos := hshaped.size_pos
      bound := ?_
      typed := htyped
      in_range := ?_
      parents := countP_children hshaped
      reachable := reachable_of_lt hshaped
      path := edgesOf_recordOf hshaped .nextToken
      nextUse := fun e he => h.labels_nextUse hmethod he
      occurrence := fun e he => h.labels_occurrence hmethod he
      subtoken := fun e he => h.labels_subtoken hmethod he
      returns := ⟨method.signature, fun e he => h.labels_returns hmethod he⟩ }
  · rw [length_sourceTokens hshaped]
    exact Nat.le_add_right _ _
  · intro e he
    obtain ⟨-, -, source, target, -, hsource, htarget⟩ := htyped e he
    exact ⟨lt_length_of_inSection hshaped hsource, lt_length_of_inSection hshaped htarget⟩

end Sound

end ClassGraph

/-! ## Records of a tree -/

namespace Tree

/-- **Every record of a tree is a well-typed graph.**  If a tree gives the graph of a class, then
unless the numbers run out a walk over the class gives a record of each method, which is a well-typed
graph with as many nodes, tokens and symbols as the method has. -/
theorem exists_wellTyped_records {tree : Tree} {graph : ClassGraph}
    (h : tree.classGraph? = .ok (some graph)) {ids : IdSequence}
    (hids : graph.walk ids ≠ .error .idsExhausted) :
    ∃ events rest records, graph.walk ids = .ok (events, rest) ∧
      recordsOf? events = some records ∧
      List.Forall₂ (fun method record => TrainingRecord.WellTyped record method.nodes.size
        method.tokens.size method.symbols.size) graph.methods records := by
  obtain ⟨builder, hrun, rfl⟩ := exists_isRun_of_classGraph? h
  obtain ⟨events, rest, hwalk, hrecords⟩ := hrun.sound.exists_records hids
  exact ⟨events, rest, _, hwalk, hrecords,
    ClassGraph.forall₂_recordOf fun _ _ hmethod => hrun.sound.wellTyped hmethod⟩

/-- The records of the class that holds a method in a method: `f:0` has three nodes, two tokens and a
symbol, and `g:0` a node, a token and a symbol. -/
theorem exists_wellTyped_records_nesting :
    (nestingTree.classGraph? = .ok (some nestingGraph) ∧
      nestingGraph.walk .fresh ≠ .error .idsExhausted) ∧
    ∃ events rest first second, nestingGraph.walk .fresh = .ok (events, rest) ∧
      recordsOf? events = some [first, second] ∧
      first.WellTyped 3 2 1 ∧ second.WellTyped 1 1 1 := by
  have hwalk : nestingGraph.walk .fresh ≠ .error .idsExhausted :=
    ne_error_of_toBool (by decide +kernel) _
  obtain ⟨events, rest, records, hevents, hrecords, hall⟩ :=
    exists_wellTyped_records classGraph?_nestingTree hwalk
  cases hall with
  | cons hfirst hall =>
    cases hall with
    | cons hsecond hall =>
      cases hall
      exact ⟨⟨classGraph?_nestingTree, hwalk⟩, events, rest, _, _, hevents, hrecords, hfirst,
        hsecond⟩

end Tree

end CodeGraph
