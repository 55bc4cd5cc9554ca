/-
# Positions in a record

What the record of a method should be, read off the graph of the method without a walk:
`MethodGraph.labelsIn` lists the labels section by section, and `MethodGraph.edgesIn` the edges kind
by kind, between the positions of their ends.
-/
import CodeGraph.Proofs.Build.Links
import CodeGraph.Record.Basic

namespace CodeGraph

/-- What a lookup by number finds, for all numbers of a table. -/
theorem map_range_getD {α β : Type} (xs : Array α) (f : α → β) (default : β) :
    ((List.range xs.size).map fun i => (xs[i]?.map f).getD default) = xs.toList.map f := by
  refine List.ext_getElem ?_ fun i hi _ => ?_
  · rw [List.length_map, List.length_range, List.length_map, Array.length_toList]
  · rw [List.length_map, List.length_range] at hi
    rw [List.getElem_map, List.getElem_range, Array.getElem?_eq_getElem hi, List.getElem_map,
      Array.getElem_toList]
    rfl

theorem map_range_getD_id {α : Type} (xs : Array α) (default : α) :
    ((List.range xs.size).map fun i => xs[i]?.getD default) = xs.toList := by
  have hid := map_range_getD xs id default
  simp only [Option.map_id_fun, id_eq, List.map_id_fun] at hid
  exact hid

namespace MethodGraph

variable (method : MethodGraph)

/-- The position of a node: its place in the walk from the root. -/
def nodePosition (v : Nat) : Nat := method.preorder.idxOf v

/-- The position of a token: tokens come behind the nodes. -/
def tokenPosition (i : Nat) : Nat := method.nodes.size + i

/-- The position of a symbol: symbols come behind the tokens. -/
def symbolPosition (s : Nat) : Nat := method.nodes.size + method.tokens.size + s

/-- The position of a word of the class: words come last. -/
def wordPosition (w : Nat) : Nat :=
  method.nodes.size + method.tokens.size + method.symbols.size + w

/-- The labels of nodes, tokens, symbols and words. -/
def labelsIn (words : Array String) : List String :=
  method.preorder.filterMap (fun v => method.nodes[v]?.map NonTerminal.label) ++
    method.texts ++ method.symbols.toList ++ words.toList

/-- From each token to the next one. -/
def nextTokenEdges : List RecordEdge :=
  (List.range (method.tokens.size - 1)).map fun i =>
    .ofKind (method.tokenPosition i) (method.tokenPosition (i + 1)) .nextToken

/-- From each node to the tokens it owns. -/
def ownerEdges : List RecordEdge :=
  method.preorder.flatMap fun v =>
    ((method.nodes[v]?.map NonTerminal.tokens).getD []).map fun t =>
      .ofKind (method.nodePosition v) (method.tokenPosition t) .child

/-- To each node but the root from its parent. -/
def parentEdges : List RecordEdge :=
  (method.preorder.drop 1).filterMap fun v => do
    let parent ← (← method.nodes[v]?).parent
    return .ofKind (method.nodePosition parent) (method.nodePosition v) .child

/-- The edges of all tokens, where `links` gives those of one. -/
def tokenLinks (links : Nat → Token → List RecordEdge) : List RecordEdge :=
  method.tokens.toList.zipIdx.flatMap fun (token, i) => links i token

/-- From each token to its symbol. -/
def occurrenceEdges : List RecordEdge :=
  method.tokenLinks fun i token => token.symbol.toList.map fun s =>
    .ofKind (method.tokenPosition i) (method.symbolPosition s) .occurrenceOf

/-- To each token from its words. -/
def subtokenEdges : List RecordEdge :=
  method.tokenLinks fun i token => token.vocabulary.map fun w =>
    .ofKind (method.wordPosition w) (method.tokenPosition i) .subtokenOf

/-- From each token to its next use. -/
def nextUseEdges : List RecordEdge :=
  method.tokenLinks fun i token => token.nextUse.toList.map fun j =>
    .ofKind (method.tokenPosition i) (method.tokenPosition j) .nextLexicalUse

/-- From each token to the node of its value. -/
def assignedEdges : List RecordEdge :=
  method.tokenLinks fun i token => token.assignedFrom.toList.map fun n =>
    .ofKind (method.tokenPosition i) (method.nodePosition n) .assignedFrom

/-- To each return from its call sites in the method itself, which has the given number. -/
def returnEdges (index : Nat) : List RecordEdge :=
  method.tokenLinks fun i token => (token.returnsTo.filter (·.method = index)).map fun site =>
    .ofKind (method.nodePosition site.node) (method.tokenPosition i) .returnsTo

/-- The edges of the method with the given number, kind by kind. -/
def edgesIn (index : Nat) : List RecordEdge :=
  method.nextTokenEdges ++ method.ownerEdges ++ method.parentEdges ++ method.occurrenceEdges ++
    method.subtokenEdges ++ method.nextUseEdges ++ method.assignedEdges ++
    method.returnEdges index

/-- Nodes are at the positions of their numbers. -/
theorem Shaped.nodePosition_eq {method : MethodGraph} (h : method.Shaped) {v : Nat}
    (hv : v < method.nodes.size) : method.nodePosition v = v := by
  have hlt : v < method.preorder.length := by rw [h.preorder_eq, List.length_range]; exact hv
  have hget : method.preorder[v] = v := by
    simp only [h.preorder_eq, List.getElem_range]
  have hnodup : method.preorder.Nodup := by
    rw [h.preorder_eq]
    exact List.nodup_range
  have hidx := hnodup.idxOf_getElem v hlt
  rw [hget] at hidx
  exact hidx

/-- A walk meets the labels of the nodes in the order of the nodes. -/
theorem Shaped.nodeLabels_eq {method : MethodGraph} (h : method.Shaped) :
    (method.preorder.filterMap fun v => method.nodes[v]?.map NonTerminal.label) =
      method.nodes.toList.map NonTerminal.label := by
  rw [h.preorder_eq, ← map_range_getD method.nodes NonTerminal.label ""]
  refine List.filterMap_eq_map_iff_forall_eq_some.mpr fun v hv => ?_
  rw [Array.getElem?_eq_getElem (List.mem_range.mp hv)]
  rfl

/-- The labels of the nodes are in the order of the nodes. -/
theorem Shaped.labelsIn_eq {method : MethodGraph} (h : method.Shaped) (words : Array String) :
    method.labelsIn words = method.nodes.toList.map NonTerminal.label ++ method.texts ++
      method.symbols.toList ++ words.toList := by
  rw [labelsIn, h.nodeLabels_eq]

/-- How many labels there are. -/
theorem Shaped.length_labelsIn {method : MethodGraph} (h : method.Shaped) (words : Array String) :
    (method.labelsIn words).length =
      method.nodes.size + method.tokens.size + method.symbols.size + words.size := by
  rw [h.labelsIn_eq, List.length_append, List.length_append, List.length_append, texts,
    List.length_map, List.length_map, Array.length_toList, Array.length_toList,
    Array.length_toList, Array.length_toList]

end MethodGraph

/-- The record of method number `index` of a class. -/
def ClassGraph.recordOf (graph : ClassGraph) (method : MethodGraph) (index : Nat) :
    TrainingRecord :=
  .correct (method.labelsIn graph.vocabulary) (method.edgesIn index)

end CodeGraph
