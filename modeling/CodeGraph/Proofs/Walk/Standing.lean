/-
# Where a walker stands

A walker is in one method of a class, and has the layouts of all of them.  If the method is
shaped, the numbers of its things follow one another from the first (`Walker.Laid`), and in a
sound class the number of a call site is known wherever its method lies (`Walker.Stands`).  The
events of a sound class are those of one walker for each method (`ClassGraph.eventsWith_eq`).
-/
import CodeGraph.Proofs.Record.Positions
import CodeGraph.Proofs.Walk.Numbers

namespace CodeGraph

namespace Walker

/-! ## Numbers and positions -/

/-- The walker is in a shaped method whose numbers begin with `first`. -/
structure Laid (walker : Walker) (first : Nat) : Prop where
  shaped : walker.method.Shaped
  layout_eq : walker.layout = .ofMethod walker.method walker.graph.vocabulary.size first

namespace Laid

variable {walker : Walker} {first : Nat}

/-- Nodes are visited in the order of their indices. -/
theorem order_eq (h : walker.Laid first) :
    walker.layout.order = List.range walker.method.nodes.size := by
  rw [h.layout_eq]
  exact h.shaped.preorder_eq

theorem node_id (h : walker.Laid first) {v : Nat} (hv : v < walker.method.nodes.size) :
    (walker.node v).id = first + v := by
  rw [node, h.layout_eq]
  exact Layout.nodeId_ofMethod h.shaped _ first hv

/-- Tokens are numbered behind the nodes. -/
theorem token_id (h : walker.Laid first) (i : Nat) :
    (walker.token i).id = first + walker.method.tokenPosition i := by
  show walker.layout.tokenId i = _
  rw [Layout.tokenId, h.order_eq, List.length_range, h.layout_eq, MethodGraph.tokenPosition,
    ← Nat.add_assoc]
  rfl

/-- Symbols are numbered behind the tokens. -/
theorem symbol_id (h : walker.Laid first) (s : Nat) :
    (walker.symbol s).id = first + walker.method.symbolPosition s := by
  show walker.layout.symbolId s = _
  rw [Layout.symbolId, h.order_eq, List.length_range, h.layout_eq, MethodGraph.symbolPosition,
    ← Nat.add_assoc, ← Nat.add_assoc]
  rfl

theorem word_id (h : walker.Laid first) (w : Nat) :
    (walker.word w).id = first + walker.method.wordPosition w := by
  show walker.layout.wordId w = _
  rw [Layout.wordId, h.order_eq, List.length_range, h.layout_eq, MethodGraph.wordPosition,
    ← Nat.add_assoc, ← Nat.add_assoc, ← Nat.add_assoc]
  rfl

end Laid

/-- A walker in method number `index` of a class, whose layouts begin with the number `start`. -/
structure Stands (walker : Walker) (start index : Nat) : Prop where
  sound : walker.graph.Sound
  method_eq : walker.graph.methods[index]? = some walker.method
  layout_eq : walker.layout = .ofMethod walker.method walker.graph.vocabulary.size
    (Layout.firstOf walker.graph.vocabulary.size walker.graph.methods start index)
  layouts_eq : ∀ (i : Nat) (method : MethodGraph), walker.graph.methods[i]? = some method →
    walker.layouts[i]? = some (.ofMethod method walker.graph.vocabulary.size
      (Layout.firstOf walker.graph.vocabulary.size walker.graph.methods start i))

namespace Stands

variable {walker : Walker} {start index : Nat}

theorem method_mem (h : walker.Stands start index) : walker.method ∈ walker.graph.methods :=
  List.mem_of_getElem? h.method_eq

/-- The number of a call site, in whatever method of the class it lies. -/
theorem callSite_id (h : walker.Stands start index) {site : CallSite} {node : NonTerminal}
    (hnode : walker.graph.callSite? site = some node) :
    ∃ method, walker.graph.methods[site.method]? = some method ∧
      site.node < method.nodes.size ∧ (walker.callSite site).id =
        Layout.firstOf walker.graph.vocabulary.size walker.graph.methods start site.method +
          site.node := by
  obtain ⟨method, hmethod, hnode⟩ := Option.bind_eq_some_iff.mp hnode
  have hlt := (Array.getElem?_eq_some_iff.mp hnode).1
  refine ⟨method, hmethod, hlt, ?_⟩
  rw [callSite, h.layouts_eq site.method method hmethod]
  exact Layout.nodeId_ofMethod (h.sound.shaped method (List.mem_of_getElem? hmethod)) _ _ hlt

/-- The method is laid out behind those before it. -/
theorem laid (h : walker.Stands start index) : walker.Laid
    (Layout.firstOf walker.graph.vocabulary.size walker.graph.methods start index) :=
  ⟨h.sound.shaped walker.method h.method_mem, h.layout_eq⟩

/-- A call site is visited from anywhere as the node that it is in its own method. -/
theorem callSite_eq {other : Walker} {site : CallSite} (h : walker.Stands start index)
    (hother : other.Stands start site.method) (hgraph : other.graph = walker.graph)
    (hsite : site.node < other.method.nodes.size) :
    walker.callSite site = other.node site.node := by
  have hmethod := hother.method_eq
  rw [hgraph] at hmethod
  have hnode : walker.graph.callSite? site = some other.method.nodes[site.node] := by
    rw [ClassGraph.callSite?, hmethod]
    exact Array.getElem?_eq_getElem hsite
  obtain ⟨caller, hcaller, -, hid⟩ := h.callSite_id hnode
  rw [← hgraph, ← hother.laid.node_id hsite] at hid
  have hlabel : (walker.callSite site).label = (other.node site.node).label := by
    rw [callSite, hnode, node, Array.getElem?_eq_getElem hsite]
  exact congr (congrArg Visit.mk hid) hlabel

end Stands

/-! ## Things and edges -/

/-- Before the edges of a method come things only. -/
theorem exists_of_mem_entities (walker : Walker) {event : Event} (h : event ∈ walker.entities) :
    ∃ sort visit, event = .entity sort visit := by
  simp only [entities, List.mem_append, List.mem_map] at h
  rcases h with ((⟨i, -, rfl⟩ | ⟨i, -, rfl⟩) | ⟨i, -, rfl⟩) | ⟨i, -, rfl⟩
  all_goals exact ⟨_, _, rfl⟩

/-- Behind the things of a method come edges only. -/
theorem exists_of_mem_edges (walker : Walker) {event : Event} (h : event ∈ walker.edges) :
    ∃ relation source target, event = .edge relation source target := by
  simp only [edges, List.mem_append, List.mem_map, List.mem_flatMap, List.mem_filterMap,
    tokenEdges] at h
  -- one case for each kind of edge, in the order of the walk
  rcases h with ((((((⟨i, -, rfl⟩ | ⟨v, -, h⟩) | ⟨v, -, h⟩) | ⟨i, -, s, -, rfl⟩) | ⟨i, -, w, -, rfl⟩)
    | ⟨i, -, j, -, rfl⟩) | ⟨i, -, n, -, rfl⟩) | ⟨i, -, h⟩
  · exact ⟨_, _, _, rfl⟩
  · rw [tokensOfNode] at h
    split at h
    · obtain ⟨t, -, rfl⟩ := List.mem_map.mp h
      exact ⟨_, _, _, rfl⟩
    · cases h
  · obtain ⟨node, -, h⟩ := Option.bind_eq_some_iff.mp h
    obtain ⟨parent, -, h⟩ := Option.bind_eq_some_iff.mp h
    cases h
    exact ⟨_, _, _, rfl⟩
  · exact ⟨_, _, _, rfl⟩
  · exact ⟨_, _, _, rfl⟩
  · exact ⟨_, _, _, rfl⟩
  · exact ⟨_, _, _, rfl⟩
  · split at h
    · obtain ⟨site, -, rfl⟩ := List.mem_map.mp h
      exact ⟨_, _, _, rfl⟩
    · cases h

end Walker

/-! ## The walkers of a class -/

namespace ClassGraph

/-- The number at which a method of the class begins, if those of the class begin with `start`. -/
def firstId (graph : ClassGraph) (start index : Nat) : Nat :=
  Layout.firstOf graph.vocabulary.size graph.methods start index

/-- The layouts of the methods, if the numbers of the class begin with `start`. -/
def layoutsFrom (graph : ClassGraph) (start : Nat) : List Layout :=
  graph.methods.zipIdx.map fun pair =>
    .ofMethod pair.1 graph.vocabulary.size (graph.firstId start pair.2)

/-- The walker in a method of the class, if the numbers of the class begin with `start`. -/
def walkerAt (graph : ClassGraph) (start : Nat) (method : MethodGraph) (index : Nat) : Walker where
  graph := graph
  layouts := (graph.layoutsFrom start).toArray
  method := method
  layout := .ofMethod method graph.vocabulary.size (graph.firstId start index)

/-- A walker over a method of a class stands where this method begins. -/
theorem Sound.stands {graph : ClassGraph} (h : graph.Sound) (start : Nat) {method : MethodGraph}
    {index : Nat} (hindex : graph.methods[index]? = some method) :
    (graph.walkerAt start method index).Stands start index where
  sound := h
  method_eq := hindex
  layout_eq := rfl
  layouts_eq := by
    intro i other hi
    show (graph.layoutsFrom start).toArray[i]? = _
    rw [List.getElem?_toArray, layoutsFrom, List.getElem?_map, List.getElem?_zipIdx]
    change graph.methods[i]? = some other at hi
    rw [hi]
    simp only [Option.map_some, Nat.zero_add]
    rfl

theorem zip_map_zipIdx {α β : Type} (f : α × Nat → β) (xs : List α) (k : Nat) :
    xs.zip ((xs.zipIdx k).map f) = (xs.zipIdx k).map fun pair => (pair.1, f pair) := by
  induction xs generalizing k with
  | nil => rfl
  | cons x xs ih =>
    rw [List.zipIdx_cons, List.map_cons, List.zip_cons_cons, ih, List.map_cons]

/-- The events of a class are those of a walker in each of its methods. -/
theorem eventsWith_eq {graph : ClassGraph} {ids rest : IdSequence} {layouts : List Layout}
    (h : Layout.ofMethods? graph.vocabulary.size graph.methods ids = some (layouts, rest)) :
    graph.eventsWith layouts = .classStart graph.name ::
      (graph.methods.zipIdx.flatMap (fun pair => (graph.walkerAt ids.next pair.1 pair.2).events) ++
        [.classEnd graph.name]) := by
  obtain rfl : layouts = graph.layoutsFrom ids.next := (Layout.ofMethods?_eq_some h).1
  have hzip : graph.methods.zip (graph.layoutsFrom ids.next) = graph.methods.zipIdx.map fun pair =>
      (pair.1, Layout.ofMethod pair.1 graph.vocabulary.size (graph.firstId ids.next pair.2)) :=
    zip_map_zipIdx _ _ _
  rw [eventsWith, hzip, List.flatMap_map]
  rfl

end ClassGraph

end CodeGraph
