/-
# Reading the events of a method

In a sound class the events of a method announce the things of the method, sort by sort
(`Walker.Laid.announced_events`), and join the pairs of its relations, relation by relation, and
nothing else (`Walker.Stands.joined_events`).
-/
import CodeGraph.Proofs.Walk.Pairs
import CodeGraph.Proofs.Walk.Standing

namespace CodeGraph

/-! ## Events -/

namespace Event

/-- The visit by which an event announces a thing of the given sort. -/
def announces? (sort : Entity) : Event → Option Visit
  | .entity s visit => if s = sort then some visit else none
  | _ => none

/-- The number of the thing that an event announces. -/
def announcedId? : Event → Option Nat
  | .entity _ visit => some visit.id
  | _ => none

/-- The ends of the edge that an event draws for the given relation. -/
def joins? (relation : Relation) : Event → Option (Visit × Visit)
  | .edge r source target => if r = relation then some (source, target) else none
  | _ => none

end Event

/-- The visits by which things of the given sort are announced. -/
def announced (sort : Entity) (events : List Event) : List Visit :=
  events.filterMap (Event.announces? sort)

/-- The ends of the edges that are drawn for the given relation. -/
def joined (relation : Relation) (events : List Event) : List (Visit × Visit) :=
  events.filterMap (Event.joins? relation)

/-! ## What is read -/

namespace Walker

variable {walker : Walker}

/-- The visit to thing number `i` of a sort. -/
def visit (walker : Walker) : Entity → Nat → Visit
  | .node => walker.node
  | .token => walker.token
  | .symbol => walker.symbol
  | .word => walker.word

/-- How many things of a sort the method has. -/
def count (walker : Walker) : Entity → Nat := walker.method.count walker.graph.vocabulary.size

/-- The edge of a relation inside the method. -/
def join (walker : Walker) (relation : Relation) (pair : Nat × Nat) : Event :=
  .edge relation (walker.visit relation.source pair.1) (walker.visit relation.target pair.2)

/-- The edge from a call site to a return of the method. -/
def joinReturn (walker : Walker) (pair : CallSite × Nat) : Event :=
  .edge .returnsTo (walker.callSite pair.1) (walker.token pair.2)

theorem events_eq (walker : Walker) :
    walker.events = .methodStart walker.method.signature (walker.node 0) ::
      (walker.entities ++ walker.edges ++ [.methodEnd walker.method.signature (walker.node 0)]) :=
  rfl

section

variable {β : Type} {f : Event → Option β}

/-- What is not read at the begin and the end of a method is read in its things and its edges. -/
theorem filterMap_events (walker : Walker)
    (hstart : ∀ signature root, f (.methodStart signature root) = none)
    (hend : ∀ signature root, f (.methodEnd signature root) = none) :
    walker.events.filterMap f = walker.entities.filterMap f ++ walker.edges.filterMap f := by
  rw [events_eq, List.filterMap_cons_none (hstart _ _), List.filterMap_append,
    List.filterMap_append, List.filterMap_cons_none (hend _ _), List.filterMap_nil, List.append_nil]

/-- What is no edge is not found among the edges. -/
theorem filterMap_edges (walker : Walker)
    (hedge : ∀ relation source target, f (.edge relation source target) = none) :
    walker.edges.filterMap f = [] := by
  rw [List.filterMap_eq_nil_iff]
  intro event hevent
  obtain ⟨relation, source, target, rfl⟩ := walker.exists_of_mem_edges hevent
  exact hedge relation source target

end

/-! ### Things -/

namespace Laid

variable {first : Nat}

/-- The things of a sort have consecutive numbers. -/
theorem visit_id (h : walker.Laid first) {sort : Entity} {i : Nat} (hi : i < walker.count sort) :
    (walker.visit sort i).id = first + walker.method.offset sort + i := by
  cases sort with
  | node =>
    show (walker.node i).id = _
    rw [h.node_id hi]
    rfl
  | token =>
    show (walker.token i).id = _
    rw [h.token_id, Nat.add_assoc]
    rfl
  | symbol =>
    show (walker.symbol i).id = _
    rw [h.symbol_id, Nat.add_assoc]
    rfl
  | word =>
    show (walker.word i).id = _
    rw [h.word_id, Nat.add_assoc]
    rfl

/-- What is announced of a sort has the labels of the method. -/
theorem labels_visit (h : walker.Laid first) (sort : Entity) :
    ((List.range (walker.count sort)).map fun i => (walker.visit sort i).label) =
      walker.method.labelsOf walker.graph.vocabulary sort := by
  cases sort with
  | node =>
    show (List.range walker.method.nodes.size).map (fun v => (walker.node v).label) =
      walker.method.preorder.filterMap _
    rw [h.shaped.preorder_eq]
    symm
    refine List.filterMap_eq_map_iff_forall_eq_some.mpr fun v hv => ?_
    rw [node, Array.getElem?_eq_getElem (List.mem_range.mp hv)]
    rfl
  | token => exact map_range_getD walker.method.tokens Token.text ""
  | symbol => exact map_range_getD_id walker.method.symbols ""
  | word => exact map_range_getD_id walker.graph.vocabulary ""

/-- The things of the method come sort by sort. -/
theorem entities_eq (h : walker.Laid first) :
    walker.entities = Entity.all.flatMap fun sort =>
      (List.range (walker.count sort)).map fun i => .entity sort (walker.visit sort i) := by
  rw [entities, h.order_eq, Entity.all]
  simp only [List.flatMap_cons, List.flatMap_nil, List.append_nil, List.append_assoc]
  rfl

/-- **The events of a method announce all its things, and each once.** -/
theorem announced_events (h : walker.Laid first) (sort : Entity) :
    announced sort walker.events = (List.range (walker.count sort)).map (walker.visit sort) := by
  have hsort : ∀ other, ((List.range (walker.count other)).map fun i =>
      Event.entity other (walker.visit other i)).filterMap (Event.announces? sort) =
        if other = sort then (List.range (walker.count sort)).map (walker.visit sort) else [] := by
    intro other
    rw [List.filterMap_map]
    split
    · next heq =>
      subst heq
      exact List.filterMap_eq_map_iff_forall_eq_some.mpr fun i _ => if_pos rfl
    · next hne => exact List.filterMap_eq_nil_iff.mpr fun i _ => if_neg hne
  rw [announced, walker.filterMap_events (fun _ _ => rfl) fun _ _ => rfl,
    walker.filterMap_edges fun _ _ _ => rfl, List.append_nil, h.entities_eq, List.filterMap_flatMap]
  simp only [hsort]
  cases sort <;> simp [Entity.all]

/-- What is announced of a sort comes in the order of its indices. -/
theorem getElem?_announced (h : walker.Laid first) {sort : Entity} {i : Nat}
    (hi : i < walker.count sort) :
    (announced sort walker.events)[i]? = some (walker.visit sort i) := by
  rw [h.announced_events, List.getElem?_map, List.getElem?_range hi, Option.map_some]

/-- The numbers of the things of a method follow one another from the first. -/
theorem announcedIds_events (h : walker.Laid first) :
    walker.events.filterMap Event.announcedId? =
      List.range' first (Layout.sizeOf walker.method walker.graph.vocabulary.size) := by
  have hsort : ∀ sort, ((List.range (walker.count sort)).map fun i =>
      Event.entity sort (walker.visit sort i)).filterMap Event.announcedId? =
        List.range' (first + walker.method.offset sort) (walker.count sort) := by
    intro sort
    rw [List.filterMap_map, List.range'_eq_map_range]
    refine List.filterMap_eq_map_iff_forall_eq_some.mpr fun i hi => ?_
    exact congrArg some (h.visit_id (List.mem_range.mp hi))
  rw [walker.filterMap_events (fun _ _ => rfl) fun _ _ => rfl,
    walker.filterMap_edges fun _ _ _ => rfl, List.append_nil, h.entities_eq, List.filterMap_flatMap]
  have hcount : Layout.sizeOf walker.method walker.graph.vocabulary.size =
      walker.count .node + (walker.count .token + (walker.count .symbol + walker.count .word)) := by
    rw [Layout.sizeOf_eq h.shaped, ← Nat.add_assoc, ← Nat.add_assoc]
    rfl
  simp only [hsort, Entity.all, List.flatMap_cons, List.flatMap_nil, List.append_nil]
  rw [hcount, ← List.range'_append_1, ← List.range'_append_1, ← List.range'_append_1]
  simp only [MethodGraph.offset, Nat.add_zero, ← Nat.add_assoc]
  rfl

end Laid

/-! ### Edges -/

/-- The edges of a relation of tokens, found token by token. -/
theorem tokenEdges_eq {α : Type} {events : Nat → Token → List Event}
    (links : Nat → Token → List α) (edge : α → Event)
    (h : ∀ (i : Nat) (token : Token), walker.method.tokens[i]? = some token →
      events i token = (links i token).map edge) :
    walker.tokenEdges events = (walker.method.tokenPairs links).map edge :=
  (MethodGraph.map_tokenPairs fun i token hi => (h i token hi).symm).symm

namespace Stands

variable {start index : Nat}

/-- The events from nodes to tokens are those of these pairs. -/
theorem childToken_eq (h : walker.Stands start index) :
    walker.layout.order.flatMap walker.tokensOfNode =
      (walker.method.pairs .childToken).map (walker.join .childToken) := by
  rw [h.laid.order_eq, MethodGraph.pairs, List.map_flatMap]
  refine List.flatMap_congr fun v hv => ?_
  rw [List.mem_range] at hv
  have hget := Array.getElem?_eq_getElem hv
  rw [tokensOfNode, hget, List.map_map]
  simp only [h.laid.shaped.tokens_eq v _ hget]
  rfl

/-- The events between parents and nodes are those of these pairs. -/
theorem child_eq (h : walker.Stands start index) :
    (walker.layout.order.drop 1).filterMap walker.parentOfNode =
      (walker.method.pairs .child).map (walker.join .child) := by
  rw [h.laid.order_eq, MethodGraph.pairs, List.map_filterMap]
  refine List.filterMap_congr fun v _ => ?_
  rw [parentOfNode, MethodGraph.getElem?_parents, Option.map_map]
  cases walker.method.nodes[v]? with
  | none => rfl
  | some node =>
    cases hparent : node.parent with
    | none => simp [hparent]
    | some parent => simp [hparent, join, visit, Relation.source, Relation.target]

/-- Only returns go back to call sites. -/
theorem returnsTo_eq (h : walker.Stands start index) :
    (walker.tokenEdges fun i token =>
      if token.isReturn then token.returnsTo.map fun site =>
        .edge .returnsTo (walker.callSite site) (walker.token i)
      else []) = walker.method.returnPairs.map walker.joinReturn := by
  refine tokenEdges_eq _ _ fun i token hi => ?_
  rw [List.map_map]
  split
  · rfl
  · next hreturn =>
    rcases hsites : token.returnsTo with _ | ⟨site, sites⟩
    · rfl
    · have hmem : site ∈ token.returnsTo := by rw [hsites]; exact List.mem_cons_self
      exact absurd (h.sound.returns walker.method h.method_mem i token hi site hmem).1 hreturn

/-- **The edges of the method come relation by relation, and those from call sites last.** -/
theorem edges_eq (h : walker.Stands start index) :
    walker.edges = (Relation.inner.flatMap fun relation =>
      (walker.method.pairs relation).map (walker.join relation)) ++
        walker.method.returnPairs.map walker.joinReturn := by
  have hnext : ((List.range (walker.method.tokens.size - 1)).map fun i =>
      Event.edge .nextToken (walker.token i) (walker.token (i + 1))) =
        (walker.method.pairs .nextToken).map (walker.join .nextToken) := by
    rw [MethodGraph.pairs, List.map_map]
    rfl
  have hsymbols : (walker.tokenEdges fun i token => token.symbol.toList.map fun s =>
      .edge .occurrenceOf (walker.token i) (walker.symbol s)) =
        (walker.method.pairs .occurrenceOf).map (walker.join .occurrenceOf) :=
    tokenEdges_eq (fun i token => token.symbol.toList.map fun s => (i, s)) _ fun i token _ => by
      rw [List.map_map]
      rfl
  have hwords : (walker.tokenEdges fun i token => token.vocabulary.map fun w =>
      .edge .subtokenOf (walker.word w) (walker.token i)) =
        (walker.method.pairs .subtokenOf).map (walker.join .subtokenOf) :=
    tokenEdges_eq (fun i token => token.vocabulary.map fun w => (w, i)) _ fun i token _ => by
      rw [List.map_map]
      rfl
  have huses : (walker.tokenEdges fun i token => token.nextUse.toList.map fun j =>
      .edge .nextLexicalUse (walker.token i) (walker.token j)) =
        (walker.method.pairs .nextLexicalUse).map (walker.join .nextLexicalUse) :=
    tokenEdges_eq (fun i token => token.nextUse.toList.map fun j => (i, j)) _ fun i token _ => by
      rw [List.map_map]
      rfl
  have hvalues : (walker.tokenEdges fun i token => token.assignedFrom.toList.map fun n =>
      .edge .assignedFrom (walker.token i) (walker.node n)) =
        (walker.method.pairs .assignedFrom).map (walker.join .assignedFrom) :=
    tokenEdges_eq (fun i token => token.assignedFrom.toList.map fun n => (i, n)) _
      fun i token _ => by
        rw [List.map_map]
        rfl
  rw [edges, hnext, h.childToken_eq, h.child_eq, hsymbols, hwords, huses, hvalues, h.returnsTo_eq,
    Relation.inner]
  simp only [List.flatMap_cons, List.flatMap_nil, List.append_nil, List.append_assoc]

/-- Events of calls join only calls and return tokens. -/
theorem joined_returns (relation : Relation) :
    joined relation (walker.method.returnPairs.map walker.joinReturn) =
      if relation = .returnsTo then walker.method.returnPairs.map fun pair =>
        (walker.callSite pair.1, walker.token pair.2) else [] := by
  rw [joined, List.filterMap_map]
  split
  · next heq =>
    subst heq
    exact List.filterMap_eq_map_iff_forall_eq_some.mpr fun pair _ => rfl
  · next hne => exact List.filterMap_eq_nil_iff.mpr fun pair _ => if_neg (Ne.symm hne)

/-- Events of a relation join the pairs of this relation. -/
theorem joined_pairs (relation other : Relation) :
    joined relation ((walker.method.pairs other).map (walker.join other)) =
      if other = relation then (walker.method.pairs relation).map fun pair =>
        (walker.visit relation.source pair.1, walker.visit relation.target pair.2) else [] := by
  rw [joined, List.filterMap_map]
  split
  · next heq =>
    subst heq
    exact List.filterMap_eq_map_iff_forall_eq_some.mpr fun pair _ => if_pos rfl
  · next hne => exact List.filterMap_eq_nil_iff.mpr fun pair _ => if_neg hne

/-- **The events of a method join the pairs of each relation, and no others.** -/
theorem joined_events (h : walker.Stands start index) (relation : Relation) :
    joined relation walker.events = (walker.method.pairs relation).map (fun pair =>
      (walker.visit relation.source pair.1, walker.visit relation.target pair.2)) ++
      if relation = .returnsTo then walker.method.returnPairs.map fun pair =>
        (walker.callSite pair.1, walker.token pair.2) else [] := by
  have hentities : walker.entities.filterMap (Event.joins? relation) = [] := by
    rw [List.filterMap_eq_nil_iff]
    intro event hevent
    obtain ⟨sort, visit, rfl⟩ := walker.exists_of_mem_entities hevent
    rfl
  rw [joined, walker.filterMap_events (fun _ _ => rfl) fun _ _ => rfl, hentities, List.nil_append,
    h.edges_eq, List.filterMap_append]
  change _ ++ joined relation (walker.method.returnPairs.map walker.joinReturn) = _
  rw [joined_returns, List.filterMap_flatMap]
  change (Relation.inner.flatMap fun other => joined relation
    ((walker.method.pairs other).map (walker.join other))) ++ _ = _
  simp only [joined_pairs]
  cases relation <;> simp [Relation.inner, MethodGraph.pairs]

/-- A relation inside the method joins things of the method. -/
theorem lt_count (h : walker.Stands start index) {relation : Relation} {j k : Nat}
    (hpair : (j, k) ∈ walker.method.pairs relation) :
    j < walker.count relation.source ∧ k < walker.count relation.target :=
  MethodGraph.lt_count_of_mem_pairs h.laid.shaped (h.sound.linked _ h.method_mem) hpair

/-- A token of the method that goes back to a call site, and the method of the site. -/
theorem exists_of_mem_returnPairs (h : walker.Stands start index) {site : CallSite} {i : Nat}
    (hpair : (site, i) ∈ walker.method.returnPairs) : ∃ token caller,
      walker.method.tokens[i]? = some token ∧ site ∈ token.returnsTo ∧
      walker.graph.methods[site.method]? = some caller ∧ site.node < caller.nodes.size ∧
      (walker.callSite site).id = walker.graph.firstId start site.method + site.node := by
  obtain ⟨token, htoken, hsite⟩ := MethodGraph.mem_tokenPairs_right.mp hpair
  obtain ⟨-, node, hnode, -⟩ := h.sound.returns _ h.method_mem i token htoken site hsite
  obtain ⟨caller, hcaller⟩ := h.callSite_id hnode
  exact ⟨token, caller, htoken, hsite, hcaller⟩

end Stands

end Walker

end CodeGraph
