/-
# Records are the graph

A walk over the class of a run gives exactly the records that `MethodGraph.labelsIn` and
`MethodGraph.edgesIn` describe, one for each method in the order of the methods
(`ClassBuilder.IsRun.recordsOf?_walk`).  Numbers, the order of events and the window of a method
always fit together: an edge is left out just when its call site lies in another method.
-/
import CodeGraph.Proofs.Record.Collect
import CodeGraph.Proofs.Walk.Standing

namespace CodeGraph

namespace Walker

/-- A record in the making that has all labels of the method that the walker is in. -/
structure Complete (walker : Walker) (first : Nat) (pending : PendingRecord) : Prop
    extends walker.Laid first where
  base_eq : pending.base = first
  size_eq : pending.labels.size = walker.method.nodes.size + walker.method.tokens.size +
    walker.method.symbols.size + walker.graph.vocabulary.size

namespace Complete

variable {walker : Walker} {first : Nat} {pending : PendingRecord}

theorem position?_node (h : walker.Complete first pending) {v : Nat}
    (hv : v < walker.method.nodes.size) :
    pending.position? (walker.node v).id = some (walker.method.nodePosition v) := by
  rw [h.node_id hv, ← h.base_eq, h.shaped.nodePosition_eq hv]
  refine PendingRecord.position?_add ?_
  rw [h.size_eq]
  omega

theorem position?_token (h : walker.Complete first pending) {i : Nat}
    (hi : i < walker.method.tokens.size) :
    pending.position? (walker.token i).id = some (walker.method.tokenPosition i) := by
  rw [h.token_id, ← h.base_eq]
  refine PendingRecord.position?_add ?_
  rw [h.size_eq, MethodGraph.tokenPosition]
  omega

theorem position?_symbol (h : walker.Complete first pending) {s : Nat}
    (hs : s < walker.method.symbols.size) :
    pending.position? (walker.symbol s).id = some (walker.method.symbolPosition s) := by
  rw [h.symbol_id, ← h.base_eq]
  refine PendingRecord.position?_add ?_
  rw [h.size_eq, MethodGraph.symbolPosition]
  omega

theorem position?_word (h : walker.Complete first pending) {w : Nat}
    (hw : w < walker.graph.vocabulary.size) :
    pending.position? (walker.word w).id = some (walker.method.wordPosition w) := by
  rw [h.word_id, ← h.base_eq]
  refine PendingRecord.position?_add ?_
  rw [h.size_eq, MethodGraph.wordPosition]
  omega

end Complete

/-! ## Edges, kind by kind -/

/-- An event between visits that are found gives the edge between their positions. -/
theorem edge?_eq_some {pending : PendingRecord} {relation : Relation} {source target : Visit}
    {i j : Nat} (hi : pending.position? source.id = some i)
    (hj : pending.position? target.id = some j) :
    pending.edge? (.edge relation source target) = some (.ofKind i j relation.kind) := by
  rw [PendingRecord.edge?, hi, hj]
  rfl

/-- The edges of a relation of tokens, found token by token. -/
theorem filterMap_tokenEdges {walker : Walker} {pending : PendingRecord}
    {events : Nat → Token → List Event} {links : Nat → Token → List RecordEdge}
    (h : ∀ (i : Nat) (token : Token), walker.method.tokens[i]? = some token →
      (events i token).filterMap pending.edge? = links i token) :
    (walker.tokenEdges events).filterMap pending.edge? = walker.method.tokenLinks links := by
  rw [tokenEdges, List.filterMap_flatMap, MethodGraph.tokenLinks]
  refine List.flatMap_congr fun entry hmem => h entry.2 entry.1 ?_
  rw [← Array.getElem?_toList]
  exact List.mk_mem_zipIdx_iff_getElem?.mp hmem

/-- The edges of events that are all found. -/
theorem filterMap_map_edge? {α : Type} {pending : PendingRecord} {event : α → Event}
    {edge : α → RecordEdge} {members : List α}
    (h : ∀ member ∈ members, pending.edge? (event member) = some (edge member)) :
    (members.map event).filterMap pending.edge? = members.map edge := by
  rw [List.filterMap_map]
  exact List.filterMap_eq_map_iff_forall_eq_some.mpr h

namespace Complete

variable {walker : Walker} {first : Nat} {pending : PendingRecord}

/-- The events from token to token give these edges. -/
theorem nextTokenEdges (h : walker.Complete first pending) :
    ((List.range (walker.method.tokens.size - 1)).map fun i =>
      Event.edge .nextToken (walker.token i) (walker.token (i + 1))).filterMap pending.edge? =
        walker.method.nextTokenEdges := by
  refine filterMap_map_edge? fun i hi => ?_
  rw [List.mem_range] at hi
  exact edge?_eq_some (h.position?_token (by omega)) (h.position?_token (by omega))

/-- The events from nodes to their tokens give the edges from owners, node by node. -/
theorem ownerEdges (h : walker.Complete first pending) :
    (walker.layout.order.flatMap walker.tokensOfNode).filterMap pending.edge? =
      walker.method.ownerEdges := by
  rw [List.filterMap_flatMap, MethodGraph.ownerEdges, h.order_eq, h.shaped.preorder_eq]
  refine List.flatMap_congr fun v hv => ?_
  rw [List.mem_range] at hv
  rw [tokensOfNode, Array.getElem?_eq_getElem hv]
  refine filterMap_map_edge? fun t ht => ?_
  refine edge?_eq_some (h.position?_node hv) (h.position?_token ?_)
  rw [h.shaped.tokens_eq v _ (Array.getElem?_eq_getElem hv)] at ht
  rw [← walker.method.length_owners]
  exact List.lt_add_of_mem_idxsOf t ht

/-- The events between parents and nodes give the edges from parents. -/
theorem parentEdges (h : walker.Complete first pending) :
    ((walker.layout.order.drop 1).filterMap walker.parentOfNode).filterMap pending.edge? =
      walker.method.parentEdges := by
  rw [List.filterMap_filterMap, MethodGraph.parentEdges, h.order_eq, h.shaped.preorder_eq]
  refine List.filterMap_congr fun v hv => ?_
  have hlt : v < walker.method.nodes.size := List.mem_range.mp (List.mem_of_mem_drop hv)
  rw [parentOfNode, Array.getElem?_eq_getElem hlt]
  rcases hparent : walker.method.nodes[v].parent with _ | p
  · simp only [Option.bind_eq_bind, Option.bind_some, hparent, Option.bind_none]
  · have hp : walker.method.parents[v]? = some (some p) := by
      rw [walker.method.getElem?_parents, Array.getElem?_eq_getElem hlt, Option.map_some, hparent]
    have hplt := h.shaped.tree.lt_of_parent hp
    simp only [Option.bind_eq_bind, Option.bind_some, hparent]
    exact edge?_eq_some (h.position?_node (by omega)) (h.position?_node hlt)

/-- The events from identifiers to symbols give these edges. -/
theorem occurrenceEdges (h : walker.Complete first pending)
    (hlinked : walker.method.Linked walker.graph.vocabulary) :
    (walker.tokenEdges fun i token => token.symbol.toList.map fun s =>
      .edge .occurrenceOf (walker.token i) (walker.symbol s)).filterMap pending.edge? =
        walker.method.occurrenceEdges := by
  refine filterMap_tokenEdges fun i token hi => filterMap_map_edge? fun s hs => ?_
  refine edge?_eq_some (h.position?_token (Array.getElem?_eq_some_iff.mp hi).1)
    (h.position?_symbol ?_)
  have hsymbol := (hlinked i token hi).symbol s (Option.mem_toList.mp hs)
  exact (Array.getElem?_eq_some_iff.mp hsymbol).1

/-- The events from words to tokens give these edges. -/
theorem subtokenEdges (h : walker.Complete first pending)
    (hlinked : walker.method.Linked walker.graph.vocabulary) :
    (walker.tokenEdges fun i token => token.vocabulary.map fun w =>
      .edge .subtokenOf (walker.word w) (walker.token i)).filterMap pending.edge? =
        walker.method.subtokenEdges := by
  refine filterMap_tokenEdges fun i token hi => filterMap_map_edge? fun w hw => ?_
  refine edge?_eq_some (h.position?_word ?_)
    (h.position?_token (Array.getElem?_eq_some_iff.mp hi).1)
  obtain ⟨word, hword, -⟩ := (hlinked i token hi).vocabulary w hw
  exact (Array.getElem?_eq_some_iff.mp hword).1

/-- The events from tokens to their next uses give these edges. -/
theorem nextUseEdges (h : walker.Complete first pending)
    (hlinked : walker.method.Linked walker.graph.vocabulary) :
    (walker.tokenEdges fun i token => token.nextUse.toList.map fun j =>
      .edge .nextLexicalUse (walker.token i) (walker.token j)).filterMap pending.edge? =
        walker.method.nextUseEdges := by
  refine filterMap_tokenEdges fun i token hi => filterMap_map_edge? fun j hj => ?_
  refine edge?_eq_some (h.position?_token (Array.getElem?_eq_some_iff.mp hi).1)
    (h.position?_token ?_)
  obtain ⟨-, htext⟩ := (hlinked i token hi).nextUse j (Option.mem_toList.mp hj)
  exact walker.method.lt_size_of_texts htext

/-- The events from targets to values give these edges. -/
theorem assignedEdges (h : walker.Complete first pending)
    (hlinked : walker.method.Linked walker.graph.vocabulary) :
    (walker.tokenEdges fun i token => token.assignedFrom.toList.map fun n =>
      .edge .assignedFrom (walker.token i) (walker.node n)).filterMap pending.edge? =
        walker.method.assignedEdges := by
  refine filterMap_tokenEdges fun i token hi => filterMap_map_edge? fun n hn => ?_
  exact edge?_eq_some (h.position?_token (Array.getElem?_eq_some_iff.mp hi).1)
    (h.position?_node ((hlinked i token hi).assignedFrom n (Option.mem_toList.mp hn)))

end Complete

/-! ## Returns -/

/-- The members that an option-valued function keeps, when a test tells which these are. -/
theorem filterMap_eq_map_filter {α β : Type} {f : α → Option β} {p : α → Bool} {g : α → β}
    {members : List α} (h : ∀ a ∈ members, f a = if p a then some (g a) else none) :
    members.filterMap f = (members.filter p).map g := by
  rw [List.filterMap_congr h]
  induction members with
  | nil => rfl
  | cons a members ih =>
    have htail := ih fun b hb => h b (List.mem_cons_of_mem a hb)
    rw [List.filterMap_cons, List.filter_cons, htail]
    split
    · next hnone =>
      split at hnone
      · cases hnone
      · next hp => rw [if_neg hp]
    · next b hsome =>
      split at hsome
      · next hp =>
        cases hsome
        rw [if_pos hp, List.map_cons]
      · cases hsome

namespace Stands

variable {walker : Walker} {start index : Nat} {pending : PendingRecord}

/-- A call site has a position just if it lies in the method of the record. -/
theorem position?_callSite (h : walker.Stands start index)
    (hpending : walker.Complete
      (Layout.firstOf walker.graph.vocabulary.size walker.graph.methods start index) pending)
    {site : CallSite} {node : NonTerminal} (hnode : walker.graph.callSite? site = some node) :
    pending.position? (walker.callSite site).id =
      if site.method = index then some (walker.method.nodePosition site.node) else none := by
  obtain ⟨method, hmethod, hlt, hid⟩ := h.callSite_id hnode
  by_cases hsame : site.method = index
  · rw [if_pos hsame]
    rw [hsame, h.method_eq, Option.some.injEq] at hmethod
    subst hmethod
    rw [hid, hsame, ← hpending.base_eq, hpending.shaped.nodePosition_eq hlt]
    refine PendingRecord.position?_add ?_
    rw [hpending.size_eq]
    omega
  · rw [if_neg hsame]
    refine PendingRecord.position?_eq_none ?_
    have hshaped := h.sound.shaped method (List.mem_of_getElem? hmethod)
    have hown := Layout.firstOf_succ walker.graph.vocabulary.size start h.method_eq
    have hother := Layout.firstOf_succ walker.graph.vocabulary.size start hmethod
    rw [Layout.sizeOf_eq hpending.shaped] at hown
    rw [Layout.sizeOf_eq hshaped] at hother
    rw [hid, hpending.base_eq, hpending.size_eq]
    -- the numbers of the other method end before those of this one begin, or the other way round
    rcases Nat.lt_or_gt_of_ne hsame with hbefore | hafter
    · left
      have hmono := Layout.firstOf_mono walker.graph.vocabulary.size walker.graph.methods start
        (Nat.succ_le_of_lt hbefore)
      rw [Nat.succ_eq_add_one] at hmono
      omega
    · right
      have hmono := Layout.firstOf_mono walker.graph.vocabulary.size walker.graph.methods start
        (Nat.succ_le_of_lt hafter)
      rw [Nat.succ_eq_add_one] at hmono
      omega

/-- Of the events from calls to return tokens, those of calls in the method itself give edges. -/
theorem returnEdges (h : walker.Stands start index)
    (hpending : walker.Complete
      (Layout.firstOf walker.graph.vocabulary.size walker.graph.methods start index) pending) :
    (walker.tokenEdges fun i token =>
      if token.isReturn then token.returnsTo.map fun site =>
        .edge .returnsTo (walker.callSite site) (walker.token i)
      else []).filterMap pending.edge? = walker.method.returnEdges index := by
  refine filterMap_tokenEdges fun i token hi => ?_
  have hreturns := h.sound.returns walker.method h.method_mem i token hi
  by_cases hreturn : token.isReturn = true
  · rw [if_pos hreturn, List.filterMap_map]
    refine filterMap_eq_map_filter fun site hsite => ?_
    obtain ⟨-, node, hnode, -⟩ := hreturns site hsite
    have hposition := h.position?_callSite hpending hnode
    have htoken := hpending.position?_token (Array.getElem?_eq_some_iff.mp hi).1
    rw [Function.comp_apply, PendingRecord.edge?, hposition, htoken]
    by_cases hsame : site.method = index
    · rw [if_pos hsame, if_pos (decide_eq_true hsame)]
      rfl
    · rw [if_neg hsame, if_neg (by rw [decide_eq_true_eq]; exact hsame)]
      rfl
  · -- what is no return goes back to nowhere
    rw [if_neg hreturn]
    rcases hnil : token.returnsTo with _ | ⟨site, sites⟩
    · rfl
    · exact absurd (hreturns site (by rw [hnil]; exact List.mem_cons_self)).1 hreturn

/-- **The edges of a method are the edges of its record.** -/
theorem filterMap_edges (h : walker.Stands start index)
    (hpending : walker.Complete
      (Layout.firstOf walker.graph.vocabulary.size walker.graph.methods start index) pending) :
    walker.edges.filterMap pending.edge? = walker.method.edgesIn index := by
  have hlinked := h.sound.linked walker.method h.method_mem
  rw [edges, MethodGraph.edgesIn]
  simp only [List.filterMap_append]
  rw [hpending.nextTokenEdges, hpending.ownerEdges, hpending.parentEdges,
    hpending.occurrenceEdges hlinked, hpending.subtokenEdges hlinked,
    hpending.nextUseEdges hlinked, hpending.assignedEdges hlinked, h.returnEdges hpending]

end Stands

/-! ## The events of a method -/

namespace Laid

variable {walker : Walker} {first : Nat}

/-- The things of a method are collected section by section. -/
theorem foldlM_entities (h : walker.Laid first) (done : Array TrainingRecord) :
    walker.entities.foldlM RecordCollector.step? ⟨some ⟨first, #[], #[]⟩, done⟩ =
      some ⟨some ⟨first, (walker.method.labelsIn walker.graph.vocabulary).toArray, #[]⟩,
        done⟩ := by
  have hnodes : (List.range walker.method.nodes.size).map (fun v => (walker.node v).label) =
      walker.method.nodes.toList.map NonTerminal.label :=
    map_range_getD walker.method.nodes NonTerminal.label ""
  have htokens : (List.range walker.method.tokens.size).map (fun i => (walker.token i).label) =
      walker.method.texts := map_range_getD walker.method.tokens Token.text ""
  have hsymbols : (List.range walker.method.symbols.size).map (fun s => (walker.symbol s).label) =
      walker.method.symbols.toList := map_range_getD_id walker.method.symbols ""
  have hwords : (List.range walker.graph.vocabulary.size).map (fun w => (walker.word w).label) =
      walker.graph.vocabulary.toList := map_range_getD_id walker.graph.vocabulary ""
  rw [h.shaped.labelsIn_eq, ← hnodes, ← htokens, ← hsymbols, ← hwords, entities, h.order_eq,
    List.foldlM_append, List.foldlM_append, List.foldlM_append]
  -- each section begins with the number at which the section before it has ended
  rw [RecordCollector.foldlM_entities .node walker.node _ first [] done fun v hv => h.node_id hv]
  simp only [Option.bind_eq_bind, Option.bind_some]
  rw [RecordCollector.foldlM_entities .token walker.token _ first _ done, Option.bind_some,
    RecordCollector.foldlM_entities .symbol walker.symbol _ first _ done, Option.bind_some,
    RecordCollector.foldlM_entities .word walker.word _ first _ done]
  · rfl
  · intro w hw
    rw [h.word_id, MethodGraph.wordPosition]
    simp only [List.nil_append, List.length_append, List.length_map, List.length_range]
    omega
  · intro s hs
    rw [h.symbol_id, MethodGraph.symbolPosition]
    simp only [List.nil_append, List.length_append, List.length_map, List.length_range]
    omega
  · intro i hi
    rw [h.token_id, MethodGraph.tokenPosition]
    simp only [List.nil_append, List.length_map, List.length_range]
    omega

end Laid

namespace Stands

variable {walker : Walker} {start index : Nat}

/-- **The events of a method give its record.** -/
theorem foldlM_events (h : walker.Stands start index) (done : Array TrainingRecord) :
    walker.events.foldlM RecordCollector.step? ⟨none, done⟩ =
      some ⟨none, done.push (walker.graph.recordOf walker.method index)⟩ := by
  have hlaid := h.laid
  have hroot := hlaid.node_id hlaid.shaped.size_pos
  rw [Nat.add_zero] at hroot
  have hcomplete : walker.Complete
      (Layout.firstOf walker.graph.vocabulary.size walker.graph.methods start index)
      ⟨Layout.firstOf walker.graph.vocabulary.size walker.graph.methods start index,
        (walker.method.labelsIn walker.graph.vocabulary).toArray, #[]⟩ :=
    { hlaid with
      base_eq := rfl
      size_eq := by rw [List.size_toArray, hlaid.shaped.length_labelsIn] }
  have hinner : (walker.entities ++ walker.edges).foldlM RecordCollector.step?
      ⟨some { base := (walker.node 0).id }, done⟩ =
        (some ⟨Layout.firstOf walker.graph.vocabulary.size walker.graph.methods start index,
          (walker.method.labelsIn walker.graph.vocabulary).toArray,
          (walker.method.edgesIn index).toArray⟩).map fun last => ⟨some last, done⟩ := by
    rw [hroot, List.foldlM_append, hlaid.foldlM_entities, Option.bind_eq_bind, Option.bind_some,
      RecordCollector.foldlM_edges _ fun event => walker.exists_of_mem_edges,
      h.filterMap_edges hcomplete, Array.empty_append]
    rfl
  exact RecordCollector.foldlM_method walker.method.signature (walker.node 0) hinner

end Stands

end Walker

/-! ## The events of a class -/

/-- What holds of each member and what is made of it and its number. -/
theorem forall₂_zipIdx_map {α β : Type} {r : α → β → Prop} {f : α × Nat → β} {xs : List α}
    {start : Nat} (h : ∀ i a, xs[i]? = some a → r a (f (a, start + i))) :
    List.Forall₂ r xs ((xs.zipIdx start).map f) := by
  induction xs generalizing start with
  | nil => exact .nil
  | cons a xs ih =>
    refine .cons (h 0 a rfl) (ih fun i b hb => ?_)
    have hlater := h (i + 1) b hb
    rwa [Nat.add_comm i, ← Nat.add_assoc] at hlater

namespace ClassGraph

/-- What holds of each method and its record. -/
theorem forall₂_recordOf {graph : ClassGraph} {r : MethodGraph → TrainingRecord → Prop}
    (h : ∀ index method, graph.methods[index]? = some method →
      r method (graph.recordOf method index)) :
    List.Forall₂ r graph.methods
      (graph.methods.zipIdx.map fun (method, index) => graph.recordOf method index) := by
  refine forall₂_zipIdx_map fun index method hmethod => ?_
  rw [Nat.zero_add]
  exact h index method hmethod

/-- The events of a sound class add the records of its methods to those that are done. -/
theorem Sound.foldlM_eventsWith {graph : ClassGraph} (h : graph.Sound) {ids rest : IdSequence}
    {layouts : List Layout}
    (hlayouts : Layout.ofMethods? graph.vocabulary.size graph.methods ids = some (layouts, rest))
    (done : Array TrainingRecord) :
    (graph.eventsWith layouts).foldlM RecordCollector.step? ⟨none, done⟩ = some ⟨none, done ++
      (graph.methods.zipIdx.map fun (method, index) => graph.recordOf method index).toArray⟩ := by
  rw [eventsWith_eq hlayouts, RecordCollector.foldlM_class, RecordCollector.foldlM_flatMap _
    (fun pair => graph.recordOf pair.1 pair.2)]
  rintro ⟨method, index⟩ hmem done
  exact (h.stands ids.next (List.mk_mem_zipIdx_iff_getElem?.mp hmem)).foldlM_events done

/-- **The events of a sound class give the records of its methods.** -/
theorem Sound.recordsOf?_eventsWith {graph : ClassGraph} (h : graph.Sound)
    {ids rest : IdSequence} {layouts : List Layout}
    (hlayouts : Layout.ofMethods? graph.vocabulary.size graph.methods ids = some (layouts, rest)) :
    recordsOf? (graph.eventsWith layouts) =
      some (graph.methods.zipIdx.map fun (method, index) => graph.recordOf method index) := by
  rw [recordsOf?]
  show Option.map _ (List.foldlM RecordCollector.step? ⟨none, #[]⟩ _) = _
  rw [h.foldlM_eventsWith hlayouts, Option.map_some, Array.empty_append]

/-- A sound class has its records unless the numbers run out. -/
theorem Sound.exists_records {graph : ClassGraph} (h : graph.Sound) {ids : IdSequence}
    (hids : graph.walk ids ≠ .error .idsExhausted) :
    ∃ events rest, graph.walk ids = .ok (events, rest) ∧ recordsOf? events =
      some (graph.methods.zipIdx.map fun (method, index) => graph.recordOf method index) := by
  obtain ⟨layouts, rest, hlayouts, hwalk⟩ := h.walk_eq hids
  exact ⟨_, rest, hwalk, h.recordsOf?_eventsWith hlayouts⟩

end ClassGraph

/-- **Records are exactly the graph.**  Unless the numbers run out, the walk over the class of a run
gives one record for each method, in the order of the methods, with the labels and the edges that
the method has.  Each node has exactly one place in the walk. -/
theorem ClassBuilder.IsRun.recordsOf?_walk {builder : ClassBuilder} (h : builder.IsRun)
    {ids : IdSequence} (hids : builder.build.walk ids ≠ .error .idsExhausted) :
    (∀ method ∈ builder.build.methods,
      method.preorder.Perm (List.range method.nodes.size)) ∧
    ∃ events rest, builder.build.walk ids = .ok (events, rest) ∧
      recordsOf? events = some (builder.build.methods.zipIdx.map fun (method, index) =>
        builder.build.recordOf method index) := by
  have hsound := h.sound
  refine ⟨fun method hmethod => ?_, ?_⟩
  · rw [(hsound.shaped method hmethod).preorder_eq]
  · exact hsound.exists_records hids

/-- A run that makes two methods, the second of which calls the first and itself. -/
def twoMethodSteps : List Session.Step :=
  [.openMethod "a:0", .move (.descend .returnStatement), .move (.emit "return" .plain),
    .move .ascend, .close, .add 0,
    .openMethod "b:0", .move (.descendCall .methodInvocation "a:0"), .move (.emit "x" .identifier),
    .move .ascend, .move (.descendCall .methodInvocation "b:0"), .move (.emit "x" .identifier),
    .move .ascend, .move (.emit "return" .plain), .close, .add 1]

/-- The class of these two methods. -/
def twoMethodBuilder : ClassBuilder :=
  ((Session.start "C").run twoMethodSteps).builder?.getD { name := "C" }

/-- The class with two methods is built by a run. -/
theorem isRun_twoMethodBuilder : twoMethodBuilder.IsRun :=
  ⟨"C", twoMethodSteps, by decide, by decide +kernel⟩

theorem walk_twoMethodBuilder : twoMethodBuilder.build.walk .fresh ≠ .error .idsExhausted :=
  ne_error_of_toBool (by decide +kernel) _

/-- Two methods have two records, in their order. -/
theorem ClassBuilder.IsRun.recordsOf?_walk_two :
    twoMethodBuilder.IsRun ∧ twoMethodBuilder.build.walk .fresh ≠ .error .idsExhausted ∧
    ∃ events rest, twoMethodBuilder.build.walk .fresh = .ok (events, rest) ∧
      recordsOf? events = some (twoMethodBuilder.build.methods.zipIdx.map fun (method, index) =>
        twoMethodBuilder.build.recordOf method index) :=
  ⟨isRun_twoMethodBuilder, walk_twoMethodBuilder,
    (ClassBuilder.IsRun.recordsOf?_walk isRun_twoMethodBuilder walk_twoMethodBuilder).2⟩

end CodeGraph
