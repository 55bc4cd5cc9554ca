/-
# Drawings and records

The drawing of a method and its record are made from the same walk.  The drawing shows the edges of
the record in the same order, but every return the other way round
(`ClassBuilder.IsRun.drawnEdges_walk`).
-/
import CodeGraph.Proofs.Record.WellTyped
import CodeGraph.Proofs.Walk.Announced
import CodeGraph.Proofs.Walk.Arrows

namespace CodeGraph

/-! ## Edges of a drawing -/

/-- The things of a method, by their sorts and numbers. -/
def things (block : List Event) : List (Entity × Nat) :=
  block.filterMap fun
    | .entity sort visit => some (sort, visit.id)
    | _ => none

/-- The edge that an arrow shows in a method whose root has the number `first`, if both its ends are
among the things of the method. -/
def Dot.Arrow.edgeIn? (first : Nat) (members : List (Entity × Nat)) (arrow : Dot.Arrow) :
    Option RecordEdge :=
  if arrow.source ∈ members ∧ arrow.target ∈ members then
    some (.ofKind (arrow.source.2 - first) (arrow.target.2 - first) arrow.kind)
  else none

/-- The edges inside a method that are read off its drawing. -/
def drawnEdges (first : Nat) (block : List Event) : List RecordEdge :=
  (Dot.arrows (Dot.render block)).filterMap (Dot.Arrow.edgeIn? first (things block))

namespace RecordEdge

/-- The edge as it is drawn: a return the other way round. -/
def drawn (edge : RecordEdge) : RecordEdge :=
  if edge.code = EdgeKind.returnsTo.code then
    { edge with source := edge.target, target := edge.source }
  else edge

/-- Only an edge from a call to a return token is drawn the other way round. -/
theorem drawn_eq_self_iff {edge : RecordEdge} :
    edge.drawn = edge ↔ edge.code = EdgeKind.returnsTo.code → edge.source = edge.target := by
  obtain ⟨source, target, code, name⟩ := edge
  rw [drawn]
  split
  · next hcode =>
    rw [RecordEdge.mk.injEq]
    exact ⟨fun h _ => h.2.1, fun h => ⟨(h hcode).symm, h hcode, rfl, rfl⟩⟩
  · next hcode => exact ⟨fun _ h => absurd h hcode, fun _ => rfl⟩

end RecordEdge

/-- An arrow shows the edge that it is drawn for, or that edge the other way round. -/
theorem Dot.edgeIn?_arrowOf (first : Nat) (members : List (Entity × Nat)) (relation : Relation)
    (source target : Nat) :
    (Dot.arrowOf relation source target).edgeIn? first members =
      if (relation.source, source) ∈ members ∧ (relation.target, target) ∈ members then
        some (RecordEdge.ofKind (source - first) (target - first) relation.kind).drawn
      else none := by
  cases relation with
  | returnsTo =>
    rw [Arrow.edgeIn?, arrowOf]
    simp only [and_comm]
    rfl
  | _ => rfl

/-! ## The drawing of a method -/

/-- What is known of a method is what it announces. -/
theorem mem_things {block : List Event} {sort : Entity} {id : Nat} :
    (sort, id) ∈ things block ↔ ∃ visit ∈ announced sort block, visit.id = id := by
  simp only [things, announced, List.mem_filterMap]
  constructor
  · rintro ⟨event, hmem, hevent⟩
    cases event with
    | entity s visit =>
      cases hevent
      exact ⟨visit, ⟨_, hmem, if_pos rfl⟩, rfl⟩
    | _ => cases hevent
  · rintro ⟨visit, ⟨event, hmem, hevent⟩, rfl⟩
    cases event with
    | entity s visit' =>
      rw [Event.announces?] at hevent
      split at hevent
      · next hsort =>
        cases hevent
        subst hsort
        exact ⟨_, hmem, rfl⟩
      · cases hevent
    | _ => cases hevent

namespace Walker

variable {walker : Walker} {first : Nat}

/-- The things of a method are those that its walker visits. -/
theorem Laid.mem_things_iff (h : walker.Laid first) {sort : Entity} {id : Nat} :
    (sort, id) ∈ things walker.events ↔
      ∃ i < walker.count sort, (walker.visit sort i).id = id := by
  rw [mem_things, h.announced_events]
  simp only [List.mem_map, List.mem_range]
  constructor
  · rintro ⟨-, ⟨i, hi, rfl⟩, hid⟩
    exact ⟨i, hi, hid⟩
  · rintro ⟨i, hi, hid⟩
    exact ⟨_, ⟨i, hi, rfl⟩, hid⟩

/-- A thing of the method has its number less that of the root as its position. -/
theorem Complete.position?_of_mem_things {pending : PendingRecord}
    (h : walker.Complete first pending) {sort : Entity} {id : Nat}
    (hid : (sort, id) ∈ things walker.events) : pending.position? id = some (id - first) := by
  obtain ⟨i, hi, rfl⟩ := h.toLaid.mem_things_iff.mp hid
  rw [h.toLaid.visit_id hi, Nat.add_assoc, Nat.add_sub_cancel_left, ← h.base_eq]
  refine PendingRecord.position?_add ?_
  rw [h.size_eq]
  cases sort <;> simp only [count, MethodGraph.count, MethodGraph.offset] at hi ⊢ <;> omega

/-- A record in the making that has all labels of the method. -/
theorem Laid.complete (h : walker.Laid first) : walker.Complete first
    ⟨first, (walker.method.labelsIn walker.graph.vocabulary).toArray, #[]⟩ :=
  { h with
    base_eq := rfl
    size_eq := by rw [List.size_toArray, h.shaped.length_labelsIn] }

theorem edge_mem_events (walker : Walker) {event : Event} (h : event ∈ walker.edges) :
    event ∈ walker.events := by
  rw [events_eq]
  exact List.mem_cons_of_mem _ (List.mem_append_left _ (List.mem_append_right _ h))

namespace Stands

variable {start index : Nat}

/-- An edge ends in the method, and starts in it unless a call site lies in another one. -/
theorem mem_things_of_mem_edges (h : walker.Stands start index) {pending : PendingRecord}
    (hpending : walker.Complete (walker.graph.firstId start index) pending) {relation : Relation}
    {source target : Visit} (hedge : .edge relation source target ∈ walker.edges) :
    ((relation.source, source.id) ∈ things walker.events ∨ pending.position? source.id = none) ∧
      (relation.target, target.id) ∈ things walker.events := by
  have hvisit {sort : Entity} {i : Nat} (hi : i < walker.count sort) :
      (sort, (walker.visit sort i).id) ∈ things walker.events :=
    h.laid.mem_things_iff.mpr ⟨i, hi, rfl⟩
  rcases h.mem_joined (edge_mem_events walker hedge) with
    ⟨j, k, hpair, rfl, rfl⟩ | ⟨rfl, site, i, hpair, rfl, rfl⟩
  · obtain ⟨hj, hk⟩ := h.lt_count hpair
    exact ⟨Or.inl (hvisit hj), hvisit hk⟩
  · obtain ⟨token, caller, htoken, hsite, hcaller, hsize, hid⟩ := h.exists_of_mem_returnPairs hpair
    have hi : i < walker.count .token := (Array.getElem?_eq_some_iff.mp htoken).1
    refine ⟨?_, hvisit hi⟩
    obtain ⟨-, node, hnode, -⟩ := h.sound.returns _ h.method_mem i token htoken site hsite
    have hposition := h.position?_callSite hpending hnode
    by_cases hsame : site.method = index
    · -- the call site is a node of the method itself
      left
      rw [hsame, h.method_eq, Option.some.injEq] at hcaller
      subst hcaller
      have hown : (walker.callSite site).id = (walker.visit .node site.node).id := by
        rw [hid, hsame]
        exact (h.laid.node_id hsize).symm
      have hv : site.node < walker.count .node := hsize
      rw [hown]
      exact hvisit hv
    · right
      rw [hposition, if_neg hsame]

/-- The arrow of an edge shows what the edge adds to the record, as it is drawn. -/
theorem edgeIn?_arrowOf (h : walker.Stands start index) {pending : PendingRecord}
    (hpending : walker.Complete (walker.graph.firstId start index) pending) {relation : Relation}
    {source target : Visit} (hedge : .edge relation source target ∈ walker.edges) :
    (Dot.arrowOf relation source.id target.id).edgeIn? (walker.graph.firstId start index)
        (things walker.events) =
      (pending.edge? (.edge relation source target)).map RecordEdge.drawn := by
  obtain ⟨hsource, htarget⟩ := h.mem_things_of_mem_edges hpending hedge
  have htargetPosition := hpending.position?_of_mem_things htarget
  rw [Dot.edgeIn?_arrowOf]
  by_cases hmem : (relation.source, source.id) ∈ things walker.events
  · rw [if_pos ⟨hmem, htarget⟩,
      edge?_eq_some (hpending.position?_of_mem_things hmem) htargetPosition]
    rfl
  · rw [if_neg fun hboth => hmem hboth.1, PendingRecord.edge?, hsource.resolve_left hmem]
    rfl

/-- **A drawing shows the edges of the record, with the returns the other way round.** -/
theorem drawnEdges_events (h : walker.Stands start index) :
    drawnEdges (walker.graph.firstId start index) walker.events =
      (walker.method.edgesIn index).map RecordEdge.drawn := by
  have hentities : walker.entities.filterMap Event.arrow? = [] := by
    rw [List.filterMap_eq_nil_iff]
    intro event hevent
    obtain ⟨sort, visit, rfl⟩ := walker.exists_of_mem_entities hevent
    rfl
  rw [drawnEdges, Dot.arrows_render, walker.filterMap_events (fun _ _ => rfl) fun _ _ => rfl,
    hentities, List.nil_append, ← h.filterMap_edges h.laid.complete, List.map_filterMap,
    List.filterMap_filterMap]
  refine List.filterMap_congr fun event hevent => ?_
  obtain ⟨relation, source, target, rfl⟩ := walker.exists_of_mem_edges hevent
  exact h.edgeIn?_arrowOf h.laid.complete hevent

end Stands

end Walker

/-! ## The drawing of a class -/

namespace ClassGraph

/-- A return joins a node to a token, so it is not the same the other way round. -/
theorem Sound.map_drawn_edgesIn {graph : ClassGraph} (h : graph.Sound) {method : MethodGraph}
    {index : Nat} (hmethod : graph.methods[index]? = some method) :
    (method.edgesIn index).map RecordEdge.drawn = method.edgesIn index ↔
      ∀ edge ∈ method.edgesIn index, edge.code ≠ EdgeKind.returnsTo.code := by
  have hself : (method.edgesIn index).map RecordEdge.drawn = (method.edgesIn index).map id ↔
      ∀ edge ∈ method.edgesIn index, edge.drawn = id edge := List.map_inj_left
  rw [List.map_id] at hself
  rw [hself]
  refine forall₂_congr fun edge hedge => ?_
  rw [id, RecordEdge.drawn_eq_self_iff]
  refine ⟨fun hsame hcode => ?_, fun hcode heq => absurd heq hcode⟩
  have hreturn : edge ∈ method.edgesOfKind index .returnsTo := by
    rw [← (h.shaped method (List.mem_of_getElem? hmethod)).filter_edgesIn index, List.mem_filter]
    exact ⟨hedge, decide_eq_true hcode⟩
  obtain ⟨source, target, ⟨rfl, rfl⟩, hsource, htarget⟩ := h.joins hmethod hreturn
  have hlt : edge.source < edge.target := Nat.lt_of_lt_of_le hsource htarget.1
  exact Nat.ne_of_lt hlt (hsame hcode)

/-- The walk over a sound class gives a drawing and a record for each method. -/
theorem Sound.exists_drawings {graph : ClassGraph} (h : graph.Sound) {ids : IdSequence}
    (hids : graph.walk ids ≠ .error .idsExhausted) :
    ∃ (events : List Event) (rest : IdSequence) (blocks : List (List Event))
      (records : List TrainingRecord), graph.walk ids = .ok (events, rest) ∧
      events = .classStart graph.name :: (blocks.flatten ++ [.classEnd graph.name]) ∧
      recordsOf? events = some records ∧ blocks.length = graph.methods.length ∧
      records.length = graph.methods.length ∧
      ∀ (index : Nat) (method : MethodGraph), graph.methods[index]? = some method →
        ∃ root inner, blocks[index]? = some (.methodStart method.signature root ::
            (inner ++ [.methodEnd method.signature root])) ∧
          records[index]? = some (graph.recordOf method index) ∧
          drawnEdges root.id (.methodStart method.signature root ::
            (inner ++ [.methodEnd method.signature root])) =
              (method.edgesIn index).map RecordEdge.drawn := by
  obtain ⟨layouts, rest, hlayouts, -⟩ := h.walk_eq hids
  have hwalk := (h.walk_eq_ok hlayouts).1
  obtain ⟨events, rest', hwalk', hrecords⟩ := h.exists_records hids
  obtain ⟨rfl, rfl⟩ := Prod.mk.inj (Except.ok.inj (hwalk.symm.trans hwalk'))
  refine ⟨_, rest, graph.blocksFrom ids.next, _, hwalk, rfl, hrecords, ?_, ?_, ?_⟩
  · rw [blocksFrom, List.length_map, List.length_zipIdx]
  · rw [List.length_map, List.length_zipIdx]
  · intro index method hmethod
    have hstands := h.stands ids.next hmethod
    have hroot : ((graph.walkerAt ids.next method index).node 0).id = graph.firstId ids.next index :=
      hstands.laid.node_id hstands.laid.shaped.size_pos
    refine ⟨(graph.walkerAt ids.next method index).node 0,
      (graph.walkerAt ids.next method index).entities ++
        (graph.walkerAt ids.next method index).edges, ?_, ?_, ?_⟩
    · rw [getElem?_blocksFrom, hmethod]
      rfl
    · rw [List.getElem?_map, List.getElem?_zipIdx, hmethod, Option.map_some, Option.map_some,
        Nat.zero_add]
    · rw [hroot]
      exact hstands.drawnEdges_events

end ClassGraph

namespace ClassBuilder

/-- **Drawings show the records, but for the direction of returns.**  Unless the numbers run out, the
walk over the class of a run gives a drawing and a record for each method.  The edges of a method
that are read off its drawing, from the number of its root on, are those of its record, in the same
order, with every return the other way round; so they are the same just if the record has none. -/
theorem IsRun.drawnEdges_walk {builder : ClassBuilder} (h : builder.IsRun)
    {ids : IdSequence} (hids : builder.build.walk ids ≠ .error .idsExhausted) :
    ∃ (events : List Event) (rest : IdSequence) (blocks : List (List Event))
      (records : List TrainingRecord), builder.build.walk ids = .ok (events, rest) ∧
      events = .classStart builder.build.name ::
        (blocks.flatten ++ [.classEnd builder.build.name]) ∧
      recordsOf? events = some records ∧ blocks.length = builder.build.methods.length ∧
      records.length = builder.build.methods.length ∧
      ∀ (index : Nat) (method : MethodGraph) (block : List Event) (record : TrainingRecord),
        builder.build.methods[index]? = some method → blocks[index]? = some block →
        records[index]? = some record → ∃ root inner,
          block = .methodStart method.signature root ::
            (inner ++ [.methodEnd method.signature root]) ∧
          drawnEdges root.id block = record.edges.map RecordEdge.drawn ∧
          (drawnEdges root.id block = record.edges ↔
            ∀ edge ∈ record.edges, edge.code ≠ EdgeKind.returnsTo.code) := by
  obtain ⟨events, rest, blocks, records, hwalk, hevents, hrecords, hblocks, hlength, hdrawings⟩ :=
    h.sound.exists_drawings hids
  refine ⟨events, rest, blocks, records, hwalk, hevents, hrecords, hblocks, hlength, ?_⟩
  intro index method block record hmethod hblock hrecord
  obtain ⟨root, inner, hblock', hrecord', hdrawn⟩ := hdrawings index method hmethod
  obtain rfl := Option.some.inj (hblock.symm.trans hblock')
  obtain rfl := Option.some.inj (hrecord.symm.trans hrecord')
  exact ⟨root, inner, rfl, hdrawn,
    (Eq.congr_left hdrawn).trans (h.sound.map_drawn_edgesIn hmethod)⟩

/-- The edges of two methods are drawn as they are recorded, but for the call to a return token. -/
theorem IsRun.drawnEdges_walk_two :
    twoMethodBuilder.IsRun ∧ twoMethodBuilder.build.walk .fresh ≠ .error .idsExhausted ∧
    ∃ (events : List Event) (rest : IdSequence) (blocks : List (List Event))
      (records : List TrainingRecord), twoMethodBuilder.build.walk .fresh = .ok (events, rest) ∧
      events = .classStart twoMethodBuilder.build.name ::
        (blocks.flatten ++ [.classEnd twoMethodBuilder.build.name]) ∧
      recordsOf? events = some records ∧ blocks.length = twoMethodBuilder.build.methods.length ∧
      records.length = twoMethodBuilder.build.methods.length ∧
      ∀ (index : Nat) (method : MethodGraph) (block : List Event) (record : TrainingRecord),
        twoMethodBuilder.build.methods[index]? = some method → blocks[index]? = some block →
        records[index]? = some record → ∃ root inner,
          block = .methodStart method.signature root ::
            (inner ++ [.methodEnd method.signature root]) ∧
          drawnEdges root.id block = record.edges.map RecordEdge.drawn ∧
          (drawnEdges root.id block = record.edges ↔
            ∀ edge ∈ record.edges, edge.code ≠ EdgeKind.returnsTo.code) :=
  ⟨isRun_twoMethodBuilder, walk_twoMethodBuilder,
    IsRun.drawnEdges_walk isRun_twoMethodBuilder walk_twoMethodBuilder⟩

/-- A method that calls itself and returns has another drawing than its record. -/
theorem drawnEdges_ne_two :
    ∃ (events : List Event) (rest : IdSequence) (blocks : List (List Event))
      (records : List TrainingRecord) (root : Visit) (inner : List Event) (record : TrainingRecord),
      twoMethodBuilder.build.walk .fresh = .ok (events, rest) ∧
      events = .classStart twoMethodBuilder.build.name ::
        (blocks.flatten ++ [.classEnd twoMethodBuilder.build.name]) ∧
      recordsOf? events = some records ∧ records[1]? = some record ∧
      blocks[1]? = some (.methodStart "b:0" root :: (inner ++ [.methodEnd "b:0" root])) ∧
      drawnEdges root.id (.methodStart "b:0" root :: (inner ++ [.methodEnd "b:0" root])) ≠
        record.edges := by
  have hsound := isRun_twoMethodBuilder.sound
  have hsecond : (twoMethodBuilder.build.methods[1]?).any (fun method =>
      method.signature = "b:0" ∧
        ∃ edge ∈ method.edgesIn 1, edge.code = EdgeKind.returnsTo.code) = true := by
    decide +kernel
  obtain ⟨method, hmethod, hreturn⟩ := (Option.any_eq_true _ _).mp hsecond
  obtain ⟨hsignature, edge, hedge, hcode⟩ := of_decide_eq_true hreturn
  obtain ⟨events, rest, blocks, records, hwalk, hevents, hrecords, -, -, hdrawings⟩ :=
    hsound.exists_drawings walk_twoMethodBuilder
  obtain ⟨root, inner, hblock, hrecord, hdrawn⟩ := hdrawings 1 method hmethod
  rw [hsignature] at hblock hdrawn
  refine ⟨events, rest, blocks, records, root, inner, _, hwalk, hevents, hrecords, hrecord, hblock,
    fun hsame => ?_⟩
  exact (hsound.map_drawn_edgesIn hmethod).mp (hdrawn.symm.trans hsame) edge hedge hcode

end ClassBuilder

end CodeGraph
