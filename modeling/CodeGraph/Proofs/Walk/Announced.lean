/-
# What a walk announces

A walk over the class of a run needs a number for every thing of every method, and with so many
numbers at hand it goes through: the things get them one after the other, each method begins and
ends with the number of its root, and an edge has two things as its ends that are announced in the
same method, or a call site that is announced in its own.  With fewer numbers there is no event at
all (`ClassBuilder.IsRun.walk_startingAt`).
-/
import CodeGraph.Proofs.Walk.Reading

namespace CodeGraph

/-! ## Numbers of a class -/

namespace ClassGraph

/-- How many things there are in the methods of a class, where the words count in each of them. -/
def idCount (graph : ClassGraph) : Nat :=
  (graph.methods.map fun method =>
    method.nodes.size + method.tokens.size + method.symbols.size + graph.vocabulary.size).sum

/-- The methods of a class need all its numbers together. -/
theorem Sound.sum_sizeOf {graph : ClassGraph} (h : graph.Sound) :
    (graph.methods.map (Layout.sizeOf · graph.vocabulary.size)).sum = graph.idCount := by
  refine congrArg List.sum (List.map_congr_left fun method hmethod => ?_)
  exact Layout.sizeOf_eq (h.shaped method hmethod) _

/-- Behind the last method the numbers of the class have been used. -/
theorem Sound.firstOf_length {graph : ClassGraph} (h : graph.Sound) (start : Nat) :
    Layout.firstOf graph.vocabulary.size graph.methods start graph.methods.length =
      start + graph.idCount := by
  rw [Layout.firstOf, List.take_length, h.sum_sizeOf]

/-! ## Blocks -/

/-- The events `block` are those of the method, where `blocks` are those of all methods in turn. -/
structure IsBlock (graph : ClassGraph) (blocks : List (List Event)) (method : MethodGraph)
    (block : List Event) : Prop where
  /-- The method begins and ends with its root, which is the first thing that is announced; the
  edges come behind all things. -/
  framed : ∃ root things edges,
    block = .methodStart method.signature root ::
      (things ++ edges ++ [.methodEnd method.signature root]) ∧
    (announced .node block).head? = some root ∧
    (∀ event ∈ things, ∃ sort visit, event = .entity sort visit) ∧
    ∀ event ∈ edges, ∃ relation source target, event = .edge relation source target
  /-- The things that are announced are those of the method. -/
  labels : ∀ sort, (announced sort block).map Visit.label =
    method.labelsOf graph.vocabulary sort
  target : ∀ relation source target, .edge relation source target ∈ block →
    target ∈ announced relation.target block
  source : ∀ relation source target, .edge relation source target ∈ block →
    relation ≠ .returnsTo → source ∈ announced relation.source block
  /-- A call site that a token goes back to is announced in the method that it names. -/
  callSite : ∀ source target, .edge .returnsTo source target ∈ block →
    ∃ (i : Nat) (token : Token) (site : CallSite) (caller : MethodGraph) (other : List Event),
      method.tokens[i]? = some token ∧ site ∈ token.returnsTo ∧
      (announced .token block)[i]? = some target ∧
      graph.methods[site.method]? = some caller ∧ blocks[site.method]? = some other ∧
      (announced .node other)[caller.nodePosition site.node]? = some source

/-- What a walk from the number `first` gives: the events are those of the methods one after the
other, the things of the class have the numbers from `first` on, and the numbers behind them are
left. -/
structure IsWalk (graph : ClassGraph) (first : Nat) (events : List Event) (rest : IdSequence) :
    Prop where
  ids : events.filterMap Event.announcedId? = List.range' first graph.idCount
  rest_eq : rest.next = first + graph.idCount
  blocks : ∃ blocks, events = .classStart graph.name :: (blocks.flatten ++ [.classEnd graph.name]) ∧
    blocks.length = graph.methods.length ∧ ∀ (index : Nat) (method : MethodGraph)
      (block : List Event), graph.methods[index]? = some method → blocks[index]? = some block →
        graph.IsBlock blocks method block

/-- The events of the methods, if the numbers of the class begin with `start`. -/
def blocksFrom (graph : ClassGraph) (start : Nat) : List (List Event) :=
  graph.methods.zipIdx.map fun pair => (graph.walkerAt start pair.1 pair.2).events

/-- A method is walked from the number that those before it have left. -/
theorem getElem?_blocksFrom (graph : ClassGraph) (start index : Nat) :
    (graph.blocksFrom start)[index]? =
      graph.methods[index]?.map fun method => (graph.walkerAt start method index).events := by
  rw [blocksFrom, List.getElem?_map, List.getElem?_zipIdx, Option.map_map]
  simp only [Nat.zero_add]
  rfl

end ClassGraph

namespace Walker

variable {walker : Walker} {start index : Nat}

/-- An edge of a method joins a pair of one of its relations, or a call site to a return. -/
theorem Stands.mem_joined (h : walker.Stands start index) {relation : Relation}
    {source target : Visit} (hedge : .edge relation source target ∈ walker.events) :
    (∃ j k, (j, k) ∈ walker.method.pairs relation ∧ source = walker.visit relation.source j ∧
      target = walker.visit relation.target k) ∨
    (relation = .returnsTo ∧ ∃ site i, (site, i) ∈ walker.method.returnPairs ∧
      source = walker.callSite site ∧ target = walker.token i) := by
  have hjoined : (source, target) ∈ joined relation walker.events :=
    List.mem_filterMap.mpr ⟨_, hedge, if_pos rfl⟩
  rw [h.joined_events, List.mem_append] at hjoined
  rcases hjoined with hpair | hreturn
  · obtain ⟨⟨j, k⟩, hmem, heq⟩ := List.mem_map.mp hpair
    cases heq
    exact Or.inl ⟨j, k, hmem, rfl, rfl⟩
  · right
    split at hreturn
    · next hrelation =>
      obtain ⟨⟨site, i⟩, hmem, heq⟩ := List.mem_map.mp hreturn
      cases heq
      exact ⟨hrelation, site, i, hmem, rfl, rfl⟩
    · cases hreturn

end Walker

namespace ClassGraph

/-- **The events of each method are a block.** -/
theorem Sound.isBlock {graph : ClassGraph} (h : graph.Sound) (start : Nat) {index : Nat}
    {method : MethodGraph} (hindex : graph.methods[index]? = some method) :
    graph.IsBlock (graph.blocksFrom start) method (graph.walkerAt start method index).events := by
  have hstands := h.stands start hindex
  have hshaped := h.shaped method (List.mem_of_getElem? hindex)
  constructor
  case framed =>
    have hroot : 0 < (graph.walkerAt start method index).count .node := hshaped.size_pos
    refine ⟨(graph.walkerAt start method index).node 0, _, _, Walker.events_eq _, ?_, ?_, ?_⟩
    · rw [List.head?_eq_getElem?]
      exact hstands.laid.getElem?_announced hroot
    · exact fun event => Walker.exists_of_mem_entities _
    · exact fun event => Walker.exists_of_mem_edges _
  case labels =>
    intro sort
    rw [hstands.laid.announced_events, List.map_map]
    exact hstands.laid.labels_visit sort
  case target =>
    intro relation source target hedge
    rcases hstands.mem_joined hedge with ⟨j, k, hpair, -, rfl⟩ | ⟨rfl, site, i, hpair, -, rfl⟩
    · exact List.mem_of_getElem? (hstands.laid.getElem?_announced (hstands.lt_count hpair).2)
    · obtain ⟨token, -, htoken, -⟩ := hstands.exists_of_mem_returnPairs hpair
      have hi : i < (graph.walkerAt start method index).count .token :=
        (Array.getElem?_eq_some_iff.mp htoken).1
      exact List.mem_of_getElem? (hstands.laid.getElem?_announced hi)
  case source =>
    intro relation source target hedge hrelation
    rcases hstands.mem_joined hedge with ⟨j, k, hpair, rfl, -⟩ | ⟨rfl, -⟩
    · exact List.mem_of_getElem? (hstands.laid.getElem?_announced (hstands.lt_count hpair).1)
    · exact absurd rfl hrelation
  case callSite =>
    intro source target hedge
    rcases hstands.mem_joined hedge with ⟨j, k, hpair, -⟩ | ⟨-, site, i, hpair, rfl, rfl⟩
    · cases hpair
    obtain ⟨token, caller, htoken, hsite, hcaller, hsize, -⟩ :=
      hstands.exists_of_mem_returnPairs hpair
    change graph.methods[site.method]? = some caller at hcaller
    have hother := h.stands start hcaller
    refine ⟨i, token, site, caller, (graph.walkerAt start caller site.method).events, htoken, hsite,
      ?_, hcaller, ?_, ?_⟩
    · exact hstands.laid.getElem?_announced (Array.getElem?_eq_some_iff.mp htoken).1
    · rw [getElem?_blocksFrom, hcaller, Option.map_some]
    · rw [(h.shaped caller (List.mem_of_getElem? hcaller)).nodePosition_eq hsize,
        hstands.callSite_eq hother rfl hsize]
      exact hother.laid.getElem?_announced hsize

/-- The numbers of the things of a class follow one another from the first. -/
theorem Sound.announcedIds_blocksFrom {graph : ClassGraph} (h : graph.Sound) (start : Nat) :
    (graph.blocksFrom start).flatten.filterMap Event.announcedId? =
      List.range' start graph.idCount := by
  rw [blocksFrom, ← List.flatMap_def, List.filterMap_flatMap, ← h.sum_sizeOf,
    ← Layout.flatMap_range'_firstOf]
  refine List.flatMap_congr ?_
  rintro ⟨method, index⟩ hmem
  exact (h.stands start (List.mk_mem_zipIdx_iff_getElem?.mp hmem)).laid.announcedIds_events

/-- A sound class that has its layouts is walked block by block. -/
theorem Sound.walk_eq_ok {graph : ClassGraph} (h : graph.Sound) {ids rest : IdSequence}
    {layouts : List Layout}
    (hlayouts : Layout.ofMethods? graph.vocabulary.size graph.methods ids = some (layouts, rest)) :
    graph.walk ids = .ok (.classStart graph.name ::
        ((graph.blocksFrom ids.next).flatten ++ [.classEnd graph.name]), rest) ∧
      rest.next = ids.next + graph.idCount := by
  constructor
  · rw [walk, hlayouts]
    show (if graph.resolves then _ else _) = _
    rw [if_pos h.resolves, eventsWith_eq hlayouts, blocksFrom, ← List.flatMap_def]
  · rw [(Layout.ofMethods?_eq_some hlayouts).2, h.firstOf_length]

/-- **With enough numbers a sound class is walked as it should be.** -/
theorem Sound.exists_isWalk {graph : ClassGraph} (h : graph.Sound) {ids : IdSequence}
    (hids : ids.next + graph.idCount ≤ idLimit) :
    ∃ events rest, graph.walk ids = .ok (events, rest) ∧
      graph.IsWalk ids.next events rest := by
  have hfirst := (h.firstOf_length ids.next).trans_le hids
  obtain ⟨layouts, rest, hlayouts⟩ := Layout.exists_ofMethods? hfirst
  obtain ⟨hwalk, hrest⟩ := h.walk_eq_ok hlayouts
  refine ⟨_, rest, hwalk, ?_, hrest, graph.blocksFrom ids.next, rfl, ?_, ?_⟩
  · rw [List.filterMap_cons]
    show ((graph.blocksFrom ids.next).flatten ++ [_]).filterMap _ = _
    rw [List.filterMap_append, h.announcedIds_blocksFrom]
    exact List.append_nil _
  · rw [blocksFrom, List.length_map, List.length_zipIdx]
  · intro index method block hmethod hblock
    rw [getElem?_blocksFrom, hmethod, Option.map_some, Option.some.injEq] at hblock
    rw [← hblock]
    exact h.isBlock ids.next hmethod

/-- A class is not walked at all if there are not enough numbers. -/
theorem Sound.walk_eq_error {graph : ClassGraph} (h : graph.Sound) {ids : IdSequence}
    (hids : idLimit < ids.next + graph.idCount) :
    graph.walk ids = .error .idsExhausted ∧ graph.walkLines ids = [] := by
  rw [← h.firstOf_length] at hids
  have hnone := Layout.ofMethods?_eq_none_iff.mpr hids
  constructor
  · rw [walk, hnone]
  · rw [walkLines, hnone]

end ClassGraph

/-! ## The class of a run -/

theorem IdSequence.next_startingAt (first : UInt32) :
    (IdSequence.startingAt first.toNat).next = first.toNat := by
  have hlt := first.toNat_lt_size
  show min first.toNat idLimit = first.toNat
  rw [idLimit]
  omega

namespace ClassBuilder

/-- **A walk numbers everything without a gap, or does nothing.**  If the numbers from `first` to
the greatest suffice for the class of a run, then the walk from `first` gives them out one by one;
otherwise it fails before its first event. -/
theorem IsRun.walk_startingAt {builder : ClassBuilder} (h : builder.IsRun) (first : UInt32) :
    (first.toNat + builder.build.idCount ≤ 2 ^ 32 - 1 →
      ∃ events rest, builder.build.walk (.startingAt first.toNat) = .ok (events, rest) ∧
        builder.build.IsWalk first.toNat events rest) ∧
    (2 ^ 32 - 1 < first.toNat + builder.build.idCount →
      builder.build.walk (.startingAt first.toNat) = .error .idsExhausted ∧
        builder.build.walkLines (.startingAt first.toNat) = []) := by
  have hnext := IdSequence.next_startingAt first
  constructor
  · intro hids
    rw [← hnext] at hids
    have hwalk := h.sound.exists_isWalk hids
    rw [hnext] at hwalk
    exact hwalk
  · intro hids
    rw [← hnext] at hids
    exact h.sound.walk_eq_error hids

/-- A run whose first method calls the second, which comes later in the walk. -/
def forwardSteps : List Session.Step :=
  [.openMethod "run:0", .move (.descendCall .methodInvocation "stop:0"),
    .move (.emit "stopNow" .identifier), .move .ascend, .close, .add 0,
    .openMethod "stop:0", .move (.emit "return" .plain), .move (.emit "stopNow" .identifier),
    .close, .add 1]

/-- The class of these methods. -/
def forwardBuilder : ClassBuilder :=
  ((Session.start "C").run forwardSteps).builder?.getD { name := "C" }

/-- The class whose first method calls the second is built by a run. -/
theorem isRun_forwardBuilder : forwardBuilder.IsRun :=
  ⟨"C", forwardSteps, by decide, by decide +kernel⟩

/-- Twelve numbers are left from the first start, and one too few from the next. -/
theorem IsRun.walk_startingAt_forward :
    forwardBuilder.IsRun ∧ forwardBuilder.build.idCount = 12 ∧
    (∃ events rest, forwardBuilder.build.walk (.startingAt 4294967283) = .ok (events, rest) ∧
      forwardBuilder.build.IsWalk 4294967283 events rest) ∧
    forwardBuilder.build.walk (.startingAt 4294967284) = .error .idsExhausted :=
  have hcount : forwardBuilder.build.idCount = 12 := by decide +kernel
  ⟨isRun_forwardBuilder, hcount,
    (IsRun.walk_startingAt isRun_forwardBuilder 4294967283).1 (by rw [hcount]; decide),
    ((IsRun.walk_startingAt isRun_forwardBuilder 4294967284).2 (by rw [hcount]; decide)).1⟩

end ClassBuilder

end CodeGraph
