/-
# Records of several walks

Records do not depend on the number with which a walk begins, nor on what has been walked before.
So classes that are walked one after another, each with the numbers that those before it have left,
give the records that each of them gives alone (`ClassGraph.exists_walkAll`).
-/
import CodeGraph.Proofs.Record.OfGraph
import CodeGraph.Proofs.Walk.Moved

namespace CodeGraph

namespace ClassGraph

/-- Walks classes one after another, each with the numbers that those before it have left. -/
def walkAll : List ClassGraph → IdSequence → Except WalkFault (List Event × IdSequence)
  | [], ids => .ok ([], ids)
  | graph :: graphs, ids => do
    let (events, ids) ← graph.walk ids
    let (more, ids) ← walkAll graphs ids
    return (events ++ more, ids)

/-- The first class is walked, and then the others with what it has left. -/
theorem walkAll_cons {graph : ClassGraph} (graphs : List ClassGraph) {ids left : IdSequence}
    {events : List Event} (hwalk : graph.walk ids = .ok (events, left)) :
    walkAll (graph :: graphs) ids =
      (walkAll graphs left).map fun (more, rest) => (events ++ more, rest) := by
  rw [walkAll, hwalk]
  cases hall : walkAll graphs left with
  | error fault =>
    show (do let (more, rest) ← walkAll graphs left; return (events ++ more, rest)) = _
    rw [hall]
    rfl
  | ok result =>
    show (do let (more, rest) ← walkAll graphs left; return (events ++ more, rest)) = _
    rw [hall]
    rfl

/-- A class that can be walked from some number has its records. -/
theorem Sound.records?_eq {graph : ClassGraph} (h : graph.Sound) {ids : IdSequence}
    (hids : graph.walk ids ≠ .error .idsExhausted) :
    graph.records? =
      some (graph.methods.zipIdx.map fun (method, index) => graph.recordOf method index) := by
  obtain ⟨layouts, rest, hlayouts, -⟩ := h.walk_eq hids
  have hrest := (h.walk_eq_ok hlayouts).2
  -- the numbers of the class are no more than are left from a later start
  have hfits : IdSequence.fresh.next + graph.idCount ≤ idLimit := by
    have hle := rest.next_le
    show 0 + graph.idCount ≤ idLimit
    omega
  obtain ⟨events, last, hwalk, -⟩ := h.exists_isWalk hfits
  have hfresh : graph.walk .fresh ≠ .error .idsExhausted := by
    rw [hwalk]
    rintro ⟨⟩
  obtain ⟨events, last, hwalk, hrecords⟩ := h.exists_records hfresh
  rw [records?, hwalk]
  exact hrecords

/-- **Classes that are walked one after another give the records that each of them gives alone.** -/
theorem exists_walkAll {graphs : List ClassGraph} (h : ∀ graph ∈ graphs, graph.Sound)
    {ids : IdSequence} (hids : walkAll graphs ids ≠ .error .idsExhausted) :
    ∃ events rest parts, walkAll graphs ids = .ok (events, rest) ∧
      List.Forall₂ (fun graph records => graph.records? = some records) graphs parts ∧
      ∀ done, events.foldlM RecordCollector.step? ⟨none, done⟩ =
        some ⟨none, done ++ parts.flatten.toArray⟩ := by
  induction graphs generalizing ids with
  | nil => exact ⟨[], ids, [], rfl, .nil, fun done => by rw [List.flatten_nil]; rfl⟩
  | cons graph graphs ih =>
    have hgraph := h graph List.mem_cons_self
    have hfirst : graph.walk ids ≠ .error .idsExhausted := by
      intro herror
      rw [walkAll, herror] at hids
      exact hids rfl
    obtain ⟨layouts, left, hlayouts, hwalk⟩ := hgraph.walk_eq hfirst
    have hmore : walkAll graphs left ≠ .error .idsExhausted := by
      intro herror
      rw [walkAll_cons graphs hwalk, herror] at hids
      exact hids rfl
    obtain ⟨events, rest, parts, hall, hparts, hfold⟩ :=
      ih (fun other hother => h other (List.mem_cons_of_mem graph hother)) hmore
    refine ⟨graph.eventsWith layouts ++ events, rest, _ :: parts, ?_,
      .cons (hgraph.records?_eq hfirst) hparts, fun done => ?_⟩
    · rw [walkAll_cons graphs hwalk, hall]
      rfl
    · rw [List.foldlM_append, hgraph.foldlM_eventsWith hlayouts, Option.bind_eq_bind,
        Option.bind_some, hfold, List.flatten_cons, Array.append_assoc,
        List.append_toArray (List.map _ _) parts.flatten]

end ClassGraph

namespace ClassBuilder

/-- **Walks move with their first number and can be put together.**  A walk over the class of a run
from another number has the same events with the distance added to each number, and gives the same
records.  Classes of runs that are walked one after another give the records of each of them, as if
it were walked alone from the first number. -/
theorem walks_move_and_compose :
    (∀ builder : ClassBuilder, builder.IsRun → ∀ ids ids' : IdSequence,
      builder.build.walk ids ≠ .error .idsExhausted →
      builder.build.walk ids' ≠ .error .idsExhausted →
      ∃ events rest events' rest' records,
        builder.build.walk ids = .ok (events, rest) ∧
        builder.build.walk ids' = .ok (events', rest') ∧
        List.Forall₂ (Event.MovedBy ((ids'.next : Int) - ids.next)) events events' ∧
        recordsOf? events = some records ∧ recordsOf? events' = some records) ∧
    (∀ builders : List ClassBuilder, (∀ builder ∈ builders, builder.IsRun) → ∀ ids : IdSequence,
      ClassGraph.walkAll (builders.map build) ids ≠ .error .idsExhausted →
      ∃ events rest parts,
        ClassGraph.walkAll (builders.map build) ids = .ok (events, rest) ∧
        List.Forall₂ (fun builder records => builder.build.records? = some records) builders
          parts ∧
        recordsOf? events = some parts.flatten) := by
  constructor
  · intro builder h ids ids' hids hids'
    obtain ⟨events, rest, hwalk, hrecords⟩ := h.sound.exists_records hids
    obtain ⟨events', rest', hwalk', hrecords'⟩ := h.sound.exists_records hids'
    exact ⟨events, rest, events', rest', _, hwalk, hwalk', h.sound.moved_events hwalk hwalk',
      hrecords, hrecords'⟩
  · intro builders h ids hids
    have hsound : ∀ graph ∈ builders.map build, graph.Sound := by
      intro graph hgraph
      obtain ⟨builder, hbuilder, rfl⟩ := List.mem_map.mp hgraph
      exact (h builder hbuilder).sound
    obtain ⟨events, rest, parts, hwalk, hparts, hfold⟩ := ClassGraph.exists_walkAll hsound hids
    refine ⟨events, rest, parts, hwalk, List.forall₂_map_left_iff.mp hparts, ?_⟩
    rw [recordsOf?]
    show Option.map _ (events.foldlM RecordCollector.step? ⟨none, #[]⟩) = _
    rw [hfold, Option.map_some, Array.empty_append]

/-- The records of a method that calls a later one and of the later one. -/
def forwardRecords : List TrainingRecord :=
  [.correct ["MethodDeclaration", "MethodInvocation:stop:0", "stopNow", "stopNow", "stop", "now"]
      [.ofKind 1 2 .child, .ofKind 0 1 .child, .ofKind 2 3 .occurrenceOf, .ofKind 4 2 .subtokenOf,
        .ofKind 5 2 .subtokenOf],
    .correct ["MethodDeclaration", "return", "stopNow", "stopNow", "stop", "now"]
      [.ofKind 1 2 .nextToken, .ofKind 0 1 .child, .ofKind 0 2 .child, .ofKind 2 3 .occurrenceOf,
        .ofKind 4 2 .subtokenOf, .ofKind 5 2 .subtokenOf]]

/-- The records of a method that returns and of one that calls it and itself. -/
def twoMethodRecords : List TrainingRecord :=
  [.correct ["MethodDeclaration", "ReturnStatement", "return", "x"]
      [.ofKind 1 2 .child, .ofKind 0 1 .child],
    .correct ["MethodDeclaration", "MethodInvocation:a:0", "MethodInvocation:b:0", "x", "x",
        "return", "x", "x"]
      [.ofKind 3 4 .nextToken, .ofKind 4 5 .nextToken, .ofKind 0 5 .child, .ofKind 1 3 .child,
        .ofKind 2 4 .child, .ofKind 0 1 .child, .ofKind 0 2 .child, .ofKind 3 6 .occurrenceOf,
        .ofKind 4 6 .occurrenceOf, .ofKind 7 3 .subtokenOf, .ofKind 7 4 .subtokenOf,
        .ofKind 3 4 .nextLexicalUse, .ofKind 2 5 .returnsTo]]

/-- From 100 and from 3 the same two records are read off, and the first method begins 97 numbers
earlier.  Behind them come those of the other class, as if it were walked alone. -/
theorem walks_move_and_compose_forward :
    (∃ events rest events' rest',
      forwardBuilder.build.walk (.startingAt 100) = .ok (events, rest) ∧
      forwardBuilder.build.walk (.startingAt 3) = .ok (events', rest') ∧
      events[1]? = some (.methodStart "run:0" ⟨100, "MethodDeclaration"⟩) ∧
      events'[1]? = some (.methodStart "run:0" ⟨3, "MethodDeclaration"⟩) ∧
      List.Forall₂ (Event.MovedBy (-97)) events events' ∧
      recordsOf? events = some forwardRecords ∧ recordsOf? events' = some forwardRecords) ∧
    ∃ events rest,
      ClassGraph.walkAll ([forwardBuilder, twoMethodBuilder].map build) (.startingAt 100) =
        .ok (events, rest) ∧
      forwardBuilder.build.records? = some forwardRecords ∧
      twoMethodBuilder.build.records? = some twoMethodRecords ∧
      recordsOf? events = some (forwardRecords ++ twoMethodRecords) := by
  have hruns : ∀ builder ∈ [forwardBuilder, twoMethodBuilder], builder.IsRun := by
    simp only [List.mem_cons, List.not_mem_nil, or_false, forall_eq_or_imp, forall_eq]
    exact ⟨isRun_forwardBuilder, isRun_twoMethodBuilder⟩
  constructor
  · obtain ⟨events, rest, events', rest', records, hwalk, hwalk', hmoved, hrecords, hrecords'⟩ :=
      walks_move_and_compose.1 forwardBuilder isRun_forwardBuilder (.startingAt 100)
        (.startingAt 3) (ne_error_of_toBool (by decide +kernel) _)
        (ne_error_of_toBool (by decide +kernel) _)
    -- both walks are evaluated as far as to the first method, and the first one to its records
    have hstart : (forwardBuilder.build.walk (.startingAt 100)).toOption.bind (·.1[1]?) =
        some (.methodStart "run:0" ⟨100, "MethodDeclaration"⟩) := by
      decide +kernel
    have hstart' : (forwardBuilder.build.walk (.startingAt 3)).toOption.bind (·.1[1]?) =
        some (.methodStart "run:0" ⟨3, "MethodDeclaration"⟩) := by
      decide +kernel
    have hforward : (forwardBuilder.build.walk (.startingAt 100)).toOption.bind (recordsOf? ·.1) =
        some forwardRecords := by
      decide +kernel
    rw [hwalk] at hstart hforward
    rw [hwalk'] at hstart'
    rw [← hforward.symm.trans hrecords] at hrecords'
    exact ⟨events, rest, events', rest', hwalk, hwalk', hstart, hstart', hmoved, hforward,
      hrecords'⟩
  · obtain ⟨events, rest, parts, hwalk, hparts, hrecords⟩ :=
      walks_move_and_compose.2 [forwardBuilder, twoMethodBuilder] hruns (.startingAt 100)
        (ne_error_of_toBool (by decide +kernel) _)
    have hforward : forwardBuilder.build.records? = some forwardRecords := by decide +kernel
    have htwo : twoMethodBuilder.build.records? = some twoMethodRecords := by decide +kernel
    obtain ⟨first, _, hfirst, hlater, rfl⟩ := List.forall₂_cons_left_iff.mp hparts
    obtain ⟨second, _, hsecond, hnone, rfl⟩ := List.forall₂_cons_left_iff.mp hlater
    rw [hforward] at hfirst
    rw [htwo] at hsecond
    cases hfirst
    cases hsecond
    cases hnone
    exact ⟨events, rest, hwalk, hforward, htwo, hrecords⟩

end ClassBuilder

end CodeGraph
