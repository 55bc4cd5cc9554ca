/-
# One record for each method

Whatever a class is like, if it can be walked and no label is out of step, then each method gives one
record, which depends on the events of this method alone, and the records are in the order of the
methods (`ClassGraph.forall₂_blocks`).
-/
import CodeGraph.Proofs.Record.Collect
import CodeGraph.Proofs.Walk.Announced

namespace CodeGraph

namespace RecordCollector

/-- Inside of a method only the record in the making counts. -/
theorem exists_foldlM_inner (events : List Event)
    (hevents : ∀ event ∈ events, (∃ sort visit, event = .entity sort visit) ∨
      ∃ relation source target, event = .edge relation source target) (pending : PendingRecord) :
    ∃ last? : Option PendingRecord, ∀ done, events.foldlM step? ⟨some pending, done⟩ =
      last?.map fun last => ⟨some last, done⟩ := by
  induction events generalizing pending with
  | nil => exact ⟨some pending, fun done => rfl⟩
  | cons event events ih =>
    have hlater := ih fun other hother => hevents other (List.mem_cons_of_mem event hother)
    rcases hevents event List.mem_cons_self with ⟨sort, visit, rfl⟩ | ⟨relation, source, target, rfl⟩
    · -- a thing that is out of step ends it all
      rcases hlabel : pending.label? visit with _ | next
      · refine ⟨none, fun done => ?_⟩
        show ((pending.label? visit).map _).bind _ = _
        rw [hlabel]
        rfl
      · obtain ⟨last?, hlast⟩ := hlater next
        refine ⟨last?, fun done => ?_⟩
        rw [← hlast done]
        show ((pending.label? visit).map _).bind _ = _
        rw [hlabel]
        rfl
    · obtain ⟨last?, hlast⟩ := hlater (pending.edge relation.kind source.id target.id)
      exact ⟨last?, hlast⟩

/-- The events give at most one record, whatever has been done before. -/
def GivesOne (events : List Event) : Prop :=
  ∃ record? : Option TrainingRecord, ∀ done, events.foldlM step? ⟨none, done⟩ =
    record?.map fun record => ⟨none, done.push record⟩

theorem givesOne_events (walker : Walker) : GivesOne walker.events := by
  have hinner : ∀ event ∈ walker.entities ++ walker.edges,
      (∃ sort visit, event = .entity sort visit) ∨
        ∃ relation source target, event = .edge relation source target := by
    intro event hevent
    rcases List.mem_append.mp hevent with hthing | hedge
    · exact Or.inl (walker.exists_of_mem_entities hthing)
    · exact Or.inr (walker.exists_of_mem_edges hedge)
  obtain ⟨last?, hlast⟩ := exists_foldlM_inner _ hinner { base := (walker.node 0).id }
  refine ⟨last?.map PendingRecord.finish, fun done => ?_⟩
  rw [walker.events_eq, foldlM_method walker.method.signature (walker.node 0) (hlast done),
    Option.map_map]
  rfl

/-- Of events that give at most one record, those that are gone through give one. -/
theorem GivesOne.cases {events : List Event} (h : GivesOne events) :
    (∀ done, events.foldlM step? ⟨none, done⟩ = none) ∨
    ∃ record, recordsOf? events = some [record] ∧
      ∀ done, events.foldlM step? ⟨none, done⟩ = some ⟨none, done.push record⟩ := by
  obtain ⟨record?, hrecord⟩ := h
  cases record? with
  | none => exact Or.inl hrecord
  | some record =>
    refine Or.inr ⟨record, ?_, hrecord⟩
    rw [recordsOf?]
    show Option.map _ (events.foldlM step? ⟨none, #[]⟩) = _
    rw [hrecord]
    rfl

/-- Blocks of events are gone through one after another, and each gives its record. -/
theorem exists_of_foldlM_flatten {blocks : List (List Event)}
    (h : ∀ block ∈ blocks, GivesOne block) {done : Array TrainingRecord} {last : RecordCollector}
    (hfold : blocks.flatten.foldlM step? ⟨none, done⟩ = some last) :
    ∃ records, last = ⟨none, done ++ records.toArray⟩ ∧
      List.Forall₂ (fun block record => recordsOf? block = some [record]) blocks records := by
  induction blocks generalizing done with
  | nil =>
    cases hfold
    exact ⟨[], by rw [Array.append_empty], .nil⟩
  | cons block blocks ih =>
    rw [List.flatten_cons, List.foldlM_append] at hfold
    rcases (h block List.mem_cons_self).cases with hnone | ⟨record, hrecord, hsome⟩
    · rw [hnone] at hfold
      cases hfold
    · rw [hsome] at hfold
      obtain ⟨records, rfl, hrecords⟩ :=
        ih (fun other hother => h other (List.mem_cons_of_mem block hother)) hfold
      exact ⟨record :: records, by rw [List.push_append_toArray], .cons hrecord hrecords⟩

end RecordCollector

/-- **A class gives one record for each method**, in the order of the methods and each from the
events of its own method. -/
theorem ClassGraph.forall₂_blocks {graph : ClassGraph} {records : List TrainingRecord}
    (h : graph.records? = some records) :
    List.Forall₂ (fun block record => recordsOf? block = some [record])
      (graph.blocksFrom IdSequence.fresh.next) records := by
  have hgives : ∀ block ∈ graph.blocksFrom IdSequence.fresh.next,
      RecordCollector.GivesOne block := by
    intro block hblock
    obtain ⟨pair, -, rfl⟩ := List.mem_map.mp hblock
    exact RecordCollector.givesOne_events _
  obtain ⟨⟨events, rest⟩, hwalk, hrecords⟩ := Option.bind_eq_some_iff.mp h
  rw [walk] at hwalk
  split at hwalk
  · cases hwalk
  next layouts rest' hlayouts =>
    split at hwalk
    · cases hwalk
      replace hrecords : recordsOf? (graph.eventsWith layouts) = some records := hrecords
      rw [eventsWith_eq hlayouts, recordsOf?, RecordCollector.foldlM_class, List.flatMap_def]
        at hrecords
      obtain ⟨last, hlast, rfl⟩ := Option.map_eq_some_iff.mp hrecords
      obtain ⟨records, rfl, hblocks⟩ := RecordCollector.exists_of_foldlM_flatten hgives hlast
      rwa [Array.empty_append, List.toList_toArray]
    · cases hwalk

end CodeGraph
