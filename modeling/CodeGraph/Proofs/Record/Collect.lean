/-
# Collecting a record

What a record collector makes of the events of one method: things that come in step with their
numbers add their labels, edges add what `PendingRecord.edge?` makes of them, and at the end of a
method its record is done (`RecordCollector.foldlM_method`).
-/
import Mathlib
import CodeGraph.Record.OfEvents

namespace CodeGraph

namespace PendingRecord

/-- The edge of the record that an event adds, if its ends are in the method. -/
def edge? (pending : PendingRecord) : Event → Option RecordEdge
  | .edge relation source target => do
    let i ← pending.position? source.id
    let j ← pending.position? target.id
    return .ofKind i j relation.kind
  | _ => none

theorem edge_eq (pending : PendingRecord) (relation : Relation) (source target : Visit) :
    pending.edge relation.kind source.id target.id =
      { pending with
        edges := pending.edges ++ (pending.edge? (.edge relation source target)).toArray } := by
  rw [edge, edge?]
  rcases pending.position? source.id with _ | i
  · rw [Option.bind_eq_bind, Option.bind_none, Option.toArray_none, Array.append_empty]
  · rcases pending.position? target.id with _ | j
    · rw [Option.bind_eq_bind, Option.bind_some, Option.bind_none, Option.toArray_none,
        Array.append_empty]
    · rfl

/-- The edges so far do not matter for the next one. -/
theorem edge?_edge (pending : PendingRecord) (relation : Relation) (source target : Visit) :
    (pending.edge relation.kind source.id target.id).edge? = pending.edge? := by
  rw [edge_eq]
  rfl

/-- The position of a number inside the method. -/
theorem position?_add {pending : PendingRecord} {i : Nat} (h : i < pending.labels.size) :
    pending.position? (pending.base + i) = some i := by
  rw [position?, if_pos, Nat.add_sub_cancel_left]
  rw [Nat.add_sub_cancel_left, Bool.and_eq_true, decide_eq_true_eq, decide_eq_true_eq]
  exact ⟨Nat.le_add_right _ _, h⟩

/-- A number outside of the method has no position in it. -/
theorem position?_eq_none {pending : PendingRecord} {id : Nat}
    (h : id < pending.base ∨ pending.base + pending.labels.size ≤ id) :
    pending.position? id = none := by
  rw [position?, if_neg]
  rw [Bool.and_eq_true, decide_eq_true_eq, decide_eq_true_eq]
  omega

end PendingRecord

namespace RecordCollector

/-- A thing that comes in step with its number adds its label. -/
theorem step?_entity {pending : PendingRecord} {visit : Visit}
    (h : visit.id = pending.base + pending.labels.size) (sort : Entity)
    (done : Array TrainingRecord) :
    step? ⟨some pending, done⟩ (.entity sort visit) =
      some ⟨some { pending with labels := pending.labels.push visit.label }, done⟩ := by
  show (pending.label? visit).map _ = _
  rw [PendingRecord.label?, if_pos h]
  rfl

/-- Things that come in step with their numbers add their labels. -/
theorem foldlM_entities (sort : Entity) (visit : Nat → Visit) (count first : Nat)
    (labels : List String) (done : Array TrainingRecord)
    (hids : ∀ k, k < count → (visit k).id = first + labels.length + k) :
    ((List.range count).map fun k => Event.entity sort (visit k)).foldlM step?
        ⟨some ⟨first, labels.toArray, #[]⟩, done⟩ =
      some ⟨some ⟨first, (labels ++ (List.range count).map fun k => (visit k).label).toArray, #[]⟩,
        done⟩ := by
  -- the last thing comes behind the labels of all others
  induction count with
  | zero =>
    rw [List.range_zero, List.map_nil, List.map_nil, List.append_nil]
    rfl
  | succ count ih =>
    have hid : (visit count).id =
        first + (labels ++ (List.range count).map fun k => (visit k).label).toArray.size := by
      rw [hids count (Nat.lt_succ_self count), List.size_toArray, List.length_append,
        List.length_map, List.length_range, Nat.add_assoc]
    rw [List.range_succ, List.map_append, List.foldlM_append,
      ih fun k hk => hids k (Nat.lt_succ_of_lt hk), List.map_append, ← List.append_assoc]
    show (step? _ (.entity sort (visit count))).bind _ = _
    rw [step?_entity hid, List.push_toArray]
    rfl

/-- Edges add what the record in the making has of them. -/
theorem foldlM_edges (events : List Event)
    (hevents : ∀ event ∈ events, ∃ relation source target, event = .edge relation source target)
    (pending : PendingRecord) (done : Array TrainingRecord) :
    events.foldlM step? ⟨some pending, done⟩ =
      some ⟨some { pending with
        edges := pending.edges ++ (events.filterMap pending.edge?).toArray }, done⟩ := by
  induction events generalizing pending with
  | nil =>
    rw [List.filterMap_nil, Array.append_empty]
    rfl
  | cons event events ih =>
    obtain ⟨relation, source, target, rfl⟩ := hevents event List.mem_cons_self
    -- an edge that is added moves no number, so the others are found as before
    have hrest := ih fun event hevent => hevents event (List.mem_cons_of_mem _ hevent)
    rw [List.foldlM_cons]
    show events.foldlM step? ⟨some (pending.edge relation.kind source.id target.id), done⟩ = _
    rw [hrest, pending.edge?_edge, pending.edge_eq, List.filterMap_cons]
    rcases pending.edge? (.edge relation source target) with _ | found
    · rw [Option.toArray_none, Array.append_empty]
    · rw [Option.toArray_some, Array.append_singleton, List.push_append_toArray]

/-- Between the beginning and the end of a method its record is made. -/
theorem foldlM_method (signature : String) (root : Visit) {inner : List Event}
    {done : Array TrainingRecord} {last? : Option PendingRecord}
    (h : inner.foldlM step? ⟨some { base := root.id }, done⟩ =
      last?.map fun last => ⟨some last, done⟩) :
    (Event.methodStart signature root :: (inner ++ [.methodEnd signature root])).foldlM step?
        ⟨none, done⟩ = last?.map fun last => ⟨none, done.push last.finish⟩ := by
  rw [List.foldlM_cons]
  show (inner ++ [_]).foldlM step? ⟨some { base := root.id }, done⟩ = _
  rw [List.foldlM_append, h]
  cases last? with
  | none => rfl
  | some last => rfl

/-- The beginning and the end of a class do not matter. -/
theorem foldlM_class (name : String) (events : List Event) (collector : RecordCollector) :
    (Event.classStart name :: (events ++ [.classEnd name])).foldlM step? collector =
      events.foldlM step? collector := by
  rw [List.foldlM_cons]
  show (events ++ [Event.classEnd name]).foldlM step? collector = _
  rw [List.foldlM_append]
  cases events.foldlM step? collector with
  | none => rfl
  | some last => rfl

/-- One method after the other. -/
theorem foldlM_flatMap {α : Type} (events : α → List Event) (record : α → TrainingRecord)
    (members : List α) (h : ∀ member ∈ members, ∀ done : Array TrainingRecord,
      (events member).foldlM step? ⟨none, done⟩ = some ⟨none, done.push (record member)⟩)
    (done : Array TrainingRecord) :
    (members.flatMap events).foldlM step? ⟨none, done⟩ =
      some ⟨none, done ++ (members.map record).toArray⟩ := by
  induction members generalizing done with
  | nil =>
    rw [List.map_nil, Array.append_empty]
    rfl
  | cons member members ih =>
    rw [List.flatMap_cons, List.foldlM_append, h member List.mem_cons_self done]
    show (members.flatMap events).foldlM step? ⟨none, done.push (record member)⟩ = _
    rw [ih fun other hother => h other (List.mem_cons_of_mem member hother), List.map_cons,
      List.push_append_toArray]

end RecordCollector

end CodeGraph
