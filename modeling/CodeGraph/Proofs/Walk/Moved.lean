/-
# Walks from other numbers

The number with which a walk begins is in every number that it gives out, and in nothing else: the
walk from another number has the same events with the distance added to each number
(`ClassGraph.Sound.moved_events`).  That holds of call sites in other methods too, since all methods
of the class move together.
-/
import CodeGraph.Proofs.Walk.Lossless

namespace CodeGraph

/-! ## Moved events -/

/-- The other visit has the label, and its number lies so far behind. -/
structure Visit.MovedBy (distance : Int) (visit other : Visit) : Prop where
  id_eq : (other.id : Int) = visit.id + distance
  label_eq : other.label = visit.label

/-- The events are the same, but for the numbers, which lie so far behind. -/
inductive Event.MovedBy (distance : Int) : Event → Event → Prop
  | classStart (name : String) : MovedBy distance (.classStart name) (.classStart name)
  | classEnd (name : String) : MovedBy distance (.classEnd name) (.classEnd name)
  | methodStart (signature : String) {root other : Visit} (h : root.MovedBy distance other) :
    MovedBy distance (.methodStart signature root) (.methodStart signature other)
  | methodEnd (signature : String) {root other : Visit} (h : root.MovedBy distance other) :
    MovedBy distance (.methodEnd signature root) (.methodEnd signature other)
  | entity (sort : Entity) {visit other : Visit} (h : visit.MovedBy distance other) :
    MovedBy distance (.entity sort visit) (.entity sort other)
  | edge (relation : Relation) {source target other another : Visit}
    (hsource : source.MovedBy distance other) (htarget : target.MovedBy distance another) :
    MovedBy distance (.edge relation source target) (.edge relation other another)

/-! ## Related lists -/

section

variable {α β γ : Type} {r : β → γ → Prop}

/-- Images of one list are related if those of each member are. -/
theorem forall₂_map_map {xs : List α} {f : α → β} {g : α → γ} (h : ∀ x ∈ xs, r (f x) (g x)) :
    List.Forall₂ r (xs.map f) (xs.map g) := by
  rw [List.forall₂_map_left_iff, List.forall₂_map_right_iff, List.forall₂_same]
  exact h

/-- Lists put together are related if those for each member are. -/
theorem forall₂_flatMap_flatMap {xs : List α} {f : α → List β} {g : α → List γ}
    (h : ∀ x ∈ xs, List.Forall₂ r (f x) (g x)) :
    List.Forall₂ r (xs.flatMap f) (xs.flatMap g) := by
  induction xs with
  | nil => exact .nil
  | cons x xs ih =>
    rw [List.flatMap_cons, List.flatMap_cons]
    exact List.rel_append (h x List.mem_cons_self) (ih fun y hy => h y (List.mem_cons_of_mem x hy))

end

/-! ## The walkers of a class -/

namespace ClassGraph

variable {graph : ClassGraph}

/-- All methods of a class move together. -/
theorem firstId_moved (graph : ClassGraph) (start first index : Nat) :
    (graph.firstId first index : Int) = graph.firstId start index + ((first : Int) - start) := by
  rw [firstId, firstId, Layout.firstOf, Layout.firstOf]
  omega

namespace Sound

variable {index : Nat} {method : MethodGraph}

theorem visit_moved (h : graph.Sound) (hindex : graph.methods[index]? = some method)
    (start first : Nat) (sort : Entity) {i : Nat}
    (hi : i < method.count graph.vocabulary.size sort) :
    ((graph.walkerAt start method index).visit sort i).MovedBy ((first : Int) - start)
      ((graph.walkerAt first method index).visit sort i) where
  id_eq := by
    have hmoved := graph.firstId_moved start first index
    have hid := (h.stands start hindex).laid.visit_id hi
    have hid' := (h.stands first hindex).laid.visit_id hi
    change _ = graph.firstId start index + method.offset sort + i at hid
    change _ = graph.firstId first index + method.offset sort + i at hid'
    omega
  label_eq := by cases sort <;> rfl

/-- A call moves with the first number, also if it is in another method. -/
theorem callSite_moved (h : graph.Sound) (hindex : graph.methods[index]? = some method)
    (start first : Nat) {site : CallSite} {i : Nat} (hpair : (site, i) ∈ method.returnPairs) :
    ((graph.walkerAt start method index).callSite site).MovedBy ((first : Int) - start)
      ((graph.walkerAt first method index).callSite site) where
  id_eq := by
    have hmoved := graph.firstId_moved start first site.method
    obtain ⟨-, -, -, -, -, -, hid⟩ := (h.stands start hindex).exists_of_mem_returnPairs hpair
    obtain ⟨-, -, -, -, -, -, hid'⟩ := (h.stands first hindex).exists_of_mem_returnPairs hpair
    change _ = graph.firstId start site.method + site.node at hid
    change _ = graph.firstId first site.method + site.node at hid'
    omega
  label_eq := rfl

/-- What is announced of a method moves with the first number. -/
theorem entities_moved (h : graph.Sound) (hindex : graph.methods[index]? = some method)
    (start first : Nat) : List.Forall₂ (Event.MovedBy ((first : Int) - start))
      (graph.walkerAt start method index).entities
      (graph.walkerAt first method index).entities := by
  rw [(h.stands start hindex).laid.entities_eq, (h.stands first hindex).laid.entities_eq]
  refine forall₂_flatMap_flatMap fun sort _ => forall₂_map_map fun i hi => ?_
  exact .entity sort (h.visit_moved hindex start first sort (List.mem_range.mp hi))

/-- The edges of a method move with the first number. -/
theorem edges_moved (h : graph.Sound) (hindex : graph.methods[index]? = some method)
    (start first : Nat) : List.Forall₂ (Event.MovedBy ((first : Int) - start))
      (graph.walkerAt start method index).edges (graph.walkerAt first method index).edges := by
  have hstands := h.stands start hindex
  rw [hstands.edges_eq, (h.stands first hindex).edges_eq]
  refine List.rel_append (forall₂_flatMap_flatMap fun relation _ => ?_) ?_
  · refine forall₂_map_map fun ⟨j, k⟩ hpair => ?_
    obtain ⟨hj, hk⟩ := hstands.lt_count hpair
    exact .edge relation (h.visit_moved hindex start first _ hj)
      (h.visit_moved hindex start first _ hk)
  · refine forall₂_map_map fun ⟨site, i⟩ hpair => ?_
    obtain ⟨token, -, htoken, -⟩ := hstands.exists_of_mem_returnPairs hpair
    have hi : i < method.count graph.vocabulary.size .token :=
      (Array.getElem?_eq_some_iff.mp htoken).1
    exact .edge .returnsTo (h.callSite_moved hindex start first hpair)
      (h.visit_moved hindex start first .token hi)

/-- The walk of a method moves with the first number. -/
theorem walkerAt_moved (h : graph.Sound) (hindex : graph.methods[index]? = some method)
    (start first : Nat) : List.Forall₂ (Event.MovedBy ((first : Int) - start))
      (graph.walkerAt start method index).events (graph.walkerAt first method index).events := by
  have hroot := h.visit_moved hindex start first .node
    (h.shaped method (List.mem_of_getElem? hindex)).size_pos
  rw [Walker.events_eq, Walker.events_eq]
  refine .cons (.methodStart _ hroot) (List.rel_append (List.rel_append ?_ ?_) ?_)
  · exact h.entities_moved hindex start first
  · exact h.edges_moved hindex start first
  · exact .cons (.methodEnd _ hroot) .nil

/-- **A walk from another number has the same events with the distance added to each number.** -/
theorem moved_events (h : graph.Sound) {ids ids' rest rest' : IdSequence}
    {events events' : List Event} (hwalk : graph.walk ids = .ok (events, rest))
    (hwalk' : graph.walk ids' = .ok (events', rest')) :
    List.Forall₂ (Event.MovedBy ((ids'.next : Int) - ids.next)) events events' := by
  rw [h.eq_of_walk_eq_ok hwalk, h.eq_of_walk_eq_ok hwalk']
  refine .cons (.classStart _) (List.rel_append ?_ (.cons (.classEnd _) .nil))
  rw [blocksFrom, blocksFrom, ← List.flatMap_def, ← List.flatMap_def]
  refine forall₂_flatMap_flatMap fun entry hmem => ?_
  obtain ⟨method, index⟩ := entry
  exact h.walkerAt_moved (List.mk_mem_zipIdx_iff_getElem?.mp hmem) _ _

end Sound

end ClassGraph

end CodeGraph
