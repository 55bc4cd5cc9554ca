/-
# Runs of a builder

A run of a builder is a session that begins with its class and never begins another, so that every
method it adds has been closed by one of its own cursors (`ClassBuilder.IsRun`).  Whatever is done in
a run, the methods of the builder have their shape, their tokens are sound with the words of the
class, and no return of theirs is linked (`ClassBuilder.IsRun.finished`).
-/
import CodeGraph.Build.Session
import CodeGraph.Proofs.Build.Links

namespace CodeGraph

/-- The step does not leave the class at hand for another. -/
def Session.Step.staysInClass : Session.Step → Prop
  | .beginClass _ => False
  | _ => True

instance : DecidablePred Session.Step.staysInClass
  | .beginClass _ => instDecidableFalse
  | .openMethod _ | .move _ | .close | .abandon | .add _ => instDecidableTrue

/-- A builder at the end of a run, with no method open. -/
def ClassBuilder.IsRun (builder : ClassBuilder) : Prop :=
  ∃ name steps, (∀ s ∈ steps, Session.Step.staysInClass s) ∧
    ((Session.start name).run steps).stage = .collecting builder

/-- A method that has been finished in a class with the given words, and not been linked. -/
structure MethodGraph.Finished (method : MethodGraph) (words : Array String) : Prop where
  shaped : method.Shaped
  linked : method.Linked words
  unlinked : method.Unlinked

/-- More words do not hurt. -/
theorem MethodGraph.Finished.grow {method : MethodGraph} {words more : Array String}
    (h : method.Finished words) (hgrow : Grows words more) : method.Finished more :=
  ⟨h.shaped, h.linked.grow hgrow, h.unlinked⟩

/-! ## What a move does to the class -/

namespace Cursor

/-- Words are added to the vocabulary and leave the methods alone. -/
theorem wordsOf_methods (builder : ClassBuilder) (text : String) (role : Role) :
    (wordsOf builder text role).1.methods = builder.methods := by
  rw [wordsOf]
  split <;> rfl

/-- A move adds words and calls to the class, but no method. -/
theorem move_builder {cursor next : Cursor} {m : Move} (hm : cursor.move m = .ok next) :
    next.builder.methods = cursor.builder.methods ∧
      Grows cursor.builder.vocabulary next.builder.vocabulary := by
  rcases move_cases hm with ⟨kind, rfl, rfl⟩ | ⟨kind, callee, rfl, rfl⟩ |
    ⟨rfl, node, path, hpath, rfl⟩ | ⟨text, role, rfl, rfl⟩
  · rw [push_builder]
    exact ⟨rfl, Grows.refl _⟩
  · rw [push_builder]
    exact ⟨rfl, Grows.refl _⟩
  · exact ⟨rfl, Grows.refl _⟩
  · rw [emit_builder]
    exact ⟨wordsOf_methods _ _ _, (wordsOf_spec cursor.builder text role).1⟩

/-- A method can be closed only when nothing but its root is open, and stays as it is. -/
theorem close_eq_ok {cursor : Cursor} {method : MethodGraph} (h : cursor.close = .ok method) :
    cursor.path = [] ∧ method = cursor.method := by
  rw [close] at h
  split at h
  · next hdepth =>
    cases h
    exact ⟨List.length_eq_zero_iff.mp hdepth, rfl⟩
  · cases h

end Cursor

/-! ## What a run keeps -/

namespace Session

/-- Everything that a session holds belongs to its class. -/
structure Sound (session : Session) : Prop where
  methods : ∀ builder, session.builder? = some builder →
    ∀ method ∈ builder.methods, method.Finished builder.vocabulary
  slots : ∀ builder, session.builder? = some builder →
    ∀ method, some method ∈ session.slots → method.Finished builder.vocabulary
  cursor : ∀ cursor, session.cursor? = some cursor → cursor.Placed ∧ cursor.Linked

/-- A session that has just begun is sound. -/
theorem Sound.start (name : String) : (start name).Sound where
  methods := by
    intro builder hbuilder method hmethod
    cases hbuilder
    cases hmethod
  slots := fun _ _ _ hmethod => absurd hmethod List.not_mem_nil
  cursor := by
    intro cursor hcursor
    cases hcursor

/-- A session in which the class has been carried on by a cursor. -/
theorem Sound.carryOn {session : Session} {builder next : ClassBuilder} (h : session.Sound)
    (hbuilder : session.builder? = some builder)
    (hmethods : next.methods = builder.methods)
    (hgrow : Grows builder.vocabulary next.vocabulary) :
    (∀ method ∈ next.methods, method.Finished next.vocabulary) ∧
      ∀ method, some method ∈ session.slots → method.Finished next.vocabulary := by
  constructor
  · intro method hmethod
    rw [hmethods] at hmethod
    exact (h.methods builder hbuilder method hmethod).grow hgrow
  · intro method hmethod
    exact (h.slots builder hbuilder method hmethod).grow hgrow

theorem Sound.moveStep {slots : List (Option MethodGraph)} {cursor : Cursor}
    (h : Sound ⟨.building cursor, slots⟩) (m : Cursor.Move) :
    (Session.moveStep ⟨.building cursor, slots⟩ cursor m).1.Sound := by
  rw [Session.moveStep]
  split
  · next next hm =>
    obtain ⟨hmethods, hgrow⟩ := Cursor.move_builder hm
    obtain ⟨hown, hslots⟩ := h.carryOn rfl hmethods hgrow
    obtain ⟨hplaced, hlinked⟩ := h.cursor cursor rfl
    refine ⟨fun builder hbuilder => ?_, fun builder hbuilder => ?_, fun other hother => ?_⟩
    · cases hbuilder
      exact hown
    · cases hbuilder
      exact hslots
    · cases hother
      exact ⟨hplaced.move hm, hlinked.move hm⟩
  · exact h

theorem Sound.closeStep {slots : List (Option MethodGraph)} {cursor : Cursor}
    (h : Sound ⟨.building cursor, slots⟩) :
    (Session.closeStep ⟨.building cursor, slots⟩ cursor).1.Sound := by
  obtain ⟨hplaced, hlinked⟩ := h.cursor cursor rfl
  rw [Session.closeStep]
  split
  · next method hclose =>
    obtain ⟨-, rfl⟩ := Cursor.close_eq_ok hclose
    -- what is put into a slot is the method that the cursor has made
    refine ⟨h.methods, fun builder hbuilder method hmethod => ?_,
      by intro cursor hcursor; cases hcursor⟩
    rcases List.mem_append.mp hmethod with hmethod | hmethod
    · exact h.slots builder hbuilder method hmethod
    · cases List.mem_singleton.mp hmethod
      cases hbuilder
      exact ⟨hplaced.shaped, hlinked.sound, hlinked.unlinked⟩
  · -- a method that is not finished leaves its slot empty
    refine ⟨h.methods, fun builder hbuilder method hmethod => ?_,
      by intro cursor hcursor; cases hcursor⟩
    rcases List.mem_append.mp hmethod with hmethod | hmethod
    · exact h.slots builder hbuilder method hmethod
    · cases List.mem_singleton.mp hmethod

theorem Sound.addStep {slots : List (Option MethodGraph)} {builder : ClassBuilder}
    (h : Sound ⟨.collecting builder, slots⟩) (slot : Nat) :
    (Session.addStep ⟨.collecting builder, slots⟩ builder slot).1.Sound := by
  rw [Session.addStep]
  split
  · next method hslot =>
    have hown := h.slots builder rfl method (List.mem_of_getElem? hslot)
    refine ⟨fun next hnext other hother => ?_, fun next hnext => ?_,
      by intro cursor hcursor; cases hcursor⟩
    · cases hnext
      rcases List.mem_append.mp hother with hother | hother
      · exact h.methods builder rfl other hother
      · obtain rfl := List.mem_singleton.mp hother
        exact hown
    · cases hnext
      exact h.slots builder rfl
  · exact h

theorem Sound.openStep {slots : List (Option MethodGraph)} {builder : ClassBuilder}
    (h : Sound ⟨.collecting builder, slots⟩) (signature : String) :
    Sound ⟨.building (builder.openMethod signature), slots⟩ := by
  refine ⟨fun next hnext => ?_, fun next hnext => ?_, fun cursor hcursor => ?_⟩
  · cases hnext
    exact h.methods builder rfl
  · cases hnext
    exact h.slots builder rfl
  · cases hcursor
    exact ⟨Cursor.Placed.openMethod builder signature, Cursor.Linked.openMethod builder signature⟩

/-- **A step that stays in the class keeps everything in order.** -/
theorem Sound.step {session : Session} (h : session.Sound) {s : Step} (hs : s.staysInClass) :
    (session.step s).1.Sound := by
  obtain ⟨stage, slots⟩ := session
  cases s with
  | beginClass name => exact hs.elim
  | openMethod signature =>
    cases stage with
    | collecting builder => exact h.openStep signature
    | idle => exact h
    | building cursor => exact h
  | move m =>
    cases stage with
    | building cursor => exact h.moveStep m
    | idle => exact h
    | collecting builder => exact h
  | close =>
    cases stage with
    | building cursor => exact h.closeStep
    | idle => exact h
    | collecting builder => exact h
  | abandon =>
    cases stage with
    | building cursor => exact ⟨h.methods, h.slots, by intro next hnext; cases hnext⟩
    | idle => exact h
    | collecting builder => exact h
  | add slot =>
    cases stage with
    | collecting builder => exact h.addStep slot
    | idle => exact h
    | building cursor => exact h

/-- A session that stays in its class is sound at the end. -/
theorem Sound.run {session : Session} (h : session.Sound) (steps : List Step)
    (hsteps : ∀ s ∈ steps, Step.staysInClass s) : (session.run steps).Sound := by
  induction steps generalizing session with
  | nil => exact h
  | cons s steps ih =>
    exact ih (h.step (hsteps s List.mem_cons_self))
      fun t ht => hsteps t (List.mem_cons_of_mem s ht)

end Session

/-- **The methods of a run are in order.** -/
theorem ClassBuilder.IsRun.finished {builder : ClassBuilder} (h : builder.IsRun) :
    ∀ method ∈ builder.methods, method.Finished builder.vocabulary := by
  obtain ⟨name, steps, hsteps, hstage⟩ := h
  refine ((Session.Sound.start name).run steps hsteps).methods builder ?_
  rw [Session.builder?, hstage]

end CodeGraph
