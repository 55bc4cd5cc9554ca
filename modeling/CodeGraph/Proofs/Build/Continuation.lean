/-
# Going on with a class

A class that is carried on loses nothing and changes nothing it has: later methods and later words
come behind the earlier ones (`ClassBuilder.ContinuesTo.grows`), whatever is opened, closed,
abandoned or added in between.
-/
import CodeGraph.Proofs.Build.Run

namespace CodeGraph

/-- A table that grows keeps its entries in front. -/
theorem Grows.isPrefix {α : Type} {xs ys : Array α} (h : Grows xs ys) :
    xs.toList <+: ys.toList := by
  rw [List.prefix_iff_getElem?]
  intro i hi
  have hget : xs[i]? = some xs.toList[i] := by
    rw [← Array.getElem?_toList, List.getElem?_eq_getElem hi]
  rw [Array.getElem?_toList]
  exact h i _ hget

namespace ClassBuilder

/-- The later builder has the methods and the words of the first, in front of its own. -/
structure Extends (builder later : ClassBuilder) : Prop where
  methods : builder.methods <+: later.methods
  words : builder.vocabulary.toList <+: later.vocabulary.toList

namespace Extends

theorem refl (builder : ClassBuilder) : builder.Extends builder :=
  ⟨List.prefix_refl _, List.prefix_refl _⟩

/-- What extends an extension extends the class. -/
theorem trans {builder next later : ClassBuilder} (h : builder.Extends next)
    (hnext : next.Extends later) : builder.Extends later :=
  ⟨h.methods.trans hnext.methods, h.words.trans hnext.words⟩

/-- One more method extends the class. -/
theorem add (builder : ClassBuilder) (method : MethodGraph) :
    builder.Extends (builder.add method) :=
  ⟨List.prefix_append _ _, List.prefix_refl _⟩

/-- Each move of a cursor extends its class. -/
theorem move {cursor next : Cursor} {m : Cursor.Move} (hm : cursor.move m = .ok next) :
    cursor.builder.Extends next.builder := by
  obtain ⟨hmethods, hgrows⟩ := Cursor.move_builder hm
  refine ⟨?_, hgrows.isPrefix⟩
  rw [hmethods]

end Extends

end ClassBuilder

/-! ## Steps of a session -/

namespace Session

/-- **A step that stays in the class extends it.** -/
theorem step_extends {session : Session} {builder : ClassBuilder} {s : Step}
    (hbuilder : session.builder? = some builder) (hs : s.staysInClass) :
    ∃ next, (session.step s).1.builder? = some next ∧ builder.Extends next := by
  obtain ⟨stage, slots⟩ := session
  -- there is a class at hand, so the session is collecting or building
  cases stage with
  | idle => cases hbuilder
  | collecting own =>
    obtain rfl : own = builder := Option.some.inj hbuilder
    cases s with
    | beginClass name => exact hs.elim
    | openMethod signature => exact ⟨_, rfl, ⟨List.prefix_refl _, List.prefix_refl _⟩⟩
    | move m => exact ⟨own, rfl, .refl own⟩
    | close => exact ⟨own, rfl, .refl own⟩
    | abandon => exact ⟨own, rfl, .refl own⟩
    | add slot =>
      show ∃ next, (addStep ⟨.collecting own, slots⟩ own slot).1.builder? = some next ∧ _
      rw [addStep]
      split
      · next method hslot => exact ⟨own.add method, rfl, .add own method⟩
      · exact ⟨own, rfl, .refl own⟩
  | building cursor =>
    obtain rfl : cursor.builder = builder := Option.some.inj hbuilder
    cases s with
    | beginClass name => exact hs.elim
    | openMethod signature => exact ⟨_, rfl, .refl _⟩
    | move m =>
      show ∃ next, (moveStep ⟨.building cursor, slots⟩ cursor m).1.builder? = some next ∧ _
      rw [moveStep]
      split
      · next next hm => exact ⟨next.builder, rfl, .move hm⟩
      · exact ⟨_, rfl, .refl _⟩
    | close =>
      show ∃ next, (closeStep ⟨.building cursor, slots⟩ cursor).1.builder? = some next ∧ _
      rw [closeStep]
      split <;> exact ⟨_, rfl, .refl _⟩
    | abandon => exact ⟨_, rfl, .refl _⟩
    | add slot => exact ⟨_, rfl, .refl _⟩

/-- Steps that stay in the class extend it. -/
theorem run_extends {session : Session} {builder : ClassBuilder} (steps : List Step)
    (hbuilder : session.builder? = some builder) (hsteps : ∀ s ∈ steps, s.staysInClass) :
    ∃ later, (session.run steps).builder? = some later ∧ builder.Extends later := by
  induction steps generalizing session builder with
  | nil => exact ⟨builder, hbuilder, .refl builder⟩
  | cons s steps ih =>
    obtain ⟨next, hnext, hfirst⟩ := step_extends hbuilder (hsteps s List.mem_cons_self)
    have htail : ∀ t ∈ steps, t.staysInClass := fun t ht => hsteps t (List.mem_cons_of_mem s ht)
    obtain ⟨later, hlater, hrest⟩ := ih hnext htail
    exact ⟨later, hlater, hfirst.trans hrest⟩

end Session

/-! ## Runs that go on -/

/-- A run that has come to the first builder can be carried on to the later one. -/
def ClassBuilder.ContinuesTo (builder later : ClassBuilder) : Prop :=
  ∃ name steps more, (∀ s ∈ steps ++ more, Session.Step.staysInClass s) ∧
    ((Session.start name).run steps).stage = .collecting builder ∧
    ((Session.start name).run (steps ++ more)).stage = .collecting later

namespace ClassBuilder.ContinuesTo

variable {builder later : ClassBuilder}

theorem isRun (h : builder.ContinuesTo later) : builder.IsRun := by
  obtain ⟨name, steps, more, hstays, hstage, -⟩ := h
  exact ⟨name, steps, fun s hs => hstays s (List.mem_append_left more hs), hstage⟩

theorem isRun_later (h : builder.ContinuesTo later) : later.IsRun := by
  obtain ⟨name, steps, more, hstays, -, hlater⟩ := h
  exact ⟨name, steps ++ more, hstays, hlater⟩

/-- **Going on adds methods and words behind those that are there.** -/
theorem grows (h : builder.ContinuesTo later) : builder.Extends later := by
  obtain ⟨name, steps, more, hstays, hstage, hlater⟩ := h
  have hbuilder : ((Session.start name).run steps).builder? = some builder := by
    rw [Session.builder?, hstage]
  obtain ⟨next, hnext, hextends⟩ := Session.run_extends more hbuilder
    fun s hs => hstays s (List.mem_append_right steps hs)
  -- the run goes on from where it stood
  have hrun : ((Session.start name).run steps).run more = (Session.start name).run (steps ++ more) :=
    List.foldl_append.symm
  rw [hrun, Session.builder?, hlater, Option.some.injEq] at hnext
  rw [hnext]
  exact hextends

end ClassBuilder.ContinuesTo

end CodeGraph
