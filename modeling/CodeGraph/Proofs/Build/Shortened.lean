/-
# Runs without lost methods

A cursor that is abandoned or cannot be closed leaves words and calls behind, which shift the
numbers of later words.  Nothing else is left of it: when all such cursors are taken out of a run,
the methods added stay the same but for the numbers of their words, which lead to the same words
(`Session.run_shortened`).
-/
import CodeGraph.Proofs.Build.Journal
import CodeGraph.Proofs.Graph.CallMap

namespace CodeGraph

/-! ## Taking cursors out -/

/-- The steps of a course that is closed. -/
def Course.steps (course : Course) : List Session.Step :=
  .openMethod course.signature :: (course.moves.map .move ++ [.close])

namespace Journal

/-- What becomes of a step when cursors without a method are taken out: a course is kept as a whole
when it is closed, and a slot is counted without the empty ones before it. -/
def keep (journal : Journal) (s : Session.Step) : List Session.Step :=
  match s, journal.current? with
  | .close, some course => if course.closes then course.steps else []
  | .add slot, none =>
    match journal.slots[slot]?.join with
    | some _ => [.add ((journal.slots.take slot).countP Option.isSome)]
    | none => []
  | _, _ => []

/-- What becomes of the steps that follow. -/
def keepAll (journal : Journal) : List Session.Step → List Session.Step
  | [] => []
  | s :: steps => journal.keep s ++ (journal.step s).keepAll steps

/-- The courses that have been closed. -/
def closed (journal : Journal) : List Course := journal.slots.reduceOption

/-- The journal without the courses that have not been closed. -/
def shortened (journal : Journal) : Journal where
  ended := journal.closed
  slots := journal.closed.map some
  methods := journal.methods

end Journal

/-- The run without the cursors that are abandoned or cannot be closed. -/
def Session.shortened (steps : List Step) : List Step := Journal.keepAll {} steps

namespace Journal

variable {journal : Journal}

theorem keepAll_concat (journal : Journal) (steps : List Session.Step) (s : Session.Step) :
    journal.keepAll (steps ++ [s]) =
      journal.keepAll steps ++ (steps.foldl step journal).keep s := by
  induction steps generalizing journal with
  | nil => exact List.append_nil _
  | cons t steps ih =>
    rw [List.cons_append, keepAll, keepAll, ih, List.append_assoc]
    rfl

/-- Of one more step, what is kept comes last in the shortened run. -/
theorem shortened_concat (steps : List Session.Step) (s : Session.Step) :
    Session.shortened (steps ++ [s]) = Session.shortened steps ++ (ofSteps steps).keep s :=
  keepAll_concat {} steps s

/-! ## The journal of a shortened run -/

theorem foldl_moves (ended methods : List Course) (slots : List (Option Course)) (course : Course)
    (moves : List Cursor.Move) :
    (moves.map Session.Step.move).foldl step ⟨ended, some course, slots, methods⟩ =
      ⟨ended, some { course with moves := course.moves ++ moves }, slots, methods⟩ := by
  induction moves generalizing course with
  | nil =>
    rw [List.append_nil]
    rfl
  | cons m moves ih =>
    have htail := ih (course.extend m)
    rw [Course.extend, List.append_assoc] at htail
    exact htail

/-- A course that is closed is entered as a whole. -/
theorem foldl_steps (ended methods : List Course) (slots : List (Option Course))
    {course : Course} (hcloses : course.closes = true) :
    course.steps.foldl step ⟨ended, none, slots, methods⟩ =
      ⟨ended ++ [course], none, slots ++ [some course], methods⟩ := by
  rw [Course.steps, List.foldl_cons, List.foldl_append]
  show [Session.Step.close].foldl step
    ((course.moves.map .move).foldl step ⟨ended, some ⟨course.signature, []⟩, slots, methods⟩) = _
  rw [foldl_moves]
  show (⟨_, _, slots ++ [if course.closes then some course else none], _⟩ : Journal) = _
  rw [if_pos hcloses]
  rfl

/-- What is in a slot is found by the number of slots before it that are not empty. -/
theorem getElem?_reduceOption {α : Type} {slots : List (Option α)} {slot : Nat} {a : α}
    (h : slots[slot]?.join = some a) :
    slots.reduceOption[(slots.take slot).countP Option.isSome]? = some a := by
  obtain ⟨hlt, heq⟩ := List.getElem?_eq_some_iff.mp (Option.join_eq_some_iff.mp h)
  have hsplit : slots.reduceOption =
      (slots.take slot).reduceOption ++ a :: (slots.drop (slot + 1)).reduceOption := by
    rw [← List.reduceOption_cons_of_some, ← List.reduceOption_append, ← heq,
      List.cons_getElem_drop_succ, List.take_append_drop]
  have hlength : (slots.take slot).reduceOption.length = (slots.take slot).countP Option.isSome :=
    List.length_filterMap_eq_countP
  rw [hsplit, ← hlength, List.getElem?_append_right (Nat.le_refl _), Nat.sub_self]
  rfl

/-- **What is kept of a step does what the step does to the shortened journal.** -/
theorem foldl_keep (journal : Journal) (s : Session.Step) :
    (journal.keep s).foldl step journal.shortened = (journal.step s).shortened := by
  obtain ⟨ended, current?, slots, methods⟩ := journal
  cases s with
  | beginClass name => cases current? <;> rfl
  | openMethod signature => cases current? <;> rfl
  | move m => cases current? <;> rfl
  | abandon => cases current? <;> rfl
  | close =>
    cases current? with
    | none => rfl
    | some course =>
      by_cases hcloses : course.closes = true
      · have hkeep : keep ⟨ended, some course, slots, methods⟩ .close = course.steps :=
          if_pos hcloses
        have hstep : step ⟨ended, some course, slots, methods⟩ .close =
            ⟨ended ++ [course], none, slots ++ [some course], methods⟩ := by
          simp only [step, hcloses, if_true]
        rw [hkeep, hstep, shortened, foldl_steps _ _ _ hcloses]
        simp only [shortened, closed, List.reduceOption_append, List.reduceOption_singleton,
          Option.toList_some, List.map_append, List.map_singleton]
      · have hkeep : keep ⟨ended, some course, slots, methods⟩ .close = [] := if_neg hcloses
        have hstep : step ⟨ended, some course, slots, methods⟩ .close =
            ⟨ended ++ [course], none, slots ++ [none], methods⟩ := by
          simp only [step, hcloses]
          rfl
        rw [hkeep, hstep]
        simp only [shortened, closed, List.reduceOption_append, List.reduceOption_singleton,
          Option.toList_none, List.append_nil]
        rfl
  | add slot =>
    cases current? with
    | some course => rfl
    | none =>
      rcases hslot : slots[slot]?.join with _ | course
      · have hkeep : keep ⟨ended, none, slots, methods⟩ (.add slot) = [] := by
          simp only [keep, hslot]
        have hstep : step ⟨ended, none, slots, methods⟩ (.add slot) =
            ⟨ended, none, slots, methods⟩ := by
          simp only [step, hslot, Option.toList_none, List.append_nil]
        rw [hkeep, hstep]
        rfl
      · have hkeep : keep ⟨ended, none, slots, methods⟩ (.add slot) =
            [.add ((slots.take slot).countP Option.isSome)] := by
          simp only [keep, hslot]
        simp only [hkeep, List.foldl_cons, List.foldl_nil, step, shortened, closed,
          List.getElem?_map, getElem?_reduceOption hslot, hslot, Option.map_some, Option.join_some]

/-- The journal of the shortened run is the shortened journal. -/
theorem ofSteps_shortened (steps : List Session.Step) :
    ofSteps (Session.shortened steps) = (ofSteps steps).shortened := by
  induction steps using List.reverseRecOn with
  | nil => rfl
  | append_singleton steps s ih =>
    rw [ofSteps_concat, ← foldl_keep, ← ih, shortened_concat, ofSteps, List.foldl_append]
    rfl

theorem closed_subset_ended_step {journal : Journal} (h : journal.closed ⊆ journal.ended)
    (s : Session.Step) : (journal.step s).closed ⊆ (journal.step s).ended := by
  obtain ⟨ended, current?, slots, methods⟩ := journal
  cases s with
  | beginClass name => cases current? <;> exact h
  | openMethod signature => cases current? <;> exact h
  | move m => cases current? <;> exact h
  | add slot => cases current? <;> exact h
  | abandon =>
    cases current? with
    | none => exact h
    | some course => exact List.subset_append_of_subset_left [course] h
  | close =>
    cases current? with
    | none => exact h
    | some course =>
      show (slots ++ [if course.closes then some course else none]).reduceOption ⊆ ended ++ [course]
      rw [List.reduceOption_append, List.reduceOption_singleton]
      refine List.append_subset.mpr ⟨List.subset_append_of_subset_left [course] h, ?_⟩
      refine List.subset_append_of_subset_right ended ?_
      split
      · exact List.Subset.refl _
      · exact List.nil_subset _

/-- What has been closed has been opened. -/
theorem closed_subset_opened (steps : List Session.Step) :
    (ofSteps steps).closed ⊆ (ofSteps steps).opened := by
  refine List.subset_append_of_subset_left _ ?_
  induction steps using List.reverseRecOn with
  | nil => exact List.nil_subset _
  | append_singleton steps s ih =>
    rw [ofSteps_concat]
    exact closed_subset_ended_step ih s

/-! ## The steps of a shortened run -/

/-- Of a step nothing is kept, or a whole course, or an addition. -/
theorem keep_cases (journal : Journal) (s : Session.Step) :
    journal.keep s = [] ∨ (∃ course : Course, journal.keep s = course.steps) ∨
      ∃ slot, journal.keep s = [.add slot] := by
  unfold keep
  split
  · split
    · exact Or.inr (Or.inl ⟨_, rfl⟩)
    · exact Or.inl rfl
  · split
    · exact Or.inr (Or.inr ⟨_, rfl⟩)
    · exact Or.inl rfl
  · exact Or.inl rfl

/-- Nothing that is kept leaves the class or abandons a cursor. -/
theorem of_mem_keep {journal : Journal} {s t : Session.Step} (h : t ∈ journal.keep s) :
    t.staysInClass ∧ t ≠ .abandon := by
  rcases journal.keep_cases s with hkeep | ⟨course, hkeep⟩ | ⟨slot, hkeep⟩
  · rw [hkeep] at h
    cases h
  · rw [hkeep, Course.steps, List.mem_cons, List.mem_append, List.mem_map, List.mem_singleton] at h
    rcases h with rfl | ⟨m, -, rfl⟩ | rfl
    all_goals exact ⟨trivial, nofun⟩
  · rw [hkeep, List.mem_singleton] at h
    subst h
    exact ⟨trivial, nofun⟩

theorem of_mem_shortened {steps : List Session.Step} {t : Session.Step}
    (h : t ∈ Session.shortened steps) : t.staysInClass ∧ t ≠ .abandon := by
  induction steps using List.reverseRecOn with
  | nil => cases h
  | append_singleton steps s ih =>
    rw [shortened_concat] at h
    exact (List.mem_append.mp h).elim ih of_mem_keep

end Journal

/-! ## Views of the calls -/

namespace Invocations

/-- Every caller of the first calls in the second whatever it calls in the first. -/
def Within (few many : Invocations) : Prop :=
  ∀ caller callees, (caller, callees) ∈ few.toList →
    ∃ more, (caller, more) ∈ many.toList ∧ callees ⊆ more

/-- Fewer callers and calls are contained in more. -/
theorem within_of_subset {few many : Invocations} (hcallers : few.callers ⊆ many.callers)
    (hcalls : few.calls ⊆ many.calls) : few.Within many := by
  intro caller callees h
  obtain ⟨caller, hcaller, heq⟩ := List.mem_map.mp h
  cases heq
  refine ⟨sortNames (many.calleesOf caller), List.mem_map.mpr ⟨caller, ?_, rfl⟩, ?_⟩
  · exact mem_sortNames.mpr (hcallers (mem_sortNames.mp hcaller))
  · intro callee hcallee
    rw [mem_sortNames, mem_calleesOf] at hcallee ⊢
    exact hcalls hcallee

/-- The calls of some courses are contained in those of more courses. -/
theorem Notes.within {few many : Invocations} {courses more : List Course}
    (h : few.Notes courses) (hmany : many.Notes more) (hsubset : courses ⊆ more) :
    few.Within many := by
  refine within_of_subset (fun caller hcaller => ?_) fun ⟨caller, callee⟩ hcall => ?_
  · obtain ⟨course, hcourse, hsignature⟩ := (h.callers caller).mp hcaller
    exact (hmany.callers caller).mpr ⟨course, hsubset hcourse, hsignature⟩
  · obtain ⟨course, hcourse, hcalls⟩ := (h.calls caller callee).mp hcall
    exact (hmany.calls caller callee).mpr ⟨course, hsubset hcourse, hcalls⟩

end Invocations

/-! ## The graph of a shortened run -/

/-- The methods of the graphs are the same but for the numbers of their words, the numbers lead to
the same words, and no word and no call is in the first graph alone. -/
structure ClassGraph.Within (few many : ClassGraph) : Prop where
  methods : few.methods.map MethodGraph.bare = many.methods.map MethodGraph.bare
  words : List.Forall₂ (fun method other => List.Forall₂ (fun (token another : Token) =>
      ∃ spelling, Vocabulary.Spells few.vocabulary token.vocabulary spelling ∧
        Vocabulary.Spells many.vocabulary another.vocabulary spelling)
    method.tokens.toList other.tokens.toList) few.methods many.methods
  vocabulary : few.vocabulary.toList ⊆ many.vocabulary.toList
  invocations : few.invocations.Within many.invocations

/-- Lists that are related to one list are related to each other through it. -/
theorem forall₂_join {α β γ : Type} {r : α → γ → Prop} {q : β → γ → Prop} {xs : List α}
    {ys : List β} {zs : List γ} (hxs : List.Forall₂ r xs zs) (hys : List.Forall₂ q ys zs) :
    List.Forall₂ (fun x y => ∃ z, r x z ∧ q y z) xs ys := by
  induction hxs generalizing ys with
  | nil =>
    cases hys
    exact .nil
  | cons hr _ ih =>
    cases hys with
    | cons hq hys => exact .cons ⟨_, hr, hq⟩ (ih hys)

/-- Lists whose elements agree under a function have the same images. -/
theorem map_eq_of_forall₂ {α β : Type} {f : α → β} {xs ys : List α}
    (h : List.Forall₂ (fun x y => f x = f y) xs ys) : xs.map f = ys.map f := by
  rw [← List.forall₂_eq_eq_eq, List.forall₂_map_left_iff, List.forall₂_map_right_iff]
  exact h

namespace Session

namespace Follows

variable {session other : Session} {journal further : Journal} {few many : ClassBuilder}

/-- Runs that have added methods of the same courses have added the same methods but for the numbers
of their words. -/
theorem map_bare_methods (h : session.Follows journal few) (hother : other.Follows further many)
    (hmethods : journal.methods = further.methods) :
    few.methods.map MethodGraph.bare = many.methods.map MethodGraph.bare := by
  refine map_eq_of_forall₂ ((forall₂_join h.methods (hmethods ▸ hother.methods)).imp ?_)
  rintro method another ⟨course, ⟨⟨base, rfl⟩, -⟩, ⟨⟨start, rfl⟩, -⟩⟩
  exact course.bare_method base start

/-- A class that is built from some of the courses has no other calls than with all of them. -/
theorem within (h : session.Follows journal few) (hother : other.Follows further many)
    (hmethods : journal.methods = further.methods) (hopened : journal.opened ⊆ further.opened) :
    few.build.Within many.build where
  methods := by
    show (Linkage.linked few.methods).map MethodGraph.bare =
      (Linkage.linked many.methods).map MethodGraph.bare
    rw [Linkage.map_bare_linked, Linkage.map_bare_linked, h.map_bare_methods hother hmethods]
  words := by
    refine (forall₂_join h.spelled_build (hmethods ▸ hother.spelled_build)).imp ?_
    rintro method another ⟨course, hspelled, hanother⟩
    refine (forall₂_join hspelled hanother).imp ?_
    rintro token next ⟨mention, htoken, hnext⟩
    exact ⟨_, htoken.spells, hnext.spells⟩
  vocabulary := by
    intro word hword
    change word ∈ few.vocabulary.toList at hword
    show word ∈ many.vocabulary.toList
    rw [h.vocabulary, List.mem_eraseDups, Journal.mentions] at hword
    rw [hother.vocabulary, List.mem_eraseDups, Journal.mentions]
    obtain ⟨mention, hmention, hmem⟩ := List.mem_flatMap.mp hword
    obtain ⟨course, hcourse, hcalled⟩ := List.mem_flatMap.mp hmention
    exact List.mem_flatMap.mpr
      ⟨mention, List.mem_flatMap.mpr ⟨course, hopened hcourse, hcalled⟩, hmem⟩
  invocations := h.invocations.within hother.invocations hopened

end Follows

/-- **Cursors that are abandoned or cannot be closed leave nothing but words and calls.**  Without
them a run adds the same methods. -/
theorem run_shortened (name : String) {steps : List Step} (hsteps : ∀ s ∈ steps, s.staysInClass)
    {builder : ClassBuilder}
    (hstage : ((start name).run steps).stage = .collecting builder) :
    (Journal.ofSteps (shortened steps)).opened = (Journal.ofSteps steps).closed ∧
    .abandon ∉ shortened steps ∧
    none ∉ ((start name).run (shortened steps)).slots ∧
    ∃ short, ((start name).run (shortened steps)).stage = .collecting short ∧
      short.methods.map MethodGraph.bare = builder.methods.map MethodGraph.bare ∧
      short.build.Within builder.build := by
  obtain ⟨own, h⟩ := Follows.run name steps hsteps
  obtain rfl : own = builder := by
    have hown := h.builder_eq
    rw [builder?, hstage] at hown
    exact (Option.some.inj hown).symm
  obtain ⟨short, hshort⟩ := Follows.run name (shortened steps)
    fun s hs => (Journal.of_mem_shortened hs).1
  have hopened : (Journal.ofSteps (shortened steps)).opened = (Journal.ofSteps steps).closed := by
    rw [Journal.ofSteps_shortened]
    exact List.append_nil _
  have hmethods : (Journal.ofSteps (shortened steps)).methods =
      (Journal.ofSteps steps).methods := by
    rw [Journal.ofSteps_shortened]
    rfl
  refine ⟨hopened, fun habandon => (Journal.of_mem_shortened habandon).2 rfl, ?_, short, ?_,
    hshort.map_bare_methods h hmethods,
    hshort.within h hmethods (hopened ▸ Journal.closed_subset_opened steps)⟩
  · -- every slot of the shortened journal has a course
    intro hnone
    obtain ⟨i, hi⟩ := List.mem_iff_getElem?.mp hnone
    have hslot := rel_getElem? hshort.slots i
    rw [hi, Journal.ofSteps_shortened, Journal.shortened, List.getElem?_map] at hslot
    cases hclosed : (Journal.ofSteps steps).closed[i]? with
    | none =>
      rw [hclosed] at hslot
      cases hslot
    | some course =>
      rw [hclosed] at hslot
      cases hslot with
      | some hrel => cases hrel
  · have hcursor := hshort.cursor
    have hbuilder := hshort.builder_eq
    rw [Journal.ofSteps_shortened] at hcursor
    generalize (start name).run (shortened steps) = session at hcursor hbuilder ⊢
    obtain ⟨stage, slots⟩ := session
    cases stage with
    | idle => cases hbuilder
    | collecting own =>
      obtain rfl : own = short := Option.some.inj hbuilder
      rfl
    | building cursor => cases hcursor

/-- The class of a run with a method that is abandoned and one that cannot be closed. -/
def strayBuilder : ClassBuilder :=
  ((start "C").run (straySteps ++ moreSteps)).builder?.getD { name := "C" }

/-- Without the steps that come to nothing, the same words come in another order. -/
theorem run_shortened_straySteps :
    ((start "C").run (straySteps ++ moreSteps)).stage = .collecting strayBuilder ∧
    strayBuilder.vocabulary = #["user", "name", "of", "id"] ∧
    shortened (straySteps ++ moreSteps) =
      [.openMethod "kept/0", .move (.emit "nameOfUserName" .identifier),
        .move (.emit "name" .plain), .close, .add 0, .openMethod "more/0",
        .move (.emit "userId" .identifier), .close, .add 1] ∧
    ((start "C").run (shortened (straySteps ++ moreSteps))).builder?.map
      ClassBuilder.vocabulary = some #["name", "of", "user", "id"] ∧
    ∃ short, ((start "C").run (shortened (straySteps ++ moreSteps))).stage = .collecting short ∧
      short.methods.map MethodGraph.bare = strayBuilder.methods.map MethodGraph.bare ∧
      short.build.Within strayBuilder.build := by
  have hstage : ((start "C").run (straySteps ++ moreSteps)).stage = .collecting strayBuilder := by
    decide +kernel
  have hsteps : ∀ s ∈ straySteps ++ moreSteps, s.staysInClass := by decide
  obtain ⟨-, -, -, hshort⟩ := run_shortened "C" hsteps hstage
  exact ⟨hstage, by decide +kernel, by decide +kernel, by decide +kernel, hshort⟩

end Session

end CodeGraph
