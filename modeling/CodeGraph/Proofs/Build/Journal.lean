/-
# The journal of a run

A journal keeps, for a run of a builder, all that has been done with each of its cursors.  It is
made from the steps alone, and the class, the open method, the methods in the slots and the methods
added are always those of its courses (`Session.Follows.run`).  So the words of the class are those
of all texts emitted so far, each where it came up first, and the tokens keep the words of their
texts whatever is done later (`Session.run_interned`).
-/
import CodeGraph.Proofs.Build.Continuation
import CodeGraph.Proofs.Build.Drive
import CodeGraph.Proofs.Build.Interned
import CodeGraph.Proofs.Build.Wordless

namespace CodeGraph

/-! ## Courses -/

/-- The signature of the method that a move calls. -/
def Cursor.Move.callee? : Cursor.Move → Option String
  | .descendCall _ callee => some callee
  | .descend _ | .ascend | .emit _ _ => none

/-- What has been done with a cursor: the method it was opened for and its moves, those that could
not be made among them. -/
structure Course where
  signature : String
  moves : List Cursor.Move := []
  deriving DecidableEq, Repr

namespace Course

/-- The cursor that has taken the course in a class. -/
def cursor (course : Course) (builder : ClassBuilder) : Cursor :=
  (builder.openMethod course.signature).tryMoves course.moves

/-- The course with one more move. -/
def extend (course : Course) (m : Cursor.Move) : Course :=
  { course with moves := course.moves ++ [m] }

/-- The texts emitted. -/
def mentions (course : Course) : List Mention := course.moves.filterMap Cursor.Move.mention?

/-- The methods called. -/
def callees (course : Course) : List String := course.moves.filterMap Cursor.Move.callee?

/-- The course leaves all nodes, so that its cursor can be closed. -/
def closes (course : Course) : Bool := (course.cursor { name := "" }).depth = 0

variable (course : Course) (builder other : ClassBuilder) (m : Cursor.Move)

@[simp] theorem cursor_extend :
    (course.extend m).cursor builder = (course.cursor builder).tryMove m :=
  List.foldl_append

@[simp] theorem mentions_extend :
    (course.extend m).mentions = course.mentions ++ m.mention?.toList := by
  rw [mentions, extend, List.filterMap_append, List.filterMap_cons, List.filterMap_nil]
  cases m.mention? <;> rfl

@[simp] theorem callees_extend :
    (course.extend m).callees = course.callees ++ m.callee?.toList := by
  rw [callees, extend, List.filterMap_append, List.filterMap_cons, List.filterMap_nil]
  cases m.callee? <;> rfl

/-- But for words the class does not matter. -/
theorem bare_cursor : (course.cursor builder).bare = (course.cursor other).bare := by
  rw [cursor, cursor, Cursor.bare_tryMoves, Cursor.bare_tryMoves (other.openMethod _)]
  rfl

/-- Apart from the ids of words, a method does not depend on the class it is built in. -/
theorem bare_method :
    (course.cursor builder).method.bare = (course.cursor other).method.bare :=
  congrArg Cursor.method (course.bare_cursor builder other)

/-- Whether a cursor can be closed is up to its course. -/
theorem closes_iff : course.closes = true ↔ (course.cursor builder).depth = 0 := by
  have hdepth : (course.cursor { name := "" }).bare.depth = (course.cursor builder).bare.depth :=
    congrArg Cursor.depth (course.bare_cursor _ _)
  rw [closes, decide_eq_true_iff]
  exact Eq.congr_left hdepth

/-- The signature is the one that the method was opened with. -/
theorem cursor_signature : (course.cursor builder).signature = course.signature := by
  refine Cursor.tryMoves_of_move (p := fun cursor => cursor.signature = course.signature)
    (fun cursor m next h hm => ?_) rfl course.moves
  rcases Cursor.move_cases hm with ⟨kind, rfl, rfl⟩ | ⟨kind, callee, rfl, rfl⟩ |
    ⟨rfl, node, path, hpath, rfl⟩ | ⟨text, role, rfl, rfl⟩
  · rw [Cursor.push_signature, h]
  · rw [Cursor.push_signature, h]
  · exact h
  · rw [Cursor.emit_signature, h]

end Course

/-! ## Journals -/

/-- The courses of a run. -/
structure Journal where
  /-- The courses that have ended, one way or another. -/
  ended : List Course := []
  /-- The course that is being taken. -/
  current? : Option Course := none
  /-- One for each course that was to be closed: the course, if it could be. -/
  slots : List (Option Course) := []
  /-- The courses of the methods that have been added. -/
  methods : List Course := []
  deriving DecidableEq, Repr

namespace Journal

/-- All courses, in the order in which they were begun. -/
def opened (journal : Journal) : List Course := journal.ended ++ journal.current?.toList

/-- All texts emitted, in the order of the run. -/
def mentions (journal : Journal) : List Mention := journal.opened.flatMap Course.mentions

/-- Enters a step. -/
def step (journal : Journal) (s : Session.Step) : Journal :=
  match s, journal.current? with
  | .openMethod signature, none => { journal with current? := some { signature } }
  | .move m, some course => { journal with current? := some (course.extend m) }
  | .close, some course =>
    { journal with
      ended := journal.ended ++ [course]
      current? := none
      slots := journal.slots ++ [if course.closes then some course else none] }
  | .abandon, some course =>
    { journal with ended := journal.ended ++ [course], current? := none }
  | .add slot, none =>
    { journal with methods := journal.methods ++ (journal.slots[slot]?.join).toList }
  | _, _ => journal

/-- The journal of a run. -/
def ofSteps (steps : List Session.Step) : Journal := steps.foldl step {}

theorem ofSteps_concat (steps : List Session.Step) (s : Session.Step) :
    ofSteps (steps ++ [s]) = (ofSteps steps).step s :=
  List.foldl_append

end Journal

/-! ## Who calls whom -/

/-- The callers and the calls are those of the courses. -/
structure Invocations.Notes (invocations : Invocations) (courses : List Course) : Prop where
  callers : ∀ caller, caller ∈ invocations.callers ↔
    ∃ course ∈ courses, course.signature = caller
  calls : ∀ caller callee, (caller, callee) ∈ invocations.calls ↔
    ∃ course ∈ courses, course.signature = caller ∧ callee ∈ course.callees

namespace Invocations.Notes

variable {invocations : Invocations} {courses : List Course} {course : Course}

theorem mem_concat_iff {p : Course → Prop} :
    (∃ other ∈ courses ++ [course], p other) ↔ (∃ other ∈ courses, p other) ∨ p course := by
  simp only [List.mem_append, List.mem_singleton, or_and_right, exists_or, exists_eq_left]

/-- A caller is noted with the method that is opened. -/
theorem addCaller (h : invocations.Notes courses) (signature : String) :
    (invocations.addCaller signature).Notes (courses ++ [⟨signature, []⟩]) where
  callers caller := by
    rw [mem_concat_iff, ← h.callers, Invocations.addCaller, List.mem_cons, or_comm, eq_comm]
  calls caller callee := by
    rw [mem_concat_iff, ← h.calls]
    exact (or_iff_left fun hnew => List.not_mem_nil hnew.2).symm

/-- A move extends the last course, and if it calls, so do the calls. -/
theorem extend (h : invocations.Notes (courses ++ [course])) (m : Cursor.Move) :
    Notes (m.callee?.elim invocations (invocations.addCall course.signature))
      (courses ++ [course.extend m]) := by
  obtain ⟨hcallers, hcalls⟩ := h
  simp only [mem_concat_iff] at hcallers hcalls
  rcases hm : m.callee? with _ | name
  · refine ⟨fun caller => ?_, fun caller callee => ?_⟩
    · rw [mem_concat_iff]
      exact hcallers caller
    · rw [mem_concat_iff, Course.callees_extend, hm, Option.toList_none, List.append_nil]
      exact hcalls caller callee
  · refine ⟨fun caller => ?_, fun caller callee => ?_⟩
    · rw [mem_concat_iff]
      show caller ∈ course.signature :: invocations.callers ↔ _
      rw [List.mem_cons, hcallers, eq_comm]
      exact or_iff_right_of_imp Or.inr
    · rw [mem_concat_iff, Course.callees_extend, hm, Option.toList_some, List.mem_append,
        List.mem_singleton]
      show (caller, callee) ∈ (course.signature, name) :: invocations.calls ↔ _
      rw [List.mem_cons, hcalls, Prod.mk.injEq, and_or_left, eq_comm]
      exact or_comm.trans or_assoc

end Invocations.Notes

/-! ## Related lists -/

/-- A table that stands in front of another grows into it. -/
theorem Grows.of_isPrefix {α : Type} {xs ys : Array α} (h : xs.toList <+: ys.toList) :
    Grows xs ys := by
  intro i a ha
  rw [← Array.getElem?_toList] at ha ⊢
  obtain ⟨rest, hrest⟩ := h
  rw [← hrest, List.getElem?_append_left (List.getElem?_eq_some_iff.mp ha).1]
  exact ha

theorem rel_mono {α β : Type} {r q : α → β → Prop} (hrq : ∀ a b, r a b → q a b) {x : Option α}
    {y : Option β} (h : Option.Rel r x y) : Option.Rel q x y := by
  cases h with
  | none => exact .none
  | some hab => exact .some (hrq _ _ hab)

theorem rel_getElem? {α β : Type} {r : α → β → Prop} {xs : List α} {ys : List β}
    (h : List.Forall₂ r xs ys) (i : Nat) : Option.Rel r xs[i]? ys[i]? := by
  induction h generalizing i with
  | nil => exact .none
  | cons hab _ ih =>
    cases i with
    | zero => exact .some hab
    | succ i => exact ih i

/-- A change to each element that keeps the relation keeps it for the list. -/
theorem forall₂_map_zipIdx {α β : Type} {r : α → β → Prop} {f : α × Nat → α}
    (hf : ∀ a i b, r a b → r (f (a, i)) b) {xs : List α} {ys : List β} (h : List.Forall₂ r xs ys)
    (k : Nat) : List.Forall₂ r ((xs.zipIdx k).map f) ys := by
  induction h generalizing k with
  | nil => exact .nil
  | cons hab _ ih => exact .cons (hf _ k _ hab) (ih (k + 1))

/-! ## Following a run -/

namespace Cursor

/-- A move does not take anything from the class. -/
theorem tryMove_builder (cursor : Cursor) (m : Move) :
    (cursor.tryMove m).builder.methods = cursor.builder.methods ∧
      Grows cursor.builder.vocabulary (cursor.tryMove m).builder.vocabulary := by
  refine tryMove_of_move (p := fun next => next.builder.methods = cursor.builder.methods ∧
    Grows cursor.builder.vocabulary next.builder.vocabulary) (fun next hm => ?_) ⟨rfl, Grows.refl _⟩
  exact move_builder hm

/-- A move that calls is noted in the class. -/
theorem tryMove_invocations (cursor : Cursor) (m : Move) :
    (cursor.tryMove m).builder.invocations = m.callee?.elim cursor.builder.invocations
      (cursor.builder.invocations.addCall cursor.signature) := by
  cases m with
  | descend kind => exact congrArg ClassBuilder.invocations (cursor.push_builder kind none)
  | descendCall kind callee =>
    exact congrArg ClassBuilder.invocations (push_builder _ kind (some callee))
  | ascend =>
    refine tryMove_of_move (p := fun next => next.builder.invocations = cursor.builder.invocations)
      (fun next hm => ?_) rfl
    obtain ⟨node, path, -, rfl⟩ := cursor.ascend_eq_ok hm
    rfl
  | emit text role =>
    show (cursor.emit text role).builder.invocations = cursor.builder.invocations
    rw [emit_builder, wordsOf]
    split <;> rfl

/-- The cursor has taken the course, and its tokens have the words of their texts. -/
structure Takes (cursor : Cursor) (course : Course) : Prop where
  eq_cursor : ∃ builder, cursor = course.cursor builder
  spelled : cursor.method.Spelled cursor.builder.vocabulary course.mentions

end Cursor

/-- The method has been made in the course, and its tokens have the words of their texts. -/
structure MethodGraph.MadeIn (words : Array String) (method : MethodGraph) (course : Course) :
    Prop where
  eq_method : ∃ builder, method = (course.cursor builder).method
  spelled : method.Spelled words course.mentions

/-- A method is made from the same moves in a larger vocabulary. -/
theorem MethodGraph.MadeIn.grow {words more : Array String} {method : MethodGraph} {course : Course}
    (h : MethodGraph.MadeIn words method course) (hgrow : Grows words more) :
    MethodGraph.MadeIn more method course :=
  ⟨h.eq_method, h.spelled.grow hgrow⟩

namespace Session

/-! ### Steps in one equation -/

/-- A session goes on with the cursor that has tried to move. -/
theorem moveStep_eq (slots : List (Option MethodGraph)) (cursor : Cursor) (m : Cursor.Move) :
    (moveStep ⟨.building cursor, slots⟩ cursor m).1 = ⟨.building (cursor.tryMove m), slots⟩ := by
  rcases hm : cursor.move m with fault | next
  · rw [moveStep, Cursor.tryMove, hm]
  · rw [moveStep, Cursor.tryMove, hm]

/-- A close takes a slot, which has the method if nothing but the root is open. -/
theorem closeStep_eq (slots : List (Option MethodGraph)) (cursor : Cursor) :
    (closeStep ⟨.building cursor, slots⟩ cursor).1 = ⟨.collecting cursor.builder,
      slots ++ [if cursor.depth = 0 then some cursor.method else none]⟩ := by
  by_cases hdepth : cursor.depth = 0
  · rw [closeStep, Cursor.close, if_pos hdepth, if_pos hdepth]
  · rw [closeStep, Cursor.close, if_neg hdepth, if_neg hdepth]

/-- What is in the slot, if anything, is added. -/
theorem addStep_eq (slots : List (Option MethodGraph)) (builder : ClassBuilder) (slot : Nat) :
    (addStep ⟨.collecting builder, slots⟩ builder slot).1 = ⟨.collecting
      { builder with methods := builder.methods ++ (slots[slot]?.join).toList }, slots⟩ := by
  have hempty : (⟨.collecting builder, slots⟩ : Session) = ⟨.collecting
      { builder with methods := builder.methods ++ [] }, slots⟩ := by
    rw [List.append_nil]
  rcases hslot : slots[slot]? with _ | _ | method
  · rw [addStep, hslot]
    exact hempty
  · rw [addStep, hslot]
    exact hempty
  · rw [addStep, hslot]
    rfl

/-! ### What a session holds -/

/-- The session holds what the courses of the journal have come to. -/
structure Follows (session : Session) (journal : Journal) (builder : ClassBuilder) : Prop where
  builder_eq : session.builder? = some builder
  vocabulary : builder.vocabulary.toList = (journal.mentions.flatMap Mention.words).eraseDups
  invocations : builder.invocations.Notes journal.opened
  cursor : Option.Rel Cursor.Takes session.cursor? journal.current?
  slots : List.Forall₂ (Option.Rel (MethodGraph.MadeIn builder.vocabulary)) session.slots
    journal.slots
  methods : List.Forall₂ (MethodGraph.MadeIn builder.vocabulary) builder.methods journal.methods

namespace Follows

/-- In the beginning nothing has been noted and nothing built. -/
theorem start (name : String) : (start name).Follows {} { name } where
  builder_eq := rfl
  vocabulary := rfl
  invocations := ⟨fun _ => by simp [Journal.opened], fun _ _ => by simp [Journal.opened]⟩
  cursor := .none
  slots := .nil
  methods := .nil

/-! ### One step -/

section

variable {slots : List (Option MethodGraph)} {cursor : Cursor} {builder : ClassBuilder}
  {ended methods : List Course} {course : Course} {kept : List (Option Course)}

theorem openMethod (h : Follows ⟨.collecting builder, slots⟩ ⟨ended, none, kept, methods⟩ builder)
    (signature : String) :
    Follows ⟨.building (builder.openMethod signature), slots⟩
      ⟨ended, some ⟨signature, []⟩, kept, methods⟩ (builder.noteMethod signature) where
  builder_eq := rfl
  vocabulary := by
    have hmentions : Journal.mentions ⟨ended, some ⟨signature, []⟩, kept, methods⟩ =
        Journal.mentions ⟨ended, none, kept, methods⟩ := by
      simp [Journal.mentions, Journal.opened, Course.mentions]
    rw [hmentions]
    exact h.vocabulary
  invocations := by
    have hnotes := h.invocations.addCaller signature
    rw [Journal.opened, Option.toList_none, List.append_nil] at hnotes
    exact hnotes
  cursor := .some ⟨⟨builder, rfl⟩, .nil rfl⟩
  slots := h.slots
  methods := h.methods

/-- The cursor stands where the moves of its course lead. -/
theorem takes
    (h : Follows ⟨.building cursor, slots⟩ ⟨ended, some course, kept, methods⟩ builder) :
    cursor.Takes course := by
  cases h.cursor with
  | some htakes => exact htakes

theorem move (h : Follows ⟨.building cursor, slots⟩ ⟨ended, some course, kept, methods⟩ builder)
    (m : Cursor.Move) :
    Follows ⟨.building (cursor.tryMove m), slots⟩ ⟨ended, some (course.extend m), kept, methods⟩
      (cursor.tryMove m).builder := by
  obtain rfl : cursor.builder = builder := Option.some.inj h.builder_eq
  obtain ⟨⟨base, rfl⟩, hown⟩ := h.takes
  obtain ⟨hmethods, hgrow⟩ := (course.cursor base).tryMove_builder m
  obtain ⟨hwords, htokens⟩ := Cursor.Spelled.tryMove ⟨h.vocabulary, hown⟩ m
  refine ⟨rfl, ?_, ?_, .some ⟨⟨base, ?_⟩, ?_⟩, ?_, ?_⟩
  · rw [hwords]
    simp [Journal.mentions, Journal.opened]
  · rw [Cursor.tryMove_invocations, Course.cursor_signature]
    exact h.invocations.extend m
  · rw [Course.cursor_extend]
  · rw [Course.mentions_extend]
    exact htokens
  · exact h.slots.imp fun _ _ hslot => rel_mono (fun _ _ hmade => hmade.grow hgrow) hslot
  · rw [hmethods]
    exact h.methods.imp fun _ _ hmade => hmade.grow hgrow

/-- A method that is closed ends its course, and is kept if its depth is zero. -/
theorem close (h : Follows ⟨.building cursor, slots⟩ ⟨ended, some course, kept, methods⟩ builder) :
    Follows ⟨.collecting cursor.builder,
        slots ++ [if cursor.depth = 0 then some cursor.method else none]⟩
      ⟨ended ++ [course], none, kept ++ [if course.closes then some course else none], methods⟩
      cursor.builder := by
  obtain rfl : cursor.builder = builder := Option.some.inj h.builder_eq
  obtain ⟨⟨base, rfl⟩, hown⟩ := h.takes
  refine ⟨rfl, ?_, ?_, .none, ?_, h.methods⟩
  · exact h.vocabulary.trans (by simp [Journal.mentions, Journal.opened])
  · rw [Journal.opened, Option.toList_none, List.append_nil]
    exact h.invocations
  · refine List.rel_append h.slots (List.forall₂_cons.mpr ⟨?_, .nil⟩)
    simp only [course.closes_iff base]
    split
    · exact .some ⟨⟨base, rfl⟩, hown⟩
    · exact .none

/-- A cursor that is dropped ends its course and leaves its words. -/
theorem abandon
    (h : Follows ⟨.building cursor, slots⟩ ⟨ended, some course, kept, methods⟩ builder) :
    Follows ⟨.collecting cursor.builder, slots⟩ ⟨ended ++ [course], none, kept, methods⟩
      cursor.builder := by
  obtain rfl : cursor.builder = builder := Option.some.inj h.builder_eq
  refine ⟨rfl, ?_, ?_, .none, h.slots, h.methods⟩
  · exact h.vocabulary.trans (by simp [Journal.mentions, Journal.opened])
  · rw [Journal.opened, Option.toList_none, List.append_nil]
    exact h.invocations

/-- A method that is added comes from the course that is kept in its slot. -/
theorem add (h : Follows ⟨.collecting builder, slots⟩ ⟨ended, none, kept, methods⟩ builder)
    (slot : Nat) :
    Follows ⟨.collecting
        { builder with methods := builder.methods ++ (slots[slot]?.join).toList }, slots⟩
      ⟨ended, none, kept, methods ++ (kept[slot]?.join).toList⟩
      { builder with methods := builder.methods ++ (slots[slot]?.join).toList } where
  builder_eq := rfl
  vocabulary := h.vocabulary
  invocations := h.invocations
  cursor := .none
  slots := h.slots
  methods := by
    refine List.rel_append h.methods ?_
    have hslot := rel_getElem? h.slots slot
    generalize slots[slot]? = found at hslot ⊢
    generalize kept[slot]? = noted at hslot ⊢
    cases hslot with
    | none => exact .nil
    | some hslot =>
      cases hslot with
      | none => exact .nil
      | some hmade => exact .cons hmade .nil

end

/-- **Each step that stays in the class is followed by its entry.** -/
theorem step {session : Session} {journal : Journal} {builder : ClassBuilder}
    (h : session.Follows journal builder) {s : Step} (hs : s.staysInClass) :
    ∃ next, (session.step s).1.Follows (journal.step s) next := by
  obtain ⟨stage, slots⟩ := session
  obtain ⟨ended, current?, kept, methods⟩ := journal
  have hbuilder := h.builder_eq
  have hcursor := h.cursor
  -- there is a class at hand, and a course is being taken just if a method is open
  cases stage with
  | idle => cases hbuilder
  | collecting own =>
    obtain rfl : own = builder := Option.some.inj hbuilder
    obtain rfl : current? = none := by
      cases hcursor
      rfl
    cases s with
    | beginClass name => exact hs.elim
    | openMethod signature => exact ⟨_, h.openMethod signature⟩
    | move m => exact ⟨own, h⟩
    | close => exact ⟨own, h⟩
    | abandon => exact ⟨own, h⟩
    | add slot =>
      have hadd := h.add slot
      rw [← addStep_eq] at hadd
      exact ⟨_, hadd⟩
  | building cursor =>
    obtain ⟨course, rfl⟩ : ∃ course, current? = some course := by
      cases hcursor
      exact ⟨_, rfl⟩
    cases s with
    | beginClass name => exact hs.elim
    | openMethod signature => exact ⟨builder, h⟩
    | move m =>
      have hmove := h.move m
      rw [← moveStep_eq] at hmove
      exact ⟨_, hmove⟩
    | close =>
      have hclose := h.close
      rw [← closeStep_eq] at hclose
      exact ⟨_, hclose⟩
    | abandon => exact ⟨_, h.abandon⟩
    | add slot => exact ⟨builder, h⟩

/-- **A run is followed by its journal.** -/
theorem run (name : String) (steps : List Step) (hsteps : ∀ s ∈ steps, s.staysInClass) :
    ∃ builder, ((Session.start name).run steps).Follows (.ofSteps steps) builder := by
  induction steps using List.reverseRecOn with
  | nil => exact ⟨_, .start name⟩
  | append_singleton steps s ih =>
    obtain ⟨builder, h⟩ := ih fun t ht => hsteps t (List.mem_append_left [s] ht)
    rw [run_append, Journal.ofSteps_concat]
    exact h.step (hsteps s List.mem_concat_self)

end Follows

/-! ## The words of a run -/

/-- The tokens of the open method, of the methods in the slots and of those added are the ones
emitted in their courses, and have the words of their texts. -/
structure Spelled (session : Session) (journal : Journal) (words : Array String) : Prop where
  cursor : Option.Rel (fun cursor course => cursor.method.Spelled words course.mentions)
    session.cursor? journal.current?
  slots : List.Forall₂ (Option.Rel fun method course => method.Spelled words course.mentions)
    session.slots journal.slots
  methods : ∀ builder, session.builder? = some builder →
    List.Forall₂ (fun method course => method.Spelled words course.mentions) builder.methods
      journal.methods

/-- What has been built spells its words in any larger vocabulary. -/
theorem Follows.spelled {session : Session} {journal : Journal} {builder : ClassBuilder}
    (h : session.Follows journal builder) {more : Array String}
    (hgrow : Grows builder.vocabulary more) : session.Spelled journal more where
  cursor := by
    obtain ⟨ended, current?, kept, methods⟩ := journal
    have hbuilder := h.builder_eq
    have hcursor := h.cursor
    rcases session with ⟨_ | own | cursor, slots⟩
    · cases hbuilder
    · cases hcursor
      exact .none
    · obtain rfl : cursor.builder = builder := Option.some.inj hbuilder
      cases hcursor with
      | some htakes => exact .some (htakes.spelled.grow hgrow)
  slots := h.slots.imp fun _ _ hslot => rel_mono (fun _ _ hmade => hmade.spelled.grow hgrow) hslot
  methods := fun own hown => by
    obtain rfl : builder = own := Option.some.inj (h.builder_eq.symm.trans hown)
    exact h.methods.imp fun _ _ hmade => hmade.spelled.grow hgrow

/-- Linking keeps the words of the tokens. -/
theorem Follows.spelled_build {session : Session} {journal : Journal} {builder : ClassBuilder}
    (h : session.Follows journal builder) :
    List.Forall₂ (fun method course => method.Spelled builder.build.vocabulary course.mentions)
      builder.build.methods journal.methods :=
  forall₂_map_zipIdx (fun _ _ _ hspelled => hspelled.linkReturns _)
    (h.methods.imp fun _ _ hmade => hmade.spelled) 0

/-- **The words of a class are those of all texts emitted so far, each where it came up first.**
However a run goes on, they only grow at the end, and the tokens of every method keep the words of
their texts, up to the finished graph. -/
theorem run_interned (name : String) (steps more : List Step)
    (hsteps : ∀ s ∈ steps ++ more, s.staysInClass) :
    ∃ builder later,
      ((start name).run steps).builder? = some builder ∧
      ((start name).run (steps ++ more)).builder? = some later ∧
      later.vocabulary.toList =
        ((Journal.ofSteps (steps ++ more)).mentions.flatMap Mention.words).eraseDups ∧
      later.vocabulary.toList.Nodup ∧
      builder.vocabulary.toList <+: later.vocabulary.toList ∧
      ((start name).run steps).Spelled (.ofSteps steps) later.vocabulary ∧
      List.Forall₂ (fun method (course : Course) =>
          method.Spelled later.build.vocabulary course.mentions)
        later.build.methods (Journal.ofSteps (steps ++ more)).methods := by
  obtain ⟨builder, hbuilder⟩ := Follows.run name steps
    fun s hs => hsteps s (List.mem_append_left more hs)
  obtain ⟨later, hlater⟩ := Follows.run name (steps ++ more) hsteps
  obtain ⟨next, hnext, hextends⟩ := run_extends more hbuilder.builder_eq
    fun s hs => hsteps s (List.mem_append_right steps hs)
  obtain rfl : next = later := by
    rw [← run_append] at hnext
    exact Option.some.inj (hnext.symm.trans hlater.builder_eq)
  refine ⟨builder, next, hbuilder.builder_eq, hlater.builder_eq, hlater.vocabulary, ?_,
    hextends.words, hbuilder.spelled (.of_isPrefix hextends.words), hlater.spelled_build⟩
  rw [hlater.vocabulary]
  exact nodup_eraseDups _

/-- A run in which one method is abandoned and one cannot be closed before the first is added. -/
def straySteps : List Step :=
  [.openMethod "lost/0", .move (.emit "userName" .identifier), .abandon,
    .openMethod "open/0", .move (.descend .block), .move (.emit "name" .literal), .close,
    .openMethod "kept/0", .move (.emit "nameOfUserName" .identifier), .move (.emit "name" .plain),
    .close, .add 1]

/-- One more method for that run. -/
def moreSteps : List Step :=
  [.openMethod "more/0", .move (.emit "userId" .identifier), .close, .add 2]

/-- The words of a method that is abandoned come before those of the next one, and keep their
ids. -/
theorem run_interned_straySteps :
    (∀ s ∈ straySteps ++ moreSteps, s.staysInClass) ∧
    ∃ builder later,
      ((start "C").run straySteps).builder? = some builder ∧
      ((start "C").run (straySteps ++ moreSteps)).builder? = some later ∧
      later.vocabulary.toList = ["user", "name", "of", "id"] ∧
      builder.vocabulary.toList <+: later.vocabulary.toList ∧
      ((start "C").run straySteps).Spelled (.ofSteps straySteps) later.vocabulary ∧
      List.Forall₂ (fun method (course : Course) =>
          method.Spelled later.build.vocabulary course.mentions)
        later.build.methods
        [⟨"kept/0", [.emit "nameOfUserName" .identifier, .emit "name" .plain]⟩,
          ⟨"more/0", [.emit "userId" .identifier]⟩] := by
  have hsteps : ∀ s ∈ straySteps ++ moreSteps, s.staysInClass := by decide
  obtain ⟨builder, later, hbuilder, hlater, hwords, -, hgrow, hspelled, hmethods⟩ :=
    run_interned "C" straySteps moreSteps hsteps
  have hall : ((Journal.ofSteps (straySteps ++ moreSteps)).mentions.flatMap
      Mention.words).eraseDups = ["user", "name", "of", "id"] := by decide +kernel
  have hcourses : (Journal.ofSteps (straySteps ++ moreSteps)).methods =
      [⟨"kept/0", [.emit "nameOfUserName" .identifier, .emit "name" .plain]⟩,
        ⟨"more/0", [.emit "userId" .identifier]⟩] := by decide +kernel
  rw [hall] at hwords
  rw [hcourses] at hmethods
  exact ⟨hsteps, builder, later, hbuilder, hlater, hwords, hgrow, hspelled, hmethods⟩

end Session

end CodeGraph
