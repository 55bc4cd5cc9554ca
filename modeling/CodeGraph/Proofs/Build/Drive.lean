/-
# What a successful drive does

If `Tree.classGraph?` gives a graph, then the methods of the graph have been built one after another
from declarations of the tree, with nothing left open and nothing refused
(`Tree.exists_of_classGraph?`).  So the work on a tree is a run of a builder
(`ClassBuilder.Builds.isRun`).
-/
import CodeGraph.Build.OfTree
import CodeGraph.Proofs.Build.Outline
import CodeGraph.Proofs.Build.Run
import CodeGraph.Walk.Basic

namespace CodeGraph

/-! ## Computations that log -/

namespace Logged

variable {α β : Type}

/-- The computation gives this result, whatever it logs. -/
def Returns (computation : Logged α) (a : α) : Prop :=
  ∃ lines more, computation.run.run lines = (.ok a, more)

/-- A result comes step by step. -/
theorem returns_bind {computation : Logged α} {next : α → Logged β} {b : β}
    (h : (computation >>= next).Returns b) :
    ∃ a, computation.Returns a ∧ (next a).Returns b := by
  obtain ⟨lines, more, h⟩ := h
  rw [ExceptT.run_bind, StateT.run_bind] at h
  rcases hfirst : computation.run.run lines with ⟨_ | a, middle⟩
  · rw [hfirst] at h
    cases h
  · rw [hfirst] at h
    exact ⟨a, ⟨lines, middle, hfirst⟩, ⟨middle, more, h⟩⟩

theorem returns_pure {a b : α} (h : (pure a : Logged α).Returns b) : b = a := by
  obtain ⟨lines, more, h⟩ := h
  cases h
  rfl

theorem not_returns_throw {fault : Fault} {a : α} : ¬ (throw fault : Logged α).Returns a := by
  rintro ⟨lines, more, h⟩
  cases h

theorem returns_ofExcept {result : Except Fault α} {a : α}
    (h : (ofExcept result : Logged α).Returns a) : result = .ok a := by
  cases result with
  | ok b => rw [returns_pure h]
  | error fault => exact absurd h not_returns_throw

/-- What is noted does not change the result. -/
theorem returns_of_note {line : LogLine} {rest : Logged α} {a : α}
    (h : (do note line; rest : Logged α).Returns a) : rest.Returns a := by
  obtain ⟨-, -, h⟩ := returns_bind h
  exact h

theorem returns_of_result {computation : Logged α} {a : α} (h : computation.result = .ok a) :
    computation.Returns a := by
  refine ⟨#[], ((computation.run).run #[]).2, ?_⟩
  rw [← h]
  rfl

end Logged

open Logged

/-! ## Scripts -/

/-- The moves among some actions. -/
def Action.moves (actions : List Action) : List Cursor.Move :=
  actions.filterMap fun
    | .move m => some m
    | _ => none

/-- Following a script makes its moves, and nothing may be refused. -/
theorem Cursor.foldlM_follow {actions : List Action} {cursor last : Cursor}
    (h : (actions.foldlM follow cursor).Returns last) :
    (∀ kind, Action.refuse kind ∉ actions) ∧
      (Action.moves actions).foldlM move cursor = .ok last := by
  induction actions generalizing cursor with
  | nil =>
    rw [returns_pure h]
    exact ⟨fun _ => List.not_mem_nil, rfl⟩
  | cons action actions ih =>
    rw [List.foldlM_cons] at h
    obtain ⟨next, hfollow, hrest⟩ := returns_bind h
    obtain ⟨hrefuse, hmoves⟩ := ih hrest
    simp only [List.mem_cons, not_or]
    cases action with
    | move m =>
      refine ⟨fun kind => ⟨fun heq => (by cases heq), hrefuse kind⟩, ?_⟩
      show (cursor.move m >>= _) = _
      rw [returns_ofExcept hfollow]
      exact hmoves
    | defer =>
      obtain rfl := returns_pure (returns_of_note hfollow)
      exact ⟨fun kind => ⟨fun heq => (by cases heq), hrefuse kind⟩, hmoves⟩
    | passOver kind =>
      obtain rfl := returns_pure (returns_of_note hfollow)
      exact ⟨fun kind => ⟨fun heq => (by cases heq), hrefuse kind⟩, hmoves⟩
    | refuse kind => exact absurd hfollow not_returns_throw

/-! ## Methods -/

namespace ClassBuilder

/-- The cursor has gone through a declaration for the builder, and nothing is left open. -/
structure Completes (builder : ClassBuilder) (declaration : Tree) (last : Cursor) : Prop where
  clear : ∀ kind, Action.refuse kind ∉ declaration.children.script
  moves : ∃ signature, declaration.signature = some signature ∧
    (Action.moves declaration.children.script).foldlM Cursor.move (builder.openMethod signature) =
      .ok last
  path_eq : last.path = []

/-- Methods are built from declarations one after another. -/
inductive Builds : ClassBuilder → List Tree → ClassBuilder → Prop
  | nil (builder : ClassBuilder) : Builds builder [] builder
  | cons {builder last : ClassBuilder} {declaration : Tree} {declarations : List Tree}
      {cursor : Cursor} (here : builder.Completes declaration cursor)
      (later : Builds (cursor.builder.add cursor.method) declarations last) :
      Builds builder (declaration :: declarations) last

/-- A method that is built has been completed and added. -/
theorem buildMethod_returns {builder next : ClassBuilder} {declaration : Tree}
    (h : (builder.buildMethod declaration).Returns next) :
    ∃ last, builder.Completes declaration last ∧ next = last.builder.add last.method := by
  rw [buildMethod] at h
  rcases hsignature : declaration.signature with _ | signature
  · rw [hsignature] at h
    exact absurd h not_returns_throw
  · rw [hsignature] at h
    obtain ⟨last, hscript, h⟩ := returns_bind h
    obtain ⟨method, hclose, h⟩ := returns_bind h
    obtain ⟨hclear, hmoves⟩ := Cursor.foldlM_follow hscript
    obtain ⟨hpath, rfl⟩ := Cursor.close_eq_ok (returns_ofExcept hclose)
    exact ⟨last, ⟨hclear, ⟨signature, hsignature, hmoves⟩, hpath⟩,
      returns_pure (returns_of_note (returns_of_note h))⟩

namespace Builds

theorem append {builder middle last : ClassBuilder} {before after : List Tree}
    (h : builder.Builds before middle) (hafter : middle.Builds after last) :
    builder.Builds (before ++ after) last := by
  induction h with
  | nil => exact hafter
  | cons here _ ih => exact .cons here (ih hafter)

/-- Declarations that are built one after another are built as a list. -/
theorem ofMethods {builder next : ClassBuilder} {declarations : List Tree}
    (h : (declarations.foldlM buildMethod builder).Returns next) :
    builder.Builds declarations next := by
  induction declarations generalizing builder with
  | nil =>
    rw [returns_pure h]
    exact .nil builder
  | cons declaration declarations ih =>
    rw [List.foldlM_cons] at h
    obtain ⟨middle, hhere, hlater⟩ := returns_bind h
    obtain ⟨last, hlast, rfl⟩ := buildMethod_returns hhere
    exact .cons hlast (ih hlater)

end Builds

end ClassBuilder

/-! ## Builds are runs -/

namespace Session

theorem run_append (session : Session) (before after : List Step) :
    session.run (before ++ after) = (session.run before).run after :=
  List.foldl_append

/-- Moves that all succeed are the moves of the session. -/
theorem run_moves {moves : List Cursor.Move} {cursor last : Cursor}
    (h : moves.foldlM Cursor.move cursor = .ok last) (slots : List (Option MethodGraph)) :
    Session.run ⟨.building cursor, slots⟩ (moves.map .move) = ⟨.building last, slots⟩ := by
  induction moves generalizing cursor with
  | nil =>
    cases h
    rfl
  | cons m moves ih =>
    rw [List.foldlM_cons] at h
    rcases hm : cursor.move m with fault | next
    · rw [hm] at h
      cases h
    · rw [hm] at h
      have hstep : (Session.step ⟨.building cursor, slots⟩ (.move m)).1 =
          ⟨.building next, slots⟩ := by
        show (moveStep _ cursor m).1 = _
        rw [moveStep, hm]
      rw [List.map_cons, run, List.foldl_cons, hstep]
      exact ih h

end Session

namespace ClassBuilder

/-- A class on which nothing has been done. -/
theorem isRun_new (name : String) : IsRun { name } :=
  ⟨name, [], fun _ hs => absurd hs List.not_mem_nil, rfl⟩

/-- A method that has been gone through is opened, closed and added in a run. -/
theorem IsRun.completes {builder : ClassBuilder} (h : builder.IsRun) {declaration : Tree}
    {last : Cursor} (hlast : builder.Completes declaration last) :
    (last.builder.add last.method).IsRun := by
  obtain ⟨name, steps, hsteps, hstage⟩ := h
  obtain ⟨-, ⟨signature, -, hmoves⟩, hpath⟩ := hlast
  have hclose : last.close = .ok last.method := by
    rw [Cursor.close, Cursor.depth, hpath]
    rfl
  -- the run goes on with opening the method, all moves of its script, closing it and adding it
  generalize hsession : (Session.start name).run steps = session at hstage
  obtain ⟨stage, slots⟩ := session
  subst hstage
  refine ⟨name, steps ++ .openMethod signature ::
    (Action.moves declaration.children.script).map .move ++ [.close, .add slots.length], ?_, ?_⟩
  · intro s hs
    simp only [List.mem_append, List.mem_cons, List.mem_map, List.not_mem_nil, or_false] at hs
    rcases hs with (hs | rfl | ⟨m, -, rfl⟩) | rfl | rfl
    · exact hsteps s hs
    all_goals trivial
  · rw [Session.run_append, Session.run_append, hsession]
    show (Session.run (Session.run ⟨.building (builder.openMethod signature), slots⟩ _) _).stage = _
    rw [Session.run_moves hmoves]
    show (Session.run (Session.closeStep ⟨.building last, slots⟩ last).1
      [.add slots.length]).stage = _
    rw [Session.closeStep, hclose]
    show (Session.addStep ⟨.collecting last.builder, slots ++ [some last.method]⟩ last.builder
      slots.length).1.stage = _
    rw [Session.addStep, List.getElem?_concat_length]

/-- **Methods built from declarations keep a run a run.** -/
theorem Builds.isRun {builder last : ClassBuilder} {declarations : List Tree}
    (h : builder.Builds declarations last) (hrun : builder.IsRun) : last.IsRun := by
  induction h with
  | nil => exact hrun
  | cons here _ ih => exact ih (hrun.completes here)

end ClassBuilder

/-! ## Classes -/

namespace Progress

/-- In a class, all methods that are found are built. -/
theorem foldlM_follow {findings : List Finding} {builder : ClassBuilder} {passedOver : Nat}
    {last : Progress} (hclass : Finding.NoClass findings)
    (h : (findings.foldlM follow ⟨some builder, passedOver⟩).Returns last) :
    ∃ next, last.builder? = some next ∧
      builder.Builds (Finding.declarations findings) next := by
  induction findings generalizing builder passedOver with
  | nil =>
    rw [returns_pure h]
    exact ⟨builder, rfl, .nil builder⟩
  | cons finding findings ih =>
    have hclass' : Finding.NoClass findings :=
      fun name? hmem => hclass name? (List.mem_cons_of_mem finding hmem)
    rw [List.foldlM_cons] at h
    obtain ⟨progress, hhere, hlater⟩ := returns_bind h
    cases finding with
    | beginClass name? => exact absurd List.mem_cons_self (hclass name?)
    | method declaration =>
      -- the declaration is built with all that are nested in it
      obtain ⟨middle, hmethods, hmiddle⟩ := returns_bind hhere
      obtain rfl := returns_pure hmiddle
      obtain ⟨next, hnext, hbuilds⟩ := ih hclass' hlater
      exact ⟨next, hnext, (ClassBuilder.Builds.ofMethods hmethods).append hbuilds⟩
    | passOver kind name? =>
      obtain rfl := returns_pure (returns_of_note hhere)
      exact ih hclass' hlater
    | looseMethod =>
      obtain rfl := returns_pure (returns_of_note hhere)
      exact ih hclass' hlater

/-- Before the class has begun, nothing is built. -/
theorem foldlM_follow_idle {findings : List Finding} {passedOver : Nat} {last : Progress}
    (hidle : Finding.Idle findings)
    (h : (findings.foldlM follow ⟨none, passedOver⟩).Returns last) : last.builder? = none := by
  induction findings generalizing passedOver with
  | nil => rw [returns_pure h]
  | cons finding findings ih =>
    have hidle' : Finding.Idle findings :=
      ⟨fun name? hmem => hidle.1 name? (List.mem_cons_of_mem finding hmem),
        fun declaration hmem => hidle.2 declaration (List.mem_cons_of_mem finding hmem)⟩
    rw [List.foldlM_cons] at h
    obtain ⟨progress, hhere, hlater⟩ := returns_bind h
    cases finding with
    | beginClass name? => exact absurd List.mem_cons_self (hidle.1 name?)
    | method declaration => exact absurd List.mem_cons_self (hidle.2 declaration)
    | passOver kind name? =>
      obtain rfl := returns_pure (returns_of_note hhere)
      exact ih hidle' hlater
    | looseMethod =>
      obtain rfl := returns_pure (returns_of_note hhere)
      exact ih hidle' hlater

theorem finish_returns {progress : Progress} {graph : ClassGraph}
    (h : progress.finish.Returns (some graph)) :
    ∃ builder, progress.builder? = some builder ∧ graph = builder.build := by
  obtain ⟨builder?, passedOver⟩ := progress
  -- whether a note about the types passed over comes first does not matter
  cases builder? with
  | none =>
    have hnone : (pure none : Logged (Option ClassGraph)).Returns (some graph) := by
      rw [finish] at h
      split at h
      · exact returns_of_note h
      · exact h
    cases returns_pure hnone
  | some builder =>
    have hsome : (notes builder.buildLines >>= fun _ => pure (some builder.build)).Returns
        (some graph) := by
      rw [finish] at h
      split at h
      · exact returns_of_note h
      · exact h
    obtain ⟨-, -, hbuild⟩ := returns_bind hsome
    exact ⟨builder, rfl, Option.some.inj (returns_pure hbuild)⟩

end Progress

namespace Tree

/-- The declarations from which methods are built, in the order in which they are built. -/
def declarations (tree : Tree) : List Tree :=
  Finding.declarations (tree.toForest.outline false).1

/-- **A graph is built from the declarations of its methods, one after another.** -/
theorem exists_of_classGraph? {tree : Tree} {graph : ClassGraph}
    (h : tree.classGraph? = .ok (some graph)) :
    ∃ name builder, ClassBuilder.Builds { name } tree.declarations builder ∧
      graph = builder.build ∧ (tree.toForest.outline false).2 = true := by
  obtain ⟨progress, hfollow, hfinish⟩ := returns_bind (returns_of_result h)
  obtain ⟨builder, hbuilder, rfl⟩ := Progress.finish_returns hfinish
  -- without a class there is no graph; with one, only what is found behind its beginning counts
  rcases tree.toForest.outline_false with
    ⟨hidle, -⟩ | ⟨before, name?, after, heq, hidle, hclass, hbegun⟩
  · rw [Progress.foldlM_follow_idle hidle hfollow] at hbuilder
    cases hbuilder
  · rw [heq, List.foldlM_append] at hfollow
    obtain ⟨middle, hbefore, hfollow⟩ := returns_bind hfollow
    rw [List.foldlM_cons] at hfollow
    obtain ⟨begun, hbegin, hfollow⟩ := returns_bind hfollow
    cases name? with
    | none => exact absurd hbegin not_returns_throw
    | some name =>
      obtain rfl := returns_pure (returns_of_note hbegin)
      obtain ⟨next, hnext, hbuilds⟩ := Progress.foldlM_follow hclass hfollow
      rw [hbuilder, Option.some.injEq] at hnext
      subst hnext
      refine ⟨name, builder, ?_, rfl, hbegun⟩
      rw [declarations, heq, Finding.declarations_append, Finding.declarations_of_idle hidle]
      exact hbuilds

/-- The graph of a tree is that of a run. -/
theorem exists_isRun_of_classGraph? {tree : Tree} {graph : ClassGraph}
    (h : tree.classGraph? = .ok (some graph)) :
    ∃ builder : ClassBuilder, builder.IsRun ∧ graph = builder.build := by
  obtain ⟨name, builder, hbuilds, rfl, -⟩ := exists_of_classGraph? h
  exact ⟨builder, hbuilds.isRun (ClassBuilder.isRun_new name), rfl⟩

/-- A class with a method that calls itself and holds another method, and a type with a third one. -/
def nestingTree : Tree where
  kind := .compilationUnit
  children := .node .typeDeclaration (some "C") none
    (.node .methodDeclaration none (some "f:0")
      (.node .methodDeclaration none (some "g:0") (.token "x" .identifier .nil)
        (.node .anonymousClassDeclaration none none
          (.node .methodDeclaration none (some "h:0") .nil .nil)
          (.node .returnStatement none none
            (.token "return" .plain
              (.node .methodInvocation none (some "f:0") (.token "f" .identifier .nil) .nil))
            .nil)))
      .nil) .nil

/-- A graph is the result if evaluating it says so. -/
theorem eq_ok_of_toOption {result : Except Fault (Option ClassGraph)} {graph : ClassGraph}
    (h : result.toOption = some (some graph)) : result = .ok (some graph) := by
  rcases result with fault | found
  · cases h
  · exact congrArg Except.ok (Option.some.inj h)

/-- The methods of that class: the type with the third one is passed over. -/
def nestingGraph : ClassGraph where
  name := "C"
  methods := [
    { signature := "f:0"
      nodes := #[
        { kind := .methodDeclaration, children := [1] },
        { kind := .returnStatement, parent := some 0, children := [2], tokens := [0] },
        { kind := .methodInvocation, parent := some 1, tokens := [1], callee := some "f:0" }]
      tokens := #[
        { text := "return", owner := 1, returnsTo := [⟨0, 2⟩] },
        { text := "f", owner := 2, symbol := some 0, vocabulary := [0] }]
      symbols := #["f"] },
    { signature := "g:0"
      nodes := #[{ kind := .methodDeclaration, tokens := [0] }]
      tokens := #[{ text := "x", owner := 0, symbol := some 0, vocabulary := [1] }]
      symbols := #["x"] }]
  vocabulary := #["f", "x"]
  invocations := { callers := ["g:0", "f:0", "f:0"], calls := [("f:0", "f:0")] }

/-- A method that is declared inside another comes behind it. -/
theorem classGraph?_nestingTree : nestingTree.classGraph? = .ok (some nestingGraph) :=
  eq_ok_of_toOption (by decide +kernel)

end Tree

end CodeGraph
