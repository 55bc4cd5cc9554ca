/-
# Which fault ends a drive

A drive goes wrong only at a class without a name, at a method without a signature, or at a call that
says not which method it calls; the first of these ends it, whatever has been logged
(`Tree.drive_ends`).  The cursor never goes wrong: the script of a forest leads back to where it has
begun (`Cursor.ends_script`).
-/
import CodeGraph.Proofs.Build.Script

namespace CodeGraph

/-! ## Results of computations that log -/

namespace Logged

variable {α β : Type}

/-- The result is the fault, if there is one, and otherwise a value as it is ensured. -/
def Fits : Except Fault α → Option Fault → (α → Prop) → Prop
  | .error fault, fault?, _ => fault? = some fault
  | .ok a, fault?, ensured => fault? = none ∧ ensured a

/-- Where a fault is told, the result is this fault. -/
theorem Fits.eq_error {result : Except Fault α} {fault : Fault} {ensured : α → Prop}
    (h : Fits result (some fault) ensured) : result = .error fault := by
  cases result with
  | error other => exact congrArg Except.error (Option.some.inj h).symm
  | ok a => cases h.1

theorem Fits.exists_ok {result : Except Fault α} {ensured : α → Prop}
    (h : Fits result none ensured) : ∃ a, result = .ok a ∧ ensured a := by
  cases result with
  | error fault => cases h
  | ok a => exact ⟨a, rfl, h.2⟩

/-- The computation has such a result, whatever has been logged before. -/
def Ends (computation : Logged α) (fault? : Option Fault) (ensured : α → Prop) : Prop :=
  ∀ lines, Fits (computation.run.run lines).1 fault? ensured

variable {computation : Logged α} {fault? : Option Fault} {ensured : α → Prop}

theorem ends_pure {a : α} (h : ensured a) : (pure a : Logged α).Ends none ensured :=
  fun _ => ⟨rfl, h⟩

theorem ends_throw (fault : Fault) : (throw fault : Logged α).Ends (some fault) ensured :=
  fun _ => rfl

/-- The first fault of two computations is that of the first, or else that of the second. -/
theorem Ends.bind {next : α → Logged β} {later? : Option Fault} {ensuredNext : β → Prop}
    (h : computation.Ends fault? ensured)
    (hnext : ∀ a, ensured a → (next a).Ends later? ensuredNext) :
    (computation >>= next).Ends (fault?.or later?) ensuredNext := by
  intro lines
  have hfirst := h lines
  rw [ExceptT.run_bind, StateT.run_bind]
  rcases hrun : computation.run.run lines with ⟨fault | a, middle⟩
  · rw [hrun] at hfirst
    obtain rfl : fault? = some fault := hfirst
    exact ends_throw fault middle
  · rw [hrun] at hfirst
    obtain ⟨rfl, ha⟩ := hfirst
    exact hnext a ha middle

theorem Ends.imp {weaker : α → Prop} (h : computation.Ends fault? ensured)
    (himp : ∀ a, ensured a → weaker a) : computation.Ends fault? weaker := by
  intro lines
  have hfits := h lines
  rcases hresult : (computation.run.run lines).1 with fault | a
  · rw [hresult] at hfits
    exact hfits
  · rw [hresult] at hfits
    obtain ⟨hnone, ha⟩ := hfits
    exact ⟨hnone, himp a ha⟩

/-- What is noted before is no matter. -/
theorem Ends.note {line : LogLine} (h : computation.Ends fault? ensured) :
    (do Logged.note line; computation : Logged α).Ends fault? ensured := by
  have hline : (Logged.note line).Ends none fun _ => True := fun _ => ⟨rfl, trivial⟩
  exact hline.bind fun _ _ => h

/-- The first fault of a list of steps is that of the first step with one. -/
theorem ends_foldlM {f : β → α → Logged β} {stepFault? : α → Option Fault} {invariant : β → Prop}
    {steps : List α}
    (hstep : ∀ a ∈ steps, ∀ b, invariant b → (f b a).Ends (stepFault? a) invariant) {b : β}
    (hb : invariant b) : (steps.foldlM f b).Ends (steps.findSome? stepFault?) invariant := by
  induction steps generalizing b with
  | nil => exact ends_pure hb
  | cons a steps ih =>
    have hor : (a :: steps).findSome? stepFault? =
        (stepFault? a).or (steps.findSome? stepFault?) := by
      rw [List.findSome?_cons]
      cases stepFault? a <;> rfl
    rw [List.foldlM_cons, hor]
    exact (hstep a List.mem_cons_self b hb).bind fun next hnext =>
      ih (fun a ha => hstep a (List.mem_cons_of_mem _ ha)) hnext

theorem Ends.result (h : computation.Ends fault? ensured) :
    Fits computation.result fault? ensured := h #[]

end Logged

open Logged

/-! ## Scripts -/

/-- The fault of an action, if it does not move the cursor. -/
def Action.fault? : Action → Option Fault
  | .refuse kind => some (.missingSignature kind)
  | _ => none

/-- The first fault of a script. -/
def Forest.fault? (forest : Forest) : Option Fault := forest.script.findSome? Action.fault?

namespace Cursor

/-- A move that can be made. -/
theorem ends_move {cursor next : Cursor} {m : Move} (h : cursor.move m = .ok next) :
    (cursor.follow (.move m)).Ends none fun after => after = next := by
  rw [follow, h]
  exact ends_pure rfl

/-- **A script ends where it has begun, or at the first call that it refuses.** -/
theorem ends_script (forest : Forest) (cursor : Cursor) :
    (forest.script.foldlM follow cursor).Ends forest.fault? fun last => last.path = cursor.path := by
  induction forest generalizing cursor with
  | nil => exact ends_pure rfl
  | token text role rest ih =>
    have hmove : cursor.move (.emit text role) = .ok (cursor.emit text role) := rfl
    refine (ends_move hmove).bind fun next hnext => ?_
    subst hnext
    rw [← cursor.emit_path text role]
    exact ih _
  | node kind name signature children rest ihChildren ihRest =>
    have hplans := Forest.plans_script kind name signature children rest
    rw [Forest.fault?]
    generalize (Forest.node kind name signature children rest).script = script at hplans
    cases hplans with
    | defer => exact (ihRest cursor).note
    | passOver => exact (ihRest cursor).note
    | refuse =>
      have hrefuse : (cursor.follow (.refuse kind)).Ends (some (.missingSignature kind))
          fun _ => False := ends_throw _
      exact hrefuse.bind fun next h =>
        (h.elim : (rest.script.foldlM follow next).Ends rest.fault? _)
    | enter _ _ _ m hmove =>
      obtain ⟨builder, hmove⟩ := hmove cursor
      have hinside : ∀ start : Cursor, start.path = cursor.nodes.size :: cursor.path →
          ((children.script ++ .move .ascend :: rest.script).foldlM follow start).Ends
            ((children.script ++ .move .ascend :: rest.script).findSome? Action.fault?)
            fun last => last.path = cursor.path := by
        intro start hstart
        rw [List.foldlM_append, List.findSome?_append]
        refine (ihChildren start).bind fun deep hdeep => ?_
        -- the node that has been entered is the one that is left
        obtain ⟨up, hup, hpath⟩ : ∃ up, deep.ascend = .ok up ∧ up.path = cursor.path := by
          rw [ascend, hdeep, hstart]
          exact ⟨_, rfl, rfl⟩
        have hascend : deep.move .ascend = .ok up := hup
        refine (ends_move hascend).bind fun next hnext => ?_
        subst hnext
        rw [← hpath]
        exact ihRest _
      refine (ends_move hmove).bind fun start hstart => hinside start ?_
      rw [hstart, push_path]

end Cursor

/-! ## Methods -/

/-- The fault with which the work on a method ends, if there is one: the method has no signature, or a
call in it has none. -/
def Tree.fault? (declaration : Tree) : Option Fault :=
  match declaration.signature with
  | none => some (.missingSignature declaration.kind)
  | some _ => declaration.children.fault?

namespace ClassBuilder

/-- A method is built unless a signature is missing in it. -/
theorem ends_buildMethod (builder : ClassBuilder) (declaration : Tree) :
    (builder.buildMethod declaration).Ends declaration.fault? fun _ => True := by
  rw [buildMethod, Tree.fault?]
  cases declaration.signature with
  | none => exact ends_throw _
  | some signature =>
    have hscript := Cursor.ends_script declaration.children (builder.openMethod signature)
    have hend : ∀ last : Cursor, last.path = [] →
        (do
          let method ← ofExcept last.close
          note (Cursor.closeLine method)
          note (last.builder.addLine method)
          return last.builder.add method : Logged ClassBuilder).Ends none fun _ => True := by
      intro last hlast
      have hclose : last.close = .ok last.method := by
        rw [Cursor.close, Cursor.depth, hlast]
        rfl
      rw [hclose]
      exact .note (.note (ends_pure trivial))
    rw [← Option.or_none (o := declaration.children.fault?)]
    exact hscript.bind hend

/-- The methods of a declaration are built unless a signature is missing in one of them. -/
theorem ends_buildMethods (builder : ClassBuilder) (declaration : Tree) :
    (builder.buildMethods declaration).Ends (declaration.methods.findSome? Tree.fault?)
      fun _ => True :=
  ends_foldlM (fun declaration _ builder _ => builder.ends_buildMethod declaration) trivial

end ClassBuilder

/-! ## Classes -/

/-- The fault with which the work on a finding ends, if there is one. -/
def Finding.fault? : Finding → Option Fault
  | .beginClass none => some .missingClassName
  | .method declaration => declaration.methods.findSome? Tree.fault?
  | _ => none

namespace Progress

/-- Once the class has begun, or when it begins, each finding ends with its fault. -/
theorem ends_follow {progress : Progress} {finding : Finding}
    (h : progress.builder?.isSome = true ∨ ∃ name?, finding = .beginClass name?) :
    (progress.follow finding).Ends finding.fault? fun next => next.builder?.isSome = true := by
  obtain ⟨builder?, passedOver⟩ := progress
  cases finding with
  | beginClass name? =>
    cases name? with
    | none => exact ends_throw _
    | some name => exact .note (ends_pure rfl)
  | method declaration =>
    have hbegun : builder?.isSome = true :=
      h.resolve_right fun ⟨name?, heq⟩ => (by cases heq)
    obtain ⟨builder, rfl⟩ := Option.isSome_iff_exists.mp hbegun
    rw [Finding.fault?, ← Option.or_none (o := declaration.methods.findSome? Tree.fault?)]
    exact (builder.ends_buildMethods declaration).bind fun next _ => ends_pure rfl
  | passOver kind name? =>
    exact .note (ends_pure (h.resolve_right fun ⟨name?, heq⟩ => (by cases heq)))
  | looseMethod =>
    exact .note (ends_pure (h.resolve_right fun ⟨name?, heq⟩ => (by cases heq)))

/-- Before the class has begun, nothing goes wrong. -/
theorem ends_follow_idle {progress : Progress} {finding : Finding}
    (hclass : ∀ name?, finding ≠ .beginClass name?)
    (hmethod : ∀ declaration, finding ≠ .method declaration) (h : progress.builder? = none) :
    (progress.follow finding).Ends finding.fault? fun next => next.builder? = none := by
  cases finding with
  | beginClass name? => exact absurd rfl (hclass name?)
  | method declaration => exact absurd rfl (hmethod declaration)
  | passOver kind name? => exact .note (ends_pure h)
  | looseMethod => exact .note (ends_pure h)

/-- Where no class begins, none is under way at the end. -/
theorem ends_foldlM_idle {findings : List Finding} {progress : Progress}
    (hidle : Finding.Idle findings) (h : progress.builder? = none) :
    (findings.foldlM follow progress).Ends (findings.findSome? Finding.fault?)
      fun last => last.builder? = none := by
  refine ends_foldlM (fun finding hmem progress hnone => ?_) h
  exact ends_follow_idle (fun name? heq => hidle.1 name? (heq ▸ hmem))
    (fun declaration heq => hidle.2 declaration (heq ▸ hmem)) hnone

/-- All that is found of a tree ends with the first fault. -/
theorem ends_foldlM_follow {findings : List Finding} {begun : Bool}
    (h : Finding.BeginsOnce findings begun) :
    (findings.foldlM follow {}).Ends (findings.findSome? Finding.fault?)
      fun last => last.builder?.isSome = begun := by
  rcases h with ⟨hidle, rfl⟩ | ⟨before, name?, after, rfl, hidle, -, rfl⟩
  · refine (ends_foldlM_idle hidle rfl).imp fun last hlast => ?_
    rw [hlast]
    rfl
  · rw [List.foldlM_append, List.findSome?_append]
    refine (ends_foldlM_idle hidle rfl).bind fun progress _ => ?_
    rw [List.foldlM_cons, ← List.singleton_append, List.findSome?_append]
    have hbegin : (progress.follow (.beginClass name?)).Ends
        ([Finding.beginClass name?].findSome? Finding.fault?)
        fun next => next.builder?.isSome = true := by
      rw [List.findSome?_singleton]
      exact ends_follow (Or.inr ⟨name?, rfl⟩)
    refine hbegin.bind fun next hnext => ends_foldlM (fun finding _ progress hbegun => ?_) hnext
    exact ends_follow (Or.inl hbegun)

/-- Finishing a class does not go wrong. -/
theorem ends_finish (progress : Progress) :
    progress.finish.Ends none fun graph? => graph?.isSome = progress.builder?.isSome := by
  obtain ⟨builder?, passedOver⟩ := progress
  -- whether a note about the types passed over comes first does not matter
  cases builder? with
  | none =>
    have hnone : (pure none : Logged (Option ClassGraph)).Ends none
        fun graph? => graph?.isSome = false := ends_pure rfl
    rw [finish]
    split
    · exact hnone.note
    · exact hnone
  | some builder =>
    have hsome : (do
        notes builder.buildLines
        return some builder.build : Logged (Option ClassGraph)).Ends none
        fun graph? => graph?.isSome = true := fun _ => ⟨rfl, rfl⟩
    rw [finish]
    split
    · exact hsome.note
    · exact hsome

end Progress

/-- **A drive ends with the first fault, or with a graph if a class has begun.** -/
theorem Tree.drive_ends (tree : Tree) :
    tree.drive.Ends ((tree.toForest.outline false).1.findSome? Finding.fault?)
      fun graph? => graph?.isSome = (tree.toForest.outline false).2 := by
  rw [drive, ← Option.or_none (o := List.findSome? _ _)]
  refine (Progress.ends_foldlM_follow tree.toForest.outline_false).bind fun progress hprogress => ?_
  refine progress.ends_finish.imp fun graph? hgraph => ?_
  rw [hgraph, hprogress]

end CodeGraph
