/-
# What an outline finds

An outline goes node by node (`Forest.outline_node`), and a class begins in it at most once, before
all of its methods (`Forest.outline_false`).
-/
import Mathlib
import CodeGraph.Build.Outline

namespace CodeGraph

/-! ## Node by node -/

theorem Kind.isTypeDeclaration_iff {kind : Kind} : kind.isTypeDeclaration = true ↔
    kind = .typeDeclaration ∨ kind = .enumDeclaration ∨ kind = .anonymousClassDeclaration := by
  constructor
  · intro h
    cases kind <;> first | contradiction | decide
  · rintro (rfl | rfl | rfl) <;> rfl

namespace Forest

/-- What one node adds to an outline, and whether the class has begun behind it. -/
inductive Finds (begun : Bool) (kind : Kind) (name signature : Option String)
    (children : Forest) : List Finding → Bool → Prop
  | unit (hkind : kind = .compilationUnit) :
      Finds begun kind name signature children (children.outline begun).1
        (children.outline begun).2
  | beginClass (hkind : kind = .typeDeclaration ∨ kind = .enumDeclaration) (hbegun : begun = false) :
      Finds begun kind name signature children (.beginClass name :: (children.outline true).1)
        (children.outline true).2
  | passOver (hkind : kind.isTypeDeclaration = true)
      (hbegun : kind = .typeDeclaration ∨ kind = .enumDeclaration → begun = true) :
      Finds begun kind name signature children [.passOver kind name] begun
  | method (hkind : kind = .methodDeclaration) (hbegun : begun = true) :
      Finds begun kind name signature children [.method { kind, name, signature, children }] begun
  | looseMethod (hkind : kind = .methodDeclaration) (hbegun : begun = false) :
      Finds begun kind name signature children [.looseMethod] begun
  | nothing (hunit : kind ≠ .compilationUnit) (htype : kind.isTypeDeclaration = false)
      (hmethod : kind ≠ .methodDeclaration) : Finds begun kind name signature children [] begun

/-- An outline goes node by node. -/
theorem outline_node (begun : Bool) (kind : Kind) (name signature : Option String)
    (children rest : Forest) :
    ∃ here after, Finds begun kind name signature children here after ∧
      (node kind name signature children rest).outline begun =
        (here ++ (rest.outline after).1, (rest.outline after).2) := by
  by_cases hunit : kind = .compilationUnit
  · subst hunit
    exact ⟨_, _, .unit rfl, rfl⟩
  by_cases hmethod : kind = .methodDeclaration
  · subst hmethod
    cases begun with
    | false => exact ⟨_, _, .looseMethod rfl rfl, rfl⟩
    | true => exact ⟨_, _, .method rfl rfl, rfl⟩
  by_cases htype : kind.isTypeDeclaration = true
  · rcases Kind.isTypeDeclaration_iff.mp htype with rfl | rfl | rfl
    · cases begun with
      | false => exact ⟨_, _, .beginClass (Or.inl rfl) rfl, rfl⟩
      | true => exact ⟨_, _, .passOver rfl fun _ => rfl, rfl⟩
    · cases begun with
      | false => exact ⟨_, _, .beginClass (Or.inr rfl) rfl, rfl⟩
      | true => exact ⟨_, _, .passOver rfl fun _ => rfl, rfl⟩
    · exact ⟨_, _, .passOver rfl (by rintro (h | h) <;> cases h), rfl⟩
  · rw [Bool.not_eq_true] at htype
    refine ⟨_, _, .nothing hunit htype hmethod, ?_⟩
    cases kind <;> first | rfl | contradiction

end Forest

/-! ## The beginning of the class -/

namespace Finding

/-- The declarations of the methods found, each with those nested in it. -/
def declarations (findings : List Finding) : List Tree :=
  findings.flatMap fun
    | .method declaration => declaration.methods
    | _ => []

/-- Nothing that is found begins a class. -/
def NoClass (findings : List Finding) : Prop := ∀ name?, Finding.beginClass name? ∉ findings

/-- Nothing that is found begins a class or is a method of one. -/
def Idle (findings : List Finding) : Prop :=
  NoClass findings ∧ ∀ declaration, Finding.method declaration ∉ findings

/-- The class begins at most once among what is found, and no method of it comes before; the flag
says whether it has begun in the end. -/
def BeginsOnce (findings : List Finding) (begun : Bool) : Prop :=
  Idle findings ∧ begun = false ∨
    ∃ before name? after, findings = before ++ .beginClass name? :: after ∧ Idle before ∧
      NoClass after ∧ begun = true

/-- If no class begins in either part, none begins in both. -/
theorem NoClass.append {before after : List Finding} (hbefore : NoClass before)
    (hafter : NoClass after) : NoClass (before ++ after) := by
  intro name? hmem
  rcases List.mem_append.mp hmem with hmem | hmem
  · exact hbefore name? hmem
  · exact hafter name? hmem

/-- The declarations are found part by part. -/
theorem declarations_append (before after : List Finding) :
    declarations (before ++ after) = declarations before ++ declarations after :=
  List.flatMap_append

/-- There is no declaration where nothing is found. -/
theorem declarations_of_idle {findings : List Finding} (h : Idle findings) :
    declarations findings = [] := by
  refine List.flatMap_eq_nil_iff.mpr fun finding hmem => ?_
  cases finding with
  | method declaration => exact absurd hmem (h.2 declaration)
  | beginClass name? => rfl
  | passOver kind name? => rfl
  | looseMethod => rfl

theorem Idle.nil : Idle [] := ⟨fun _ => List.not_mem_nil, fun _ => List.not_mem_nil⟩

theorem Idle.singleton {finding : Finding} (hclass : ∀ name?, finding ≠ .beginClass name?)
    (hmethod : ∀ declaration, finding ≠ .method declaration) : Idle [finding] :=
  ⟨fun name? hmem => hclass name? (List.mem_singleton.mp hmem).symm,
    fun declaration hmem => hmethod declaration (List.mem_singleton.mp hmem).symm⟩

/-- Nothing is found in two parts in which nothing is found. -/
theorem Idle.append {before after : List Finding} (hbefore : Idle before) (hafter : Idle after) :
    Idle (before ++ after) := by
  refine ⟨hbefore.1.append hafter.1, fun declaration hmem => ?_⟩
  rcases List.mem_append.mp hmem with hmem | hmem
  · exact hbefore.2 declaration hmem
  · exact hafter.2 declaration hmem

/-- What is idle may come before the class. -/
theorem BeginsOnce.idle_append {before findings : List Finding} {begun : Bool}
    (hbefore : Idle before) (h : BeginsOnce findings begun) :
    BeginsOnce (before ++ findings) begun := by
  rcases h with ⟨hidle, hbegun⟩ | ⟨middle, name?, after, rfl, hmiddle, hafter, hbegun⟩
  · exact Or.inl ⟨hbefore.append hidle, hbegun⟩
  · exact Or.inr ⟨before ++ middle, name?, after, (List.append_assoc _ _ _).symm,
      hbefore.append hmiddle, hafter, hbegun⟩

end Finding

namespace Forest

/-- Once the class has begun, no other one begins. -/
theorem outline_true (forest : Forest) :
    (forest.outline true).2 = true ∧ Finding.NoClass (forest.outline true).1 := by
  induction forest with
  | nil => exact ⟨rfl, fun _ => List.not_mem_nil⟩
  | token text role rest ih => exact ih
  | node kind name signature children rest ihChildren ihRest =>
    obtain ⟨here, after, hhere, heq⟩ := outline_node true kind name signature children rest
    have hafter : after = true ∧ Finding.NoClass here := by
      cases hhere with
      | unit => exact ihChildren
      | beginClass _ hbegun => cases hbegun
      | looseMethod _ hbegun => cases hbegun
      | passOver => exact ⟨rfl, fun _ hmem => by cases List.mem_singleton.mp hmem⟩
      | method => exact ⟨rfl, fun _ hmem => by cases List.mem_singleton.mp hmem⟩
      | nothing => exact ⟨rfl, fun _ => List.not_mem_nil⟩
    obtain ⟨rfl, hclass⟩ := hafter
    rw [heq]
    exact ⟨ihRest.1, hclass.append ihRest.2⟩

/-- In a forest a class begins at most once, and no method of it comes before. -/
theorem outline_false (forest : Forest) :
    Finding.BeginsOnce (forest.outline false).1 (forest.outline false).2 := by
  induction forest with
  | nil => exact Or.inl ⟨.nil, rfl⟩
  | token text role rest ih => exact ih
  | node kind name signature children rest ihChildren ihRest =>
    obtain ⟨here, after, hhere, heq⟩ := outline_node false kind name signature children rest
    have hafter : Finding.BeginsOnce here after := by
      cases hhere with
      | unit => exact ihChildren
      | beginClass =>
        obtain ⟨hbegun, hclass⟩ := children.outline_true
        exact Or.inr ⟨[], name, _, rfl, .nil, hclass, hbegun⟩
      | method _ hbegun => cases hbegun
      | passOver =>
        exact Or.inl ⟨.singleton (fun _ h => by cases h) (fun _ h => by cases h), rfl⟩
      | looseMethod =>
        exact Or.inl ⟨.singleton (fun _ h => by cases h) (fun _ h => by cases h), rfl⟩
      | nothing => exact Or.inl ⟨.nil, rfl⟩
    rw [heq]
    -- the class begins behind this node or in it, and then no other one behind it
    rcases hafter with ⟨hidle, rfl⟩ | ⟨before, name?, later, rfl, hbefore, hlater, rfl⟩
    · exact ihRest.idle_append hidle
    · refine Or.inr ⟨before, name?, later ++ (rest.outline true).1, ?_, hbefore,
        hlater.append rest.outline_true.2, rest.outline_true.1⟩
      rw [List.append_assoc, List.cons_append]

end Forest

end CodeGraph
