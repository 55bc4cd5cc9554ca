/-
# What is passed over does not matter

`Tree.skim` takes out all that the nodes contain which a drive passes over: types in methods, other
types than the class, methods before the class, and nodes outside of methods that are neither
compilation units nor methods.  The drive does the same without (`Tree.drive_skim`), so nothing in
such a node can make it fail.
-/
import CodeGraph.Build.OfTree
import CodeGraph.Proofs.Build.Outline

namespace CodeGraph

/-! ## In methods -/

namespace Forest

/-- A forest in a method, where types contain nothing. -/
def hollow : Forest → Forest
  | nil => nil
  | token text role rest => .token text role rest.hollow
  | node kind name signature children rest =>
    .node kind name signature (if kind.isTypeDeclaration then .nil else children.hollow) rest.hollow

/-- The script is the same. -/
theorem script_hollow (forest : Forest) : forest.hollow.script = forest.script := by
  induction forest with
  | nil => rfl
  | token text role rest ih => exact congrArg (Action.move (.emit text role) :: ·) ih
  | node kind name signature children rest ihChildren ihRest =>
    rw [hollow, script.eq_def, script.eq_def (node kind name signature children rest)]
    dsimp only
    rw [ihRest]
    split
    · rfl
    · split
      · rfl
      · rw [ihChildren]

end Forest

/-- A method, where the types in it contain nothing. -/
def Tree.hollow (declaration : Tree) : Tree :=
  { declaration with children := declaration.children.hollow }

namespace Forest

/-- The nested methods are the same, but for the types in them. -/
theorem nested_hollow (forest : Forest) : forest.hollow.nested = forest.nested.map Tree.hollow := by
  induction forest with
  | nil => rfl
  | token text role rest ih => exact ih
  | node kind name signature children rest ihChildren ihRest =>
    rw [hollow, nested, nested, ihRest]
    split
    · next hkind =>
      subst hkind
      rfl
    · split
      · rfl
      · rw [ihChildren, List.map_append]

theorem nodeCount_hollow_le (forest : Forest) : forest.hollow.nodeCount ≤ forest.nodeCount := by
  induction forest with
  | nil => exact Nat.le_refl 0
  | token text role rest ih => exact ih
  | node kind name signature children rest ihChildren ihRest =>
    rw [hollow, nodeCount, nodeCount]
    split
    · rw [nodeCount]
      omega
    · omega

/-- A nested method contains fewer nodes than what it is nested in. -/
theorem nodeCount_lt_of_mem_nested {forest : Forest} {method : Tree} (h : method ∈ forest.nested) :
    method.children.nodeCount < forest.nodeCount := by
  induction forest with
  | nil => cases h
  | token text role rest ih => exact ih h
  | node kind name signature children rest ihChildren ihRest =>
    rw [nested] at h
    rw [nodeCount]
    split at h
    · rcases List.mem_cons.mp h with rfl | h
      · show children.nodeCount < _
        omega
      · have hrest := ihRest h
        omega
    · split at h
      · have hrest := ihRest h
        omega
      · rcases List.mem_append.mp h with h | h
        · have hchildren := ihChildren h
          omega
        · have hrest := ihRest h
          omega

end Forest

namespace Tree

theorem levels_nil (n : Nat) : levels n [] = [] := by
  cases n <;> rfl

/-- A level is followed by the methods that are declared inside it. -/
theorem levels_succ (n : Nat) (level : List Tree) :
    levels (n + 1) level = level ++ levels n (level.flatMap (·.children.nested)) := by
  cases level with
  | nil => exact (levels_nil n).symm
  | cons first level => rfl

/-- More levels than there are nodes in every method of a level add nothing. -/
theorem levels_eq_of_le {n m : Nat} {level : List Tree}
    (h : ∀ method ∈ level, method.children.nodeCount < n) (hle : n ≤ m) :
    levels m level = levels n level := by
  induction n generalizing m level with
  | zero =>
    obtain rfl : level = [] := List.eq_nil_iff_forall_not_mem.mpr fun method hmem =>
      absurd (h method hmem) (Nat.not_lt_zero _)
    rw [levels_nil, levels_nil]
  | succ n ih =>
    obtain ⟨m, rfl⟩ := Nat.exists_eq_add_of_le' (Nat.lt_of_lt_of_le (Nat.succ_pos n) hle)
    rw [levels_succ, levels_succ, ih (fun inner hinner => ?_) (Nat.le_of_succ_le_succ hle)]
    obtain ⟨method, hmem, hinner⟩ := List.mem_flatMap.mp hinner
    have hinside := Forest.nodeCount_lt_of_mem_nested hinner
    have hmethod := h method hmem
    omega

/-- The levels of methods are the same without what is passed over. -/
theorem levels_map_hollow (n : Nat) (level : List Tree) :
    levels n (level.map hollow) = (levels n level).map hollow := by
  induction n generalizing level with
  | zero => rfl
  | succ n ih =>
    have hnext : (level.map hollow).flatMap (·.children.nested) =
        (level.flatMap (·.children.nested)).map hollow := by
      rw [List.flatMap_map, List.map_flatMap]
      exact List.flatMap_congr fun method _ => method.children.nested_hollow
    rw [levels_succ, levels_succ, hnext, ih, List.map_append]

/-- The methods that are built are the same, but for the types in them. -/
theorem methods_hollow (declaration : Tree) :
    declaration.hollow.methods = declaration.methods.map hollow := by
  have hcount := declaration.children.nodeCount_hollow_le
  have henough : ∀ method ∈ [declaration.hollow],
      method.children.nodeCount < declaration.children.hollow.nodeCount + 1 := by
    intro method hmem
    rw [List.mem_singleton.mp hmem]
    exact Nat.lt_succ_self _
  -- there may be fewer nodes to count the levels by, but they are still enough
  show levels (declaration.children.hollow.nodeCount + 1) [declaration.hollow] = _
  rw [← levels_eq_of_le henough (Nat.succ_le_succ hcount)]
  exact levels_map_hollow _ [declaration]

end Tree

/-! ## Outside of methods -/

/-- A finding, where the types in methods contain nothing. -/
def Finding.hollow : Finding → Finding
  | .method declaration => .method declaration.hollow
  | finding => finding

namespace Forest

/-- A forest outside of methods, where nodes that are passed over contain nothing. -/
def skim (begun : Bool) : Forest → Forest
  | nil => nil
  | token text role rest => .token text role (rest.skim begun)
  | node kind name signature children rest =>
    .node kind name signature
      (match kind with
      | .compilationUnit => children.skim begun
      | .typeDeclaration | .enumDeclaration => if begun then .nil else children.skim true
      | .methodDeclaration => if begun then children.hollow else .nil
      | _ => .nil)
      (rest.skim ((node kind name signature children nil).outline begun).2)

/-- What a node adds to an outline is determined. -/
theorem Finds.outline_eq {begun : Bool} {kind : Kind} {name signature : Option String}
    {children : Forest} {here : List Finding} {after : Bool}
    (h : Finds begun kind name signature children here after) (rest : Forest) :
    (node kind name signature children rest).outline begun =
      (here ++ (rest.outline after).1, (rest.outline after).2) := by
  cases h with
  | unit hkind =>
    subst hkind
    rfl
  | beginClass hkind hbegun =>
    subst hbegun
    rcases hkind with rfl | rfl <;> rfl
  | passOver hkind hbegun =>
    rcases Kind.isTypeDeclaration_iff.mp hkind with rfl | rfl | rfl
    · obtain rfl := hbegun (Or.inl rfl)
      rfl
    · obtain rfl := hbegun (Or.inr rfl)
      rfl
    · rfl
  | method hkind hbegun =>
    subst hkind hbegun
    rfl
  | looseMethod hkind hbegun =>
    subst hkind hbegun
    rfl
  | nothing hunit htype hmethod => cases kind <;> first | rfl | contradiction

/-- The findings are the same, but for the types in methods. -/
theorem outline_skim (forest : Forest) (begun : Bool) : (forest.skim begun).outline begun =
    ((forest.outline begun).1.map Finding.hollow, (forest.outline begun).2) := by
  induction forest generalizing begun with
  | nil => rfl
  | token text role rest ih => exact ih begun
  | node kind name signature children rest ihChildren ihRest =>
    obtain ⟨here, after, hhere, heq⟩ := outline_node begun kind name signature children rest
    have hafter : ((node kind name signature children nil).outline begun).2 = after := by
      rw [hhere.outline_eq]
      rfl
    rw [heq, skim.eq_def]
    dsimp only
    rw [hafter]
    have hskim : ∀ inside, Finds begun kind name signature inside (here.map Finding.hollow) after →
        (node kind name signature inside (rest.skim after)).outline begun =
          ((here ++ (rest.outline after).1).map Finding.hollow, (rest.outline after).2) := by
      intro inside hinside
      rw [hinside.outline_eq, ihRest, List.map_append]
    refine hskim _ ?_
    cases hhere with
    | unit hkind =>
      subst hkind
      have hinside : Finds begun .compilationUnit name signature (children.skim begun)
          ((children.skim begun).outline begun).1 ((children.skim begun).outline begun).2 :=
        .unit rfl
      rw [ihChildren] at hinside
      exact hinside
    | beginClass hkind hbegun =>
      subst hbegun
      have hinside : Finds false kind name signature (children.skim true)
          (.beginClass name :: ((children.skim true).outline true).1)
          ((children.skim true).outline true).2 := .beginClass hkind rfl
      rw [ihChildren] at hinside
      rcases hkind with rfl | rfl <;> exact hinside
    | passOver hkind hbegun => exact .passOver hkind hbegun
    | method hkind hbegun =>
      subst hkind hbegun
      exact .method rfl rfl
    | looseMethod hkind hbegun => exact .looseMethod hkind hbegun
    | nothing hunit htype hmethod => exact .nothing hunit htype hmethod

end Forest

/-! ## The drive -/

namespace ClassBuilder

/-- What is passed over in a method makes no difference to it. -/
theorem buildMethod_hollow (builder : ClassBuilder) (declaration : Tree) :
    builder.buildMethod declaration.hollow = builder.buildMethod declaration := by
  have hscript : declaration.hollow.children.script = declaration.children.script :=
    declaration.children.script_hollow
  rw [buildMethod, buildMethod, hscript]
  rfl

/-- What is passed over makes no difference to the methods of a declaration. -/
theorem buildMethods_hollow (builder : ClassBuilder) (declaration : Tree) :
    builder.buildMethods declaration.hollow = builder.buildMethods declaration := by
  have hstep : (fun (builder : ClassBuilder) (declaration : Tree) =>
      builder.buildMethod declaration.hollow) = buildMethod :=
    funext₂ buildMethod_hollow
  rw [buildMethods, Tree.methods_hollow, List.foldlM_map, hstep]
  rfl

end ClassBuilder

/-- What is passed over makes no difference to what is done with a finding. -/
theorem Progress.follow_hollow (progress : Progress) (finding : Finding) :
    progress.follow finding.hollow = progress.follow finding := by
  cases finding with
  | beginClass name? => rfl
  | passOver kind name? => rfl
  | looseMethod => rfl
  | method declaration =>
    rw [Finding.hollow, follow, follow]
    cases progress.builder? with
    | none => rfl
    | some builder =>
      dsimp only
      rw [builder.buildMethods_hollow]

namespace Tree

/-- A tree where nodes that are passed over contain nothing. -/
def skim (tree : Tree) : Tree := (tree.toForest.skim false).trees.headD tree

theorem toForest_skim (tree : Tree) : tree.skim.toForest = tree.toForest.skim false := rfl

/-- **What is passed over does not matter.** -/
theorem drive_skim (tree : Tree) : tree.skim.drive = tree.drive := by
  have hstep : (fun (progress : Progress) (finding : Finding) => progress.follow finding.hollow) =
      Progress.follow := funext₂ Progress.follow_hollow
  rw [drive, drive, toForest_skim, Forest.outline_skim, List.foldlM_map, hstep]

/-- A method in a field is no member of the class, so that it may be without a signature. -/
example :
    skim ⟨.typeDeclaration, some "C", none,
      .node .fieldDeclaration none none (.node .methodDeclaration none none .nil .nil) .nil⟩ =
    ⟨.typeDeclaration, some "C", none, .node .fieldDeclaration none none .nil .nil⟩ := rfl

end Tree

end CodeGraph
