/-
# Methods are faithful to their declarations

The nodes of a method are those of its declaration in document order, and so are its tokens, but for
the methods and types in it (`MethodGraph.Translates`).  A builder that builds methods from
declarations one after another has the method of each of them
(`ClassBuilder.Builds.translates_build`).
-/
import CodeGraph.Proofs.Build.Script
import CodeGraph.Proofs.Build.Sites

namespace CodeGraph

/-- The method is the declaration, node by node and token by token, but for the methods and types
in it. -/
structure MethodGraph.Translates (method : MethodGraph) (declaration : Tree) : Prop where
  kind_eq : declaration.kind = .methodDeclaration
  signature_eq : declaration.signature = some method.signature
  rows_eq : method.rows = declaration.prune.rows
  size_eq : method.nodes.size = declaration.prune.children.nodeCount + 1
  /-- The children of a node are the nodes below it, in document order. -/
  children_eq : ∀ v node, method.nodes[v]? = some node →
    node.children = (declaration.prune.rows.map Row.parent).idxsOf (some v)
  leaves_fit : List.Forall₂ Leaf.Fits declaration.prune.leaves method.tokens.toList
  /-- The tokens of a node are those that it directly contains, in document order. -/
  tokens_eq : ∀ v node, method.nodes[v]? = some node →
    node.tokens = (declaration.prune.leaves.map Leaf.owner).idxsOf v

/-! ## From a declaration to its method -/

/-- Moves leave the methods of the class alone. -/
theorem Cursor.foldlM_move_methods {moves : List Move} {cursor last : Cursor}
    (h : moves.foldlM move cursor = .ok last) : last.builder.methods = cursor.builder.methods := by
  induction moves generalizing cursor with
  | nil =>
    cases h
    rfl
  | cons m moves ih =>
    obtain ⟨next, hm, hrest⟩ := exists_of_foldlM_cons h
    rw [ih hrest, (move_builder hm).1]

namespace MethodGraph

variable {method : MethodGraph} {declaration : Tree}

theorem parents_eq_map_rows : method.parents = method.rows.map Row.parent := by
  rw [parents, rows, List.map_map]
  rfl

theorem owners_eq_map_leaves {leaves : List Leaf}
    (h : List.Forall₂ Leaf.Fits leaves method.tokens.toList) :
    method.owners = leaves.map Leaf.owner := by
  rw [owners]
  generalize method.tokens.toList = tokens at h ⊢
  induction h with
  | nil => rfl
  | cons hfit _ ih => rw [List.map_cons, List.map_cons, hfit.owner_eq, ih]

/-- Returns that are linked do not make a method another. -/
theorem Translates.linkReturns (h : method.Translates declaration) (sites : List CallSite) :
    (Linkage.linkReturns method sites).Translates declaration where
  kind_eq := h.kind_eq
  signature_eq := h.signature_eq
  rows_eq := h.rows_eq
  size_eq := h.size_eq
  children_eq := h.children_eq
  leaves_fit :=
    Leaf.Fits.relink h.leaves_fit (method.map_linkReturns sites Token.alone fun _ _ => rfl)
  tokens_eq := h.tokens_eq

end MethodGraph

namespace ClassBuilder

/-- The method that has been gone through is its declaration. -/
theorem Completes.translates {builder : ClassBuilder} {declaration : Tree} {last : Cursor}
    (h : builder.Completes declaration last) (hkind : declaration.kind = .methodDeclaration)
    (hshaped : last.method.Shaped) : last.method.Translates declaration := by
  obtain ⟨signature, hsignature, hmoves⟩ := h.moves
  have halong := Cursor.Along.ofScript declaration.children h.clear hmoves
  have hrows : last.method.rows = declaration.prune.rows := by
    rw [halong.rows_eq]
    show _ = ⟨declaration.kind, none, none⟩ :: declaration.prune.children.rows 0 1
    rw [hkind]
    rfl
  have hleaves : List.Forall₂ Leaf.Fits declaration.prune.leaves last.method.tokens.toList :=
    halong.leaves_fit [] .nil
  refine
    { kind_eq := hkind
      signature_eq := by rw [hsignature, ← Cursor.openMethod_signature builder signature,
        ← halong.signature_eq]; rfl
      rows_eq := hrows
      size_eq := (halong.size_eq).trans (Nat.add_comm _ _)
      children_eq := fun v node hv => ?_
      leaves_fit := hleaves
      tokens_eq := fun v node hv => ?_ }
  · rw [hshaped.children_eq v node hv, MethodGraph.parents_eq_map_rows, hrows]
  · rw [hshaped.tokens_eq v node hv, MethodGraph.owners_eq_map_leaves hleaves]

/-- Methods are built in the order of their declarations, each from its own. -/
theorem Builds.forall₂ {builder last : ClassBuilder} {declarations : List Tree}
    (h : builder.Builds declarations last) (hrun : builder.IsRun)
    (hkind : ∀ declaration ∈ declarations, declaration.kind = .methodDeclaration) :
    ∃ made, last.methods = builder.methods ++ made ∧
      List.Forall₂ (fun declaration method => method.Translates declaration) declarations made := by
  induction h with
  | nil builder => exact ⟨[], (List.append_nil _).symm, .nil⟩
  | @cons builder last declaration declarations cursor here later ih =>
    -- the shape of the method comes from the run that ends with adding it
    have hrun' := hrun.completes here
    obtain ⟨signature, -, hmoves⟩ := here.moves
    have hmethods : cursor.builder.methods = builder.methods := Cursor.foldlM_move_methods hmoves
    have hshaped := (hrun'.finished cursor.method
      (List.mem_append_right _ (List.mem_singleton.mpr rfl))).shaped
    obtain ⟨made, hmade, htranslates⟩ :=
      ih hrun' fun other hother => hkind other (List.mem_cons_of_mem _ hother)
    refine ⟨cursor.method :: made, ?_, .cons (here.translates (hkind _ List.mem_cons_self) hshaped)
      htranslates⟩
    rw [hmade]
    show cursor.builder.methods ++ [cursor.method] ++ made = _
    rw [hmethods, List.append_assoc]
    rfl

end ClassBuilder

/-! ## All methods of a tree -/

namespace Forest

/-- What is nested are methods. -/
theorem kind_of_mem_nested {forest : Forest} {declaration : Tree}
    (h : declaration ∈ forest.nested) : declaration.kind = .methodDeclaration := by
  induction forest with
  | nil => cases h
  | token text role rest ih => exact ih h
  | node kind name signature children rest ihChildren ihRest =>
    rw [nested] at h
    split at h
    · next hkind =>
      rcases List.mem_cons.mp h with rfl | h
      · exact hkind
      · exact ihRest h
    · split at h
      · exact ihRest h
      · rcases List.mem_append.mp h with h | h
        · exact ihChildren h
        · exact ihRest h

/-- The methods that an outline finds are methods. -/
theorem kind_of_mem_outline {forest : Forest} {begun : Bool} {declaration : Tree}
    (h : .method declaration ∈ (forest.outline begun).1) :
    declaration.kind = .methodDeclaration := by
  induction forest generalizing begun with
  | nil => cases h
  | token text role rest ih => exact ih h
  | node kind name signature children rest ihChildren ihRest =>
    obtain ⟨here, after, hhere, heq⟩ := outline_node begun kind name signature children rest
    rw [heq] at h
    rcases List.mem_append.mp h with hmem | hmem
    · cases hhere with
      | unit => exact ihChildren hmem
      | beginClass =>
        rcases List.mem_cons.mp hmem with hfirst | hlater
        · cases hfirst
        · exact ihChildren hlater
      | method hkind =>
        cases List.mem_singleton.mp hmem
        exact hkind
      | passOver => cases List.mem_singleton.mp hmem
      | looseMethod => cases List.mem_singleton.mp hmem
      | nothing => cases hmem
    · exact ihRest hmem

end Forest

namespace Tree

theorem kind_of_mem_levels {n : Nat} {level : List Tree}
    (hlevel : ∀ other ∈ level, other.kind = .methodDeclaration) {declaration : Tree}
    (h : declaration ∈ levels n level) : declaration.kind = .methodDeclaration := by
  induction n generalizing level with
  | zero => cases h
  | succ n ih =>
    cases level with
    | nil => cases h
    | cons first level =>
      rcases List.mem_append.mp h with h | h
      · exact hlevel declaration h
      · refine ih (fun other hother => ?_) h
        obtain ⟨outer, -, hother⟩ := List.mem_flatMap.mp hother
        exact Forest.kind_of_mem_nested hother

theorem kind_of_mem_declarations {tree declaration : Tree}
    (h : declaration ∈ tree.declarations) : declaration.kind = .methodDeclaration := by
  obtain ⟨finding, hfinding, h⟩ := List.mem_flatMap.mp h
  cases finding with
  | method outer =>
    refine kind_of_mem_levels (fun other hother => ?_) h
    rw [List.mem_singleton.mp hother]
    exact Forest.kind_of_mem_outline hfinding
  | beginClass name? => cases h
  | passOver kind name? => cases h
  | looseMethod => cases h

end Tree

/-- Linking goes method by method. -/
theorem Linkage.forall₂_linked {declarations : List Tree} {methods : List MethodGraph}
    (h : List.Forall₂ (fun declaration method => method.Translates declaration) declarations
      methods) :
    List.Forall₂ (fun declaration method => method.Translates declaration) declarations
      (linked methods) := by
  have hpairs : List.Forall₂ (fun declaration (pair : MethodGraph × Nat) =>
      pair.1.Translates declaration) declarations methods.zipIdx := by
    rw [← List.zipIdx_map_fst 0 methods] at h
    exact List.forall₂_map_right_iff.mp h
  refine List.forall₂_map_right_iff.mpr (hpairs.imp fun declaration pair htranslates => ?_)
  exact htranslates.linkReturns _

/-- The methods of a finished class are their declarations. -/
theorem ClassBuilder.Builds.translates_build {name : String} {builder : ClassBuilder}
    {declarations : List Tree} (h : Builds { name } declarations builder)
    (hkind : ∀ declaration ∈ declarations, declaration.kind = .methodDeclaration) :
    List.Forall₂ (fun declaration method => method.Translates declaration) declarations
      builder.build.methods := by
  obtain ⟨made, hmade, htranslates⟩ := h.forall₂ (isRun_new name) hkind
  rw [List.nil_append] at hmade
  rw [← hmade] at htranslates
  exact Linkage.forall₂_linked htranslates

end CodeGraph
