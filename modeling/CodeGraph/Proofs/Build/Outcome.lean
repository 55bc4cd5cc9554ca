/-
# When a drive fails

A drive fails exactly on what is wrong with the class it comes to: the class has no name, or there is
a method or a call without a signature among what is visited for it, of which the first is reported.
Without a class there is no graph; in all other cases there is one (`Tree.outcomes`).
-/
import CodeGraph.Proofs.Build.Offenders
import CodeGraph.Proofs.Build.PassedOver

namespace CodeGraph

/-! ## The first fault of an outline -/

namespace Finding

/-- The name with which the class begins, if a finding begins it. -/
def className? : Finding → Option (Option String)
  | .beginClass name? => some name?
  | _ => none

variable {findings : List Finding}

theorem findSome?_className?_of_noClass (h : NoClass findings) :
    findings.findSome? className? = none := by
  refine List.findSome?_eq_none_iff.mpr fun finding hmem => ?_
  cases finding with
  | beginClass name? => exact absurd hmem (h name?)
  | method declaration => rfl
  | passOver kind name? => rfl
  | looseMethod => rfl

/-- In the class, the first fault is that of the first method with one. -/
theorem findSome?_fault?_of_noClass (h : NoClass findings) :
    findings.findSome? fault? = (declarations findings).findSome? Tree.fault? := by
  induction findings with
  | nil => rfl
  | cons finding findings ih =>
    have hrest := ih fun name? hmem => h name? (List.mem_cons_of_mem finding hmem)
    cases finding with
    | beginClass name? => exact absurd List.mem_cons_self (h name?)
    | method declaration =>
      have hdeclarations : declarations (.method declaration :: findings) =
          declaration.methods ++ declarations findings := List.flatMap_cons
      rw [hdeclarations, List.findSome?_append, List.findSome?_cons, hrest, fault?]
      cases declaration.methods.findSome? Tree.fault? <;> rfl
    | passOver kind name? => exact hrest
    | looseMethod => exact hrest

/-- The first fault is that of the name with which the class begins, or of a method. -/
theorem BeginsOnce.findSome?_fault? {begun : Bool} (h : BeginsOnce findings begun) :
    (begun = false ∧ findings.findSome? className? = none ∧ findings.findSome? fault? = none) ∨
      ∃ name?, begun = true ∧ findings.findSome? className? = some name? ∧
        findings.findSome? fault? = (fault? (.beginClass name?)).or
          ((declarations findings).findSome? Tree.fault?) := by
  rcases h with ⟨hidle, hbegun⟩ | ⟨before, name?, after, rfl, hidle, hafter, hbegun⟩
  · refine Or.inl ⟨hbegun, findSome?_className?_of_noClass hidle.1, ?_⟩
    rw [findSome?_fault?_of_noClass hidle.1, declarations_of_idle hidle]
    rfl
  · refine Or.inr ⟨name?, hbegun, ?_, ?_⟩
    · rw [List.findSome?_append, findSome?_className?_of_noClass hidle.1]
      rfl
    · have hdeclarations : declarations (before ++ .beginClass name? :: after) =
          declarations after := by
        rw [declarations_append, declarations_of_idle hidle]
        rfl
      rw [hdeclarations, List.findSome?_append, findSome?_fault?_of_noClass hidle.1,
        declarations_of_idle hidle, List.findSome?_cons, findSome?_fault?_of_noClass hafter]
      cases fault? (.beginClass name?) <;> rfl

end Finding

namespace Forest

/-- The class begins with the name of the first type that is met. -/
theorem className?_outline_false (forest : Forest) (k : Nat) :
    (forest.outline false).1.findSome? Finding.className? =
      (forest.met Kind.isClass Kind.isUnit k).head?.map fun found => found.2.name := by
  induction forest generalizing k with
  | nil => rfl
  | token text role rest ih => exact ih (k + 1)
  | node kind name signature children rest ihChildren ihRest =>
    obtain ⟨here, after, hhere, heq⟩ := outline_node false kind name signature children rest
    have howns := hhere.owns (children.methods_outline_false 0)
    have hname : here.findSome? Finding.className? =
        (Tree.met Kind.isClass Kind.isUnit { kind, name, signature, children }).head?.map
          fun found => found.2.name := by
      rw [Tree.met]
      cases hhere with
      | unit hkind =>
        subst hkind
        exact ihChildren 0
      | beginClass hkind =>
        rw [if_pos (Kind.isClass_iff.mpr hkind)]
        rfl
      | passOver hkind hbegun =>
        rcases Kind.isTypeDeclaration_iff.mp hkind with rfl | rfl | rfl
        · cases hbegun (Or.inl rfl)
        · cases hbegun (Or.inr rfl)
        · rfl
      | method _ hbegun => cases hbegun
      | looseMethod hkind =>
        subst hkind
        rfl
      | nothing hunit htype =>
        have hclass : ¬ kind.isClass = true := by
          intro hclass
          rcases Kind.isClass_iff.mp hclass with rfl | rfl <;> cases htype
        rw [if_neg hclass, if_neg (mt Kind.isUnit_iff.mp hunit)]
        rfl
    rw [heq, met_node, List.findSome?_append, hname]
    rcases howns with ⟨rfl, hnone, -⟩ | ⟨-, c, body, others, hsome, -⟩
    · rw [hnone]
      exact ihRest (k + 1)
    · rw [hsome]
      rfl

end Forest

/-! ## The class -/

namespace Tree

/-- The name that the node at an address declares. -/
def nameAt? (tree : Tree) (address : List Nat) : Option String := (tree.at? address).bind Tree.name

variable {tree : Tree} {c : List Nat} {body : Tree}

theorem IsClassAt.unique {other : List Nat} (h : tree.IsClassAt c) (hother : tree.IsClassAt other) :
    other = c := by
  rcases h.first other hother.toReachesClass with heq | hlt
  · exact heq
  · exact (hother.first c h.toReachesClass).elim Eq.symm fun hgt => absurd hlt (lt_asymm hgt)

/-- If a class is reached, then one is met first. -/
theorem ReachesClass.exists_met (h : tree.ReachesClass c) :
    ∃ first found others, tree.met Kind.isClass Kind.isUnit = (first, found) :: others := by
  obtain ⟨body, hmeets⟩ := reachesClass_iff.mp h
  obtain ⟨⟨first, found⟩, others, hmet⟩ :=
    List.exists_cons_of_ne_nil (List.ne_nil_of_mem (mem_met.mpr hmeets))
  exact ⟨first, found, others, hmet⟩

/-- If a class is reached, one of them is the first. -/
theorem ReachesClass.exists_isClassAt (h : tree.ReachesClass c) :
    ∃ first, tree.IsClassAt first := by
  obtain ⟨first, found, others, hmet⟩ := h.exists_met
  exact ⟨first, isClassAt_of_met hmet⟩

/-- The class begins under its name. -/
theorem IsClassAt.className?_eq (h : tree.IsClassAt c) :
    (tree.toForest.outline false).1.findSome? Finding.className? = some (tree.nameAt? c) := by
  obtain ⟨first, found, others, hmet⟩ := h.toReachesClass.exists_met
  have hfound : tree.at? first = some found := (mem_met.mp (hmet ▸ List.mem_cons_self)).found
  obtain rfl := h.unique (isClassAt_of_met hmet)
  rw [tree.toForest.className?_outline_false 0, met_toForest, hmet, nameAt?, hfound]
  rfl

/-- The methods that are built are those at the places of the class. -/
theorem IsClassAt.declarations_eq (hclass : tree.IsClassAt c) (hbody : tree.at? c = some body)
    (hbegun : (tree.toForest.outline false).2 = true) :
    tree.declarations = (tree.placesFrom c body).map Prod.snd := by
  obtain ⟨other, found, hother, hfound, hmethods⟩ := exists_members hbegun
  obtain rfl := hclass.unique hother
  obtain rfl := Option.some.inj (hfound.symm.trans hbody)
  rw [declarations, Finding.declarations_eq, hmethods, map_placesFrom]

/-- The first fault is that of the name of the class, or the first one of all visits. -/
theorem IsClassAt.findSome?_fault? (hclass : tree.IsClassAt c) (hbody : tree.at? c = some body) :
    (tree.toForest.outline false).2 = true ∧
      (tree.toForest.outline false).1.findSome? Finding.fault? =
        (Finding.fault? (.beginClass (tree.nameAt? c))).or
          ((tree.visitedFrom c body).findSome? fun visit => visit.2.ownFault?) := by
  have hname := hclass.className?_eq
  rcases tree.toForest.outline_false.findSome?_fault? with
    ⟨-, hnone, -⟩ | ⟨name?, hbegun, hname', hfault⟩
  · rw [hnone] at hname
    cases hname
  · obtain rfl := Option.some.inj (hname.symm.trans hname')
    have hdeclarations : Finding.declarations (tree.toForest.outline false).1 =
        (tree.placesFrom c body).map Prod.snd := hclass.declarations_eq hbody hbegun
    rw [hfault, hdeclarations, findSome?_fault?_placesFrom hclass.toReachesClass hbody]
    exact ⟨hbegun, rfl⟩

/-! ## The four results -/

/-- The result of a drive fits its first fault. -/
theorem fits_classGraph? (tree : Tree) :
    Logged.Fits tree.classGraph? ((tree.toForest.outline false).1.findSome? Finding.fault?)
      fun graph? => graph?.isSome = (tree.toForest.outline false).2 :=
  tree.drive_ends.result

/-- Without a class that is reached, there is no graph and no fault. -/
theorem classGraph?_of_not_reachesClass (h : ∀ c, ¬ tree.ReachesClass c) :
    tree.classGraph? = .ok none := by
  have hfits := tree.fits_classGraph?
  have hfault : (tree.toForest.outline false).1.findSome? Finding.fault? = none ∧
      (tree.toForest.outline false).2 = false := by
    rcases tree.toForest.outline_false.findSome?_fault? with
      ⟨hbegun, -, hnone⟩ | ⟨name?, hbegun, -, -⟩
    · exact ⟨hnone, hbegun⟩
    · obtain ⟨c, body, hclass, -⟩ := exists_members hbegun
      exact absurd hclass.toReachesClass (h c)
  rw [hfault.1, hfault.2] at hfits
  obtain ⟨graph?, hgraph, hnone⟩ := hfits.exists_ok
  rw [hgraph, Option.isNone_iff_eq_none.mp (Option.isSome_eq_false_iff.mp hnone)]

/-- A class without a name is a fault, whatever else is missing. -/
theorem classGraph?_of_nameless (hclass : tree.IsClassAt c) (hname : tree.nameAt? c = none) :
    tree.classGraph? = .error .missingClassName := by
  obtain ⟨body, hbody⟩ := hclass.toReachesClass.exists_body
  have hfits := tree.fits_classGraph?
  rw [(hclass.findSome?_fault? hbody).2, hname] at hfits
  exact hfits.eq_error

/-- With a name, the first signature that is missing is the fault, and else there is a graph. -/
theorem fits_of_named (hclass : tree.IsClassAt c) (hbody : tree.at? c = some body)
    (hname : tree.nameAt? c ≠ none) : Logged.Fits tree.classGraph?
      ((tree.visitedFrom c body).findSome? fun visit => visit.2.ownFault?)
      fun graph? => graph?.isSome = true := by
  obtain ⟨name, hname⟩ := Option.ne_none_iff_exists'.mp hname
  obtain ⟨hbegun, hfault⟩ := hclass.findSome?_fault? hbody
  have hfits := tree.fits_classGraph?
  rw [hfault, hbegun, hname] at hfits
  exact hfits

theorem exists_graph_of_forall_not_offends (hclass : tree.IsClassAt c)
    (hname : tree.nameAt? c ≠ none) (h : ∀ position node, ¬ tree.Offends c position node) :
    ∃ graph, tree.classGraph? = .ok (some graph) := by
  obtain ⟨body, hbody⟩ := hclass.toReachesClass.exists_body
  have hfits := fits_of_named hclass hbody hname
  rcases findSome?_visitedFrom hclass.toReachesClass hbody with
    ⟨-, hnone⟩ | ⟨position, node, hfirst, -⟩
  · rw [hnone] at hfits
    obtain ⟨graph?, hgraph, hsome⟩ := hfits.exists_ok
    obtain ⟨graph, rfl⟩ := Option.isSome_iff_exists.mp hsome
    exact ⟨graph, hgraph⟩
  · exact absurd hfirst.toOffends (h position node)

/-- The first node without its signature is the fault. -/
theorem classGraph?_of_offendsFirst {position : (List Nat × List Nat) × List Nat} {node : Tree}
    (hclass : tree.IsClassAt c) (hname : tree.nameAt? c ≠ none)
    (h : tree.OffendsFirst c position node) :
    tree.classGraph? = .error (.missingSignature node.kind) := by
  obtain ⟨body, hbody⟩ := hclass.toReachesClass.exists_body
  have hfits := fits_of_named hclass hbody hname
  rcases findSome?_visitedFrom hclass.toReachesClass hbody with
    ⟨hnone, -⟩ | ⟨other, found, hfirst, hfault⟩
  · exact absurd h.toOffends (hnone position node)
  · obtain rfl := h.unique hfirst
    rw [hfault] at hfits
    exact hfits.eq_error

/-- The result of a drive, each with what leads to it. -/
inductive Concludes (tree : Tree) : Except Fault (Option ClassGraph) → Prop
  | noClass (hclass : ∀ c, ¬ tree.ReachesClass c) : Concludes tree (.ok none)
  | noName {c : List Nat} (hclass : tree.IsClassAt c) (hname : tree.nameAt? c = none) :
      Concludes tree (.error .missingClassName)
  | noSignature {c : List Nat} {position : (List Nat × List Nat) × List Nat} {node : Tree}
      (hclass : tree.IsClassAt c) (hname : tree.nameAt? c ≠ none)
      (hfirst : tree.OffendsFirst c position node) :
      Concludes tree (.error (.missingSignature node.kind))
  | graph {c : List Nat} (hclass : tree.IsClassAt c) (hname : tree.nameAt? c ≠ none)
      (hclear : ∀ position node, ¬ tree.Offends c position node) (graph : ClassGraph) :
      Concludes tree (.ok (some graph))

/-- The outcome is told by what is reached and what is missing. -/
theorem concludes (tree : Tree) : tree.Concludes tree.classGraph? := by
  by_cases hreaches : ∃ c, tree.ReachesClass c
  · obtain ⟨c, hreaches⟩ := hreaches
    obtain ⟨c, hclass⟩ := hreaches.exists_isClassAt
    by_cases hname : tree.nameAt? c = none
    · rw [classGraph?_of_nameless hclass hname]
      exact .noName hclass hname
    · obtain ⟨body, hbody⟩ := hclass.toReachesClass.exists_body
      rcases findSome?_visitedFrom hclass.toReachesClass hbody with
        ⟨hclear, -⟩ | ⟨position, node, hfirst, -⟩
      · obtain ⟨graph, hgraph⟩ := exists_graph_of_forall_not_offends hclass hname hclear
        rw [hgraph]
        exact .graph hclass hname hclear graph
      · rw [classGraph?_of_offendsFirst hclass hname hfirst]
        exact .noSignature hclass hname hfirst
  · rw [not_exists] at hreaches
    rw [classGraph?_of_not_reachesClass hreaches]
    exact .noClass hreaches

/-- When a drive ends in which way. -/
structure Outcomes (tree : Tree) : Prop where
  /-- There is no graph if no type is reached through compilation units. -/
  none_iff : tree.classGraph? = .ok none ↔ ∀ c, ¬ tree.ReachesClass c
  /-- The name is missing if the first of these types has none. -/
  missingClassName_iff : tree.classGraph? = .error .missingClassName ↔
    ∃ c, tree.IsClassAt c ∧ tree.nameAt? c = none
  /-- Otherwise a signature is missing if a visit is at a method or a call without one. -/
  exists_missingSignature_iff : (∃ kind, tree.classGraph? = .error (.missingSignature kind)) ↔
    ∃ c, tree.IsClassAt c ∧ tree.nameAt? c ≠ none ∧ ∃ position node, tree.Offends c position node
  /-- The kind is that of the first one. -/
  missingSignature_iff : ∀ kind, tree.classGraph? = .error (.missingSignature kind) ↔
    ∃ c, tree.IsClassAt c ∧ tree.nameAt? c ≠ none ∧
      ∃ position node, tree.OffendsFirst c position node ∧ node.kind = kind
  /-- In all other cases there is a graph. -/
  graph_iff : (∃ graph, tree.classGraph? = .ok (some graph)) ↔
    ∃ c, tree.IsClassAt c ∧ tree.nameAt? c ≠ none ∧
      ∀ position node, ¬ tree.Offends c position node
  /-- Nothing else goes wrong: the cursor is never led past its root or left with open nodes. -/
  fault : ∀ fault, tree.classGraph? = .error fault →
    fault = .missingClassName ∨ ∃ kind, fault = .missingSignature kind
  /-- What the nodes contain that are passed over does not matter. -/
  skim : tree.skim.classGraph? = tree.classGraph?

/-- **A drive fails exactly on what is wrong where it comes.** -/
theorem outcomes (tree : Tree) : tree.Outcomes := by
  have hconcludes := tree.concludes
  refine ⟨⟨fun h => ?_, classGraph?_of_not_reachesClass⟩, ⟨fun h => ?_, ?_⟩, ⟨?_, ?_⟩,
    fun kind => ⟨fun h => ?_, ?_⟩, ⟨?_, ?_⟩, fun fault h => ?_,
    congrArg Logged.result tree.drive_skim⟩
  · rw [h] at hconcludes
    cases hconcludes with
    | noClass hclass => exact hclass
  · rw [h] at hconcludes
    cases hconcludes with
    | noName hclass hname => exact ⟨_, hclass, hname⟩
  · rintro ⟨c, hclass, hname⟩
    exact classGraph?_of_nameless hclass hname
  · rintro ⟨kind, h⟩
    rw [h] at hconcludes
    cases hconcludes with
    | noSignature hclass hname hfirst => exact ⟨_, hclass, hname, _, _, hfirst.toOffends⟩
  · rintro ⟨c, hclass, hname, position, node, hoffends⟩
    obtain ⟨first, found, hfirst⟩ := hoffends.exists_first hclass.toReachesClass
    exact ⟨_, classGraph?_of_offendsFirst hclass hname hfirst⟩
  · rw [h] at hconcludes
    cases hconcludes with
    | noSignature hclass hname hfirst => exact ⟨_, hclass, hname, _, _, hfirst, rfl⟩
  · rintro ⟨c, hclass, hname, position, node, hfirst, rfl⟩
    exact classGraph?_of_offendsFirst hclass hname hfirst
  · rintro ⟨graph, h⟩
    rw [h] at hconcludes
    cases hconcludes with
    | graph hclass hname hclear => exact ⟨_, hclass, hname, hclear⟩
  · rintro ⟨c, hclass, hname, hclear⟩
    exact exists_graph_of_forall_not_offends hclass hname hclear
  · rw [h] at hconcludes
    cases hconcludes with
    | noName => exact Or.inl rfl
    | noSignature => exact Or.inr ⟨_, rfl⟩

end Tree

end CodeGraph
