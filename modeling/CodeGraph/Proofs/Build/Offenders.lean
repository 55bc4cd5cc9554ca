/-
# Methods and calls without a signature

The work on the methods of a class visits each method and, in document order, what it contains
outside of nested methods and of types.  `Tree.visitedFrom` lists the visits; the drive ends with the
fault of the first one at a method or a call without a signature (`Tree.findSome?_visitedFrom`).
-/
import CodeGraph.Proofs.Build.Faults
import CodeGraph.Proofs.Build.Order
import CodeGraph.Proofs.Tree.Entered

namespace CodeGraph

/-! ## Visits in one method -/

/-- What is visited in a method: neither the methods nor the types in it. -/
def Kind.isVisited (kind : Kind) : Bool := !(kind.isMethod || kind.isTypeDeclaration)

/-- Neither a method nor a type is visited as part of a body. -/
theorem Kind.isVisited_iff {kind : Kind} : kind.isVisited = true ↔
    kind ≠ .methodDeclaration ∧ kind.isTypeDeclaration = false := by
  rw [isVisited, Bool.not_eq_true', Bool.or_eq_false_iff, ← Bool.not_eq_true kind.isMethod,
    isMethod_iff]

/-- A method or a call: its signature is needed. -/
def Kind.needsSignature (kind : Kind) : Bool := kind = .methodDeclaration ∨ kind = .methodInvocation

/-- Methods and calls need a signature, and no others do. -/
theorem Kind.needsSignature_iff {kind : Kind} :
    kind.needsSignature = true ↔ kind = .methodDeclaration ∨ kind = .methodInvocation :=
  decide_eq_true_iff

/-- The fault of a node by itself, if its signature is needed and not there. -/
def Tree.ownFault? (node : Tree) : Option Fault :=
  if node.kind.needsSignature = true ∧ node.signature = none then some (.missingSignature node.kind)
  else none

/-- A node has a fault of its own if it lacks the signature that it needs. -/
theorem Tree.ownFault?_eq_some {node : Tree} {fault : Fault} : node.ownFault? = some fault ↔
    node.kind.needsSignature = true ∧ node.signature = none ∧
      fault = .missingSignature node.kind := by
  rw [ownFault?]
  split
  · next h =>
    rw [Option.some.injEq]
    exact ⟨fun heq => ⟨h.1, h.2, heq.symm⟩, fun h' => h'.2.2.symm⟩
  · next h => exact ⟨fun heq => (by cases heq), fun h' => absurd ⟨h'.1, h'.2.1⟩ h⟩

/-- The first fault of a script is that of the first node that is visited and has one. -/
theorem Forest.fault?_eq (forest : Forest) (k : Nat) : forest.fault? =
    (forest.entered Kind.isVisited k).findSome? fun visit => visit.2.ownFault? := by
  induction forest generalizing k with
  | nil => rfl
  | token text role rest ih => exact ih (k + 1)
  | node kind name signature children rest ihChildren ihRest =>
    have hplans := plans_script kind name signature children rest
    rw [fault?, entered]
    generalize (node kind name signature children rest).script = script at hplans
    cases hplans with
    | defer hkind =>
      subst hkind
      exact ihRest (k + 1)
    | passOver hmethod hkind =>
      have hvisited : ¬ kind.isVisited = true := fun h => by
        rw [(Kind.isVisited_iff.mp h).2] at hkind
        cases hkind
      rw [if_neg hvisited]
      exact ihRest (k + 1)
    | refuse hkind hsignature =>
      subst hkind hsignature
      rfl
    | enter hmethod hkind hcall =>
      have hown : Tree.ownFault? { kind, name, signature, children } = none := by
        rw [Tree.ownFault?, if_neg]
        rintro ⟨hneeds, hsignature⟩
        exact hcall hsignature ((Kind.needsSignature_iff.mp hneeds).resolve_left hmethod)
      rw [if_pos (Kind.isVisited_iff.mpr ⟨hmethod, hkind⟩), List.findSome?_append,
        List.findSome?_cons, List.findSome?_cons, hown, List.findSome?_map, List.findSome?_append]
      exact congrArg₂ Option.or (ihChildren 0) (ihRest (k + 1))

/-- The same for a method, which is visited itself. -/
theorem Tree.fault?_eq {declaration : Tree} (hkind : declaration.kind = .methodDeclaration) :
    declaration.fault? =
      (declaration.entered Kind.isVisited).findSome? fun visit => visit.2.ownFault? := by
  have hneeds : declaration.kind.needsSignature = true := Kind.needsSignature_iff.mpr (Or.inl hkind)
  rw [fault?, entered, List.findSome?_cons, ownFault?]
  cases declaration.signature with
  | none => rw [if_pos ⟨hneeds, rfl⟩]
  | some signature =>
    rw [if_neg fun h => (by cases h.2)]
    exact declaration.children.fault?_eq 0

/-! ## Visits in a class -/

namespace Tree

theorem ReachesClass.exists_body {tree : Tree} {c : List Nat} (h : tree.ReachesClass c) :
    ∃ body, tree.at? c = some body := by
  obtain ⟨body, hmeets⟩ := reachesClass_iff.mp h
  exact ⟨body, hmeets.found⟩

/-- A visit at the position: in the method at the place, the node at the address below is reached
without going into another method or a type. -/
structure Visits (tree : Tree) (c : List Nat) (position : (List Nat × List Nat) × List Nat)
    (node : Tree) : Prop where
  place : tree.IsPlace c position.1
  found : tree.at? (position.1.1 ++ position.1.2 ++ position.2) = some node
  way : ∀ e, e <+: position.2 → e ≠ [] → ∀ s,
    tree.at? (position.1.1 ++ position.1.2 ++ e) = some s →
      s.kind ≠ .methodDeclaration ∧ s.kind.isTypeDeclaration = false

/-- Visits come method by method, and in each method in document order. -/
def VisitBefore (tree : Tree) (position other : (List Nat × List Nat) × List Nat) : Prop :=
  tree.PlaceBefore position.1 other.1 ∨ position.1 = other.1 ∧ position.2 < other.2

theorem nestedBefore_asymm {tree : Tree} {address other : List Nat}
    (h : tree.NestedBefore address other) : ¬ tree.NestedBefore other address := by
  rintro (hgt | ⟨heq, hgt⟩)
  · rcases h with hlt | ⟨heq, -⟩
    · exact Nat.lt_asymm hlt hgt
    · exact Nat.ne_of_lt hgt heq.symm
  · rcases h with hlt | ⟨-, hlt⟩
    · exact Nat.ne_of_lt hlt heq.symm
    · exact lt_asymm hlt hgt

theorem placeBefore_asymm {tree : Tree} {place other : List Nat × List Nat}
    (h : tree.PlaceBefore place other) : ¬ tree.PlaceBefore other place := by
  rintro (hgt | ⟨heq, member, hmember, hgt⟩)
  · rcases h with hlt | ⟨heq, -⟩
    · exact lt_asymm hlt hgt
    · exact ne_of_lt hgt heq.symm
  · rcases h with hlt | ⟨-, member', hmember', hlt⟩
    · exact ne_of_lt hlt heq.symm
    · rw [heq, hmember', Option.some.injEq] at hmember
      exact nestedBefore_asymm (hmember ▸ hlt) hgt

theorem visitBefore_asymm {tree : Tree} {position other : (List Nat × List Nat) × List Nat}
    (h : tree.VisitBefore position other) : ¬ tree.VisitBefore other position := by
  rintro (hgt | ⟨heq, hgt⟩)
  · rcases h with hlt | ⟨heq, -⟩
    · exact placeBefore_asymm hlt hgt
    · rw [heq] at hgt
      exact placeBefore_asymm hgt hgt
  · rcases h with hlt | ⟨-, hlt⟩
    · rw [heq] at hlt
      exact placeBefore_asymm hlt hlt
    · exact lt_asymm hlt hgt

/-- All visits, with the nodes. -/
def visitedFrom (tree : Tree) (c : List Nat) (body : Tree) :
    List (((List Nat × List Nat) × List Nat) × Tree) :=
  (tree.placesFrom c body).flatMap fun (place, method) =>
    (method.entered Kind.isVisited).map fun (below, node) => ((place, below), node)

variable {tree : Tree} {c : List Nat} {body : Tree}

/-- A visit in a method is a walk from there. -/
theorem visits_iff {place : List Nat × List Nat} {below : List Nat} {node method : Tree}
    (hplace : tree.IsPlace c place) (hmethod : tree.at? (place.1 ++ place.2) = some method) :
    tree.Visits c (place, below) node ↔ method.Enters Kind.isVisited below node := by
  have hat : ∀ e, tree.at? (place.1 ++ place.2 ++ e) = method.at? e := by
    intro e
    rw [at?_append, hmethod, Option.bind_some]
  constructor
  · intro h
    exact ⟨(hat below).symm.trans h.found, fun e he hnil s hs =>
      Kind.isVisited_iff.mpr (h.way e he hnil s ((hat e).trans hs))⟩
  · intro h
    exact ⟨hplace, (hat below).trans h.found, fun e he hnil s hs =>
      Kind.isVisited_iff.mp (h.way e he hnil s ((hat e).symm.trans hs))⟩

/-- The nodes that are visited are listed with their positions. -/
theorem mem_visitedFrom (hclass : tree.ReachesClass c) (hbody : tree.at? c = some body)
    {position : (List Nat × List Nat) × List Nat} {node : Tree} :
    (position, node) ∈ tree.visitedFrom c body ↔ tree.Visits c position node := by
  obtain ⟨place, below⟩ := position
  simp only [visitedFrom, List.mem_flatMap, List.mem_map, Prod.exists, Prod.mk.injEq]
  constructor
  · rintro ⟨d, nested, method, hmem, below, node, hnode, ⟨rfl, rfl⟩, rfl⟩
    obtain ⟨hplace, hmethod⟩ := at?_of_mem_placesFrom hclass hbody hmem
    exact (visits_iff hplace hmethod).mpr (mem_entered.mp hnode)
  · intro h
    obtain ⟨hd, member, method, hmember, hmethod⟩ := h.place
    have hmem := (mem_placesFrom hclass hbody).mpr ⟨hd, member, hmember, hmethod⟩
    have hfound := (at?_of_mem_placesFrom hclass hbody hmem).2
    exact ⟨place.1, place.2, method, hmem, below, node,
      mem_entered.mpr ((visits_iff h.place hfound).mp h), ⟨rfl, rfl⟩, rfl⟩

/-- The visits are listed in the order in which they are made. -/
theorem pairwise_visitedFrom (hclass : tree.ReachesClass c) (hbody : tree.at? c = some body) :
    ((tree.visitedFrom c body).map Prod.fst).Pairwise tree.VisitBefore := by
  rw [visitedFrom, List.map_flatMap, List.pairwise_flatMap]
  constructor
  · rintro ⟨place, method⟩ -
    have hwalk : ((method.entered Kind.isVisited).map Prod.fst).Pairwise (· < ·) :=
      method.pairwise_entered
    rw [List.map_map]
    rw [List.pairwise_map] at hwalk ⊢
    exact hwalk.imp fun hlt => Or.inr ⟨rfl, hlt⟩
  · have hplaces := List.pairwise_map.mp (pairwise_placesFrom hclass hbody)
    refine hplaces.imp fun {first later} hbefore x hx y hy => Or.inl ?_
    obtain ⟨p, hp, rfl⟩ := List.mem_map.mp hx
    obtain ⟨q, hq, rfl⟩ := List.mem_map.mp hy
    obtain ⟨visit, -, rfl⟩ := List.mem_map.mp hp
    obtain ⟨other, -, rfl⟩ := List.mem_map.mp hq
    exact hbefore

/-- The methods that are built are visited in this order. -/
theorem findSome?_fault?_placesFrom (hclass : tree.ReachesClass c) (hbody : tree.at? c = some body) :
    ((tree.placesFrom c body).map Prod.snd).findSome? fault? =
      (tree.visitedFrom c body).findSome? fun visit => visit.2.ownFault? := by
  have hkind : ∀ entry ∈ tree.placesFrom c body, entry.2.kind = .methodDeclaration := by
    rintro ⟨⟨d, below⟩, method⟩ hentry
    obtain ⟨-, member, -, hmethod⟩ := (mem_placesFrom hclass hbody).mp hentry
    exact hmethod.kind_eq
  rw [visitedFrom]
  generalize tree.placesFrom c body = places at hkind
  induction places with
  | nil => rfl
  | cons entry places ih =>
    have hhere := fault?_eq (hkind entry List.mem_cons_self)
    have hlater := ih fun other hother => hkind other (List.mem_cons_of_mem entry hother)
    rw [List.map_cons, List.findSome?_cons, List.flatMap_cons, List.findSome?_append, hlater, hhere,
      List.findSome?_map]
    cases hown : (entry.2.entered Kind.isVisited).findSome? fun visit => visit.2.ownFault? with
    | none => exact congrArg (Option.or · _) hown.symm
    | some fault => exact congrArg (Option.or · _) hown.symm

/-! ## The first offender -/

/-- A visit at a method or a call without a signature. -/
structure Offends (tree : Tree) (c : List Nat) (position : (List Nat × List Nat) × List Nat)
    (node : Tree) : Prop extends tree.Visits c position node where
  needed : node.kind = .methodDeclaration ∨ node.kind = .methodInvocation
  unsigned : node.signature = none

/-- The first of these visits. -/
structure OffendsFirst (tree : Tree) (c : List Nat) (position : (List Nat × List Nat) × List Nat)
    (node : Tree) : Prop extends tree.Offends c position node where
  first : ∀ other found, tree.Offends c other found →
    other = position ∨ tree.VisitBefore position other

/-- A node offends if it is visited and lacks its signature. -/
theorem offends_iff {position : (List Nat × List Nat) × List Nat} {node : Tree} :
    tree.Offends c position node ↔
      tree.Visits c position node ∧ node.ownFault? = some (.missingSignature node.kind) := by
  rw [ownFault?_eq_some, Kind.needsSignature_iff]
  exact ⟨fun h => ⟨h.toVisits, h.needed, h.unsigned, rfl⟩, fun ⟨hvisits, hneeded, hunsigned, _⟩ =>
    ⟨hvisits, hneeded, hunsigned⟩⟩

/-- **The first fault of all visits is that of the first offender.** -/
theorem findSome?_visitedFrom (hclass : tree.ReachesClass c) (hbody : tree.at? c = some body) :
    ((∀ position node, ¬ tree.Offends c position node) ∧
        (tree.visitedFrom c body).findSome? (fun visit => visit.2.ownFault?) = none) ∨
      ∃ position node, tree.OffendsFirst c position node ∧
        (tree.visitedFrom c body).findSome? (fun visit => visit.2.ownFault?) =
          some (.missingSignature node.kind) := by
  rcases hfind : (tree.visitedFrom c body).findSome? fun visit => visit.2.ownFault? with _ | fault
  · refine Or.inl ⟨fun position node h => ?_, hfind⟩
    have hnone := List.findSome?_eq_none_iff.mp hfind (position, node)
      ((mem_visitedFrom hclass hbody).mpr h.toVisits)
    rw [(offends_iff.mp h).2] at hnone
    cases hnone
  · obtain ⟨before, ⟨position, node⟩, after, hsplit, hfault, hbefore⟩ :=
      List.findSome?_eq_some_iff.mp hfind
    obtain ⟨-, -, rfl⟩ := ownFault?_eq_some.mp hfault
    have hvisits : tree.Visits c position node := by
      rw [← mem_visitedFrom hclass hbody, hsplit]
      exact List.mem_append_right _ List.mem_cons_self
    have hsorted := pairwise_visitedFrom hclass hbody
    rw [hsplit, List.map_append, List.map_cons] at hsorted
    refine Or.inr ⟨position, node, ⟨offends_iff.mpr ⟨hvisits, hfault⟩, fun other found h => ?_⟩,
      hfind⟩
    -- before the first fault nothing offends, and behind it all visits come later
    have hmem : (other, found) ∈ before ++ (position, node) :: after := by
      rw [← hsplit]
      exact (mem_visitedFrom hclass hbody).mpr h.toVisits
    rcases List.mem_append.mp hmem with hmem | hmem
    · have hnone := hbefore (other, found) hmem
      rw [(offends_iff.mp h).2] at hnone
      cases hnone
    · rcases List.mem_cons.mp hmem with heq | hmem
      · exact Or.inl (congrArg Prod.fst heq)
      · exact Or.inr (List.rel_of_pairwise_cons (List.pairwise_append.mp hsorted).2.1
          (List.mem_map_of_mem hmem))

/-- If a node offends, one of them is the first. -/
theorem Offends.exists_first {position : (List Nat × List Nat) × List Nat} {node : Tree}
    (h : tree.Offends c position node) (hclass : tree.ReachesClass c) :
    ∃ first found, tree.OffendsFirst c first found := by
  obtain ⟨body, hbody⟩ := hclass.exists_body
  rcases findSome?_visitedFrom hclass hbody with ⟨hnone, -⟩ | ⟨first, found, hfirst, -⟩
  · exact absurd h (hnone position node)
  · exact ⟨first, found, hfirst⟩

/-- There is only one first offender. -/
theorem OffendsFirst.unique {position other : (List Nat × List Nat) × List Nat} {node found : Tree}
    (h : tree.OffendsFirst c position node) (hother : tree.OffendsFirst c other found) :
    found = node := by
  have heq : other = position := by
    rcases h.first other found hother.toOffends with heq | hlt
    · exact heq
    · exact (hother.first position node h.toOffends).elim Eq.symm fun hgt =>
        absurd hlt (visitBefore_asymm hgt)
  subst heq
  exact Option.some.inj (hother.found.symm.trans h.found)

end Tree

end CodeGraph
