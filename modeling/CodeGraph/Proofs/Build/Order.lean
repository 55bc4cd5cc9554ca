/-
# The order of the methods

The methods of a tree are their declarations, one by one (`Tree.translates_of_classGraph?`).  None is
lost, doubled or out of order (`Tree.exists_places`): the methods of the graph are the members of the
class in document order, each followed by the methods nested in it, level by level.
-/
import CodeGraph.Proofs.Build.Faithful
import CodeGraph.Proofs.Build.Members

namespace CodeGraph

namespace Tree

/-! ## Places of methods -/

/-- A member of the class at the first address, and a method in it, not under a type, at the second
one: the member itself if this is empty. -/
def IsPlace (tree : Tree) (c : List Nat) (place : List Nat × List Nat) : Prop :=
  tree.IsMemberAt c place.1 ∧
    ∃ member method, tree.at? place.1 = some member ∧ member.HasMethod place.2 method

/-- Members come in document order, and the methods of a member by nesting and document order. -/
def PlaceBefore (tree : Tree) (place other : List Nat × List Nat) : Prop :=
  place.1 < other.1 ∨ place.1 = other.1 ∧
    ∃ member, tree.at? place.1 = some member ∧ member.NestedBefore place.2 other.2

/-- All places of methods, with the methods. -/
def placesFrom (tree : Tree) (c : List Nat) (body : Tree) :
    List ((List Nat × List Nat) × Tree) :=
  (tree.membersFrom c body).flatMap fun (d, member) =>
    member.placesIn.map fun (below, method) => ((d, below), method)

variable {tree : Tree} {c : List Nat} {body : Tree}

theorem IsMemberAt.kind_eq {d : List Nat} {member : Tree} (h : tree.IsMemberAt c d)
    (hmember : tree.at? d = some member) : member.kind = .methodDeclaration := by
  obtain ⟨found, hfound, hkind⟩ := kindAt?_eq_some.mp h.kind
  obtain rfl := Option.some.inj (hmember.symm.trans hfound)
  exact hkind

/-- The methods are listed with the member and the address below it. -/
theorem mem_placesFrom (hclass : tree.ReachesClass c) (hbody : tree.at? c = some body)
    {d below : List Nat} {method : Tree} :
    ((d, below), method) ∈ tree.placesFrom c body ↔ tree.IsMemberAt c d ∧
      ∃ member, tree.at? d = some member ∧ member.HasMethod below method := by
  simp only [placesFrom, List.mem_flatMap, List.mem_map, Prod.exists, Prod.mk.injEq]
  constructor
  · rintro ⟨d, member, hmember, below, method, hmethod, ⟨rfl, rfl⟩, rfl⟩
    obtain ⟨hfound, hd⟩ := (mem_membersFrom hclass hbody).mp hmember
    exact ⟨hd, member, hfound, (mem_placesIn (hd.kind_eq hfound)).mp hmethod⟩
  · rintro ⟨hd, member, hfound, hmethod⟩
    exact ⟨d, member, (mem_membersFrom hclass hbody).mpr ⟨hfound, hd⟩, below, method,
      (mem_placesIn (hd.kind_eq hfound)).mpr hmethod, ⟨rfl, rfl⟩, rfl⟩

/-- What is listed at a place of a method is the method there. -/
theorem at?_of_mem_placesFrom (hclass : tree.ReachesClass c) (hbody : tree.at? c = some body)
    {place : List Nat × List Nat} {method : Tree} (h : (place, method) ∈ tree.placesFrom c body) :
    tree.IsPlace c place ∧ tree.at? (place.1 ++ place.2) = some method := by
  obtain ⟨hd, member, hmember, hmethod⟩ := (mem_placesFrom hclass hbody).mp h
  refine ⟨⟨hd, member, method, hmember, hmethod⟩, ?_⟩
  rw [at?_append, hmember]
  exact hmethod.found

/-- The places come in order. -/
theorem pairwise_placesFrom (hclass : tree.ReachesClass c) (hbody : tree.at? c = some body) :
    ((tree.placesFrom c body).map Prod.fst).Pairwise tree.PlaceBefore := by
  rw [placesFrom, List.map_flatMap, List.pairwise_flatMap]
  constructor
  · rintro ⟨d, member⟩ hmem
    obtain ⟨hfound, hd⟩ := (mem_membersFrom hclass hbody).mp hmem
    have hnested := pairwise_placesIn (hd.kind_eq hfound)
    rw [List.map_map]
    rw [List.pairwise_map] at hnested ⊢
    exact hnested.imp fun hbefore => Or.inr ⟨rfl, member, hfound, hbefore⟩
  · have hmembers := List.pairwise_map.mp (pairwise_membersFrom hclass hbody)
    refine hmembers.imp fun {first later} hlt x hx y hy => Or.inl ?_
    obtain ⟨p, hp, rfl⟩ := List.mem_map.mp hx
    obtain ⟨q, hq, rfl⟩ := List.mem_map.mp hy
    obtain ⟨place, -, rfl⟩ := List.mem_map.mp hp
    obtain ⟨other, -, rfl⟩ := List.mem_map.mp hq
    exact hlt

/-- Different places are different methods of the tree. -/
theorem append_ne_of_placeBefore {place other : List Nat × List Nat} (hplace : tree.IsPlace c place)
    (hother : tree.IsPlace c other) (h : tree.PlaceBefore place other) :
    place.1 ++ place.2 ≠ other.1 ++ other.2 := by
  -- members do not contain each other, and nested methods of one member differ below it
  rcases h with hlt | ⟨heq, member, -, hlt | ⟨-, hlt⟩⟩
  · have hapart : ¬ place.1 <+: other.1 := fun hway =>
      ne_of_lt hlt (hplace.1.eq_of_isPrefix hother.1 hway)
    exact ne_of_lt (append_lt_append_of_lt hlt hapart place.2 other.2)
  · intro hsame
    rw [heq, List.append_cancel_left_eq] at hsame
    rw [hsame] at hlt
    exact Nat.lt_irrefl _ hlt
  · intro hsame
    rw [heq, List.append_cancel_left_eq] at hsame
    exact ne_of_lt hlt hsame

/-- No two places are the same address of the tree. -/
theorem nodup_placesFrom (hclass : tree.ReachesClass c) (hbody : tree.at? c = some body) :
    ((tree.placesFrom c body).map fun entry => entry.1.1 ++ entry.1.2).Nodup := by
  have hpairwise := List.pairwise_map.mp (pairwise_placesFrom hclass hbody)
  refine List.pairwise_map.mpr (hpairwise.imp_of_mem fun {entry other} hentry hother hbefore => ?_)
  exact append_ne_of_placeBefore (at?_of_mem_placesFrom hclass hbody hentry).1
    (at?_of_mem_placesFrom hclass hbody hother).1 hbefore

/-- The methods at the places are the members, each with those nested in it behind it. -/
theorem map_placesFrom (tree : Tree) (c : List Nat) (body : Tree) :
    (tree.placesFrom c body).map Prod.snd =
      ((tree.membersFrom c body).map Prod.snd).flatMap methods := by
  rw [placesFrom, List.map_flatMap, List.flatMap_map]
  refine List.flatMap_congr fun entry _ => ?_
  rw [List.map_map]
  exact map_placesIn entry.2

/-! ## No method is lost, doubled or out of order -/

/-- If a tree gives the graph of a class, then the methods of the graph are the methods at the
places, one by one. -/
theorem exists_placesFrom {graph : ClassGraph} (h : tree.classGraph? = .ok (some graph)) :
    ∃ c body, tree.IsClassAt c ∧ tree.at? c = some body ∧
      tree.declarations = (tree.placesFrom c body).map Prod.snd ∧
      List.Forall₂ (fun declaration method => method.Translates declaration) tree.declarations
        graph.methods := by
  obtain ⟨name, builder, hbuilds, rfl, hbegun⟩ := exists_of_classGraph? h
  obtain ⟨c, body, hclass, hbody, hmethods⟩ := exists_members hbegun
  refine ⟨c, body, hclass, hbody, ?_,
    hbuilds.translates_build fun _ hmem => kind_of_mem_declarations hmem⟩
  rw [declarations, Finding.declarations_eq, hmethods, map_placesFrom]

/-- **The methods of a tree are their declarations, one by one.**  If a tree gives the graph of a
class, then each declaration that is built stands at an address of its own in the tree and gives one
method, and the method is what is left of the declaration when the methods and types in it are taken
out. -/
theorem translates_of_classGraph? {graph : ClassGraph}
    (h : tree.classGraph? = .ok (some graph)) :
    (∃ addresses : List (List Nat), addresses.Nodup ∧
      List.Forall₂ (fun address declaration => tree.at? address = some declaration) addresses
        tree.declarations) ∧
    List.Forall₂ (fun declaration method => method.Translates declaration) tree.declarations
      graph.methods := by
  obtain ⟨c, body, hclass, hbody, hdeclarations, htranslates⟩ := exists_placesFrom h
  refine ⟨⟨_, nodup_placesFrom hclass.toReachesClass hbody, ?_⟩, htranslates⟩
  rw [hdeclarations, List.forall₂_map_left_iff, List.forall₂_map_right_iff]
  refine List.forall₂_same.mpr fun entry hentry => ?_
  exact (at?_of_mem_placesFrom hclass.toReachesClass hbody hentry).2

/-- Of the three methods in the tree the two that are not in a type within the class are built, the
outer one first. -/
theorem translates_nestingTree :
    nestingTree.classGraph? = .ok (some nestingGraph) ∧
    [[0, 0], [0, 0, 0]].map nestingTree.at? = nestingTree.declarations.map some ∧
    nestingTree.declarations.map Tree.signature = [some "f:0", some "g:0"] ∧
    List.Forall₂ (fun declaration method => method.Translates declaration)
      nestingTree.declarations nestingGraph.methods :=
  ⟨classGraph?_nestingTree, by decide +kernel, by decide +kernel,
    (translates_of_classGraph? classGraph?_nestingTree).2⟩

/-- **The methods of a tree are in order.**  If a tree gives the graph of a class, then the methods of
the graph come from exactly the places of methods in the tree: members of the class in document
order, the methods nested in each of them behind it by nesting and then by document order, and no
method twice. -/
theorem exists_places {graph : ClassGraph} (h : tree.classGraph? = .ok (some graph)) :
    ∃ c places, tree.IsClassAt c ∧ (∀ place, place ∈ places ↔ tree.IsPlace c place) ∧
      places.Pairwise tree.PlaceBefore ∧ (places.map fun place => place.1 ++ place.2).Nodup ∧
      List.Forall₂ (fun place method => ∃ declaration,
        tree.at? (place.1 ++ place.2) = some declaration ∧ method.Translates declaration)
        places graph.methods := by
  obtain ⟨c, body, hclass, hbody, hdeclarations, htranslates⟩ := exists_placesFrom h
  have hreaches := hclass.toReachesClass
  have hmem : ∀ place, place ∈ (tree.placesFrom c body).map Prod.fst ↔ tree.IsPlace c place := by
    rintro ⟨d, below⟩
    rw [List.mem_map]
    constructor
    · rintro ⟨⟨place, method⟩, hmem, heq⟩
      cases heq
      exact (at?_of_mem_placesFrom hreaches hbody hmem).1
    · rintro ⟨hd, member, method, hmember, hmethod⟩
      exact ⟨((d, below), method),
        (mem_placesFrom hreaches hbody).mpr ⟨hd, member, hmember, hmethod⟩, rfl⟩
  have hfound : ∀ entry ∈ tree.placesFrom c body,
      tree.at? (entry.1.1 ++ entry.1.2) = some entry.2 :=
    fun entry hentry => (at?_of_mem_placesFrom hreaches hbody hentry).2
  rw [hdeclarations, List.forall₂_map_left_iff] at htranslates
  refine ⟨c, (tree.placesFrom c body).map Prod.fst, hclass, hmem,
    pairwise_placesFrom hreaches hbody, ?_, ?_⟩
  · rw [List.map_map]
    exact nodup_placesFrom hreaches hbody
  · refine List.forall₂_map_left_iff.mpr ?_
    exact ((List.forall₂_and_left _ _).mpr ⟨hfound, htranslates⟩).imp
      fun entry _ hentry => ⟨entry.2, hentry.1, hentry.2⟩

/-- The places of the two methods that are built. -/
theorem exists_places_nestingTree : ∃ graph, nestingTree.classGraph? = .ok (some graph) ∧
    ∃ c places, nestingTree.IsClassAt c ∧ (∀ place, place ∈ places ↔ nestingTree.IsPlace c place) ∧
      places.Pairwise nestingTree.PlaceBefore ∧
      (places.map fun place => place.1 ++ place.2).Nodup ∧
      List.Forall₂ (fun place method => ∃ declaration,
        nestingTree.at? (place.1 ++ place.2) = some declaration ∧ method.Translates declaration)
        places graph.methods := by
  exact ⟨nestingGraph, classGraph?_nestingTree, exists_places classGraph?_nestingTree⟩

end Tree

end CodeGraph
