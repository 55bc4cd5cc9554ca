/-
# Methods outside of the class

A method in front of the class is passed over, but one behind it with nothing but compilation units
above it (`Tree.IsStrayAt`) is built as if it stood in the class.  These methods and those nested in
them are all of the graph that does not come from the class (`Tree.exists_origins`).
-/
import CodeGraph.Proofs.Build.Order

namespace CodeGraph

namespace Tree

/-- A method that is outside of the class and built all the same. -/
structure IsStrayAt (tree : Tree) (c d : List Nat) : Prop where
  kind : tree.kindAt? d = some .methodDeclaration
  behind : c < d
  outside : ¬ c <+: d
  above : ∀ e, e <+: d → e ≠ d → tree.kindAt? e = some .compilationUnit

variable {tree : Tree} {c d : List Nat}

/-- The stray methods are the members that do not stand in the class. -/
theorem isStrayAt_iff : tree.IsStrayAt c d ↔ tree.IsMemberAt c d ∧ ¬ c <+: d := by
  constructor
  · intro h
    exact ⟨⟨h.kind, h.behind, fun e he hne => Or.inr (h.above e he hne)⟩, h.outside⟩
  · rintro ⟨hmember, houtside⟩
    refine ⟨hmember.kind, hmember.behind, houtside, fun e he hne => ?_⟩
    exact (hmember.above e he hne).resolve_left fun hec => houtside (hec ▸ he)

/-! ## Origins -/

/-- The addresses of the methods that a class is built from. -/
def originsFrom (tree : Tree) (c : List Nat) (body : Tree) : List (List Nat) :=
  (tree.placesFrom c body).map fun (place, _) => place.1 ++ place.2

variable {body : Tree}

/-- A method of the class is a member or nested in one. -/
theorem mem_originsFrom (hclass : tree.ReachesClass c) (hbody : tree.at? c = some body)
    {origin : List Nat} :
    origin ∈ tree.originsFrom c body ↔ ∃ d below member method, origin = d ++ below ∧
      tree.IsMemberAt c d ∧ tree.at? d = some member ∧ member.HasMethod below method := by
  rw [originsFrom, List.mem_map]
  constructor
  · rintro ⟨⟨⟨d, below⟩, method⟩, hmem, rfl⟩
    obtain ⟨hd, member, hmember, hmethod⟩ := (mem_placesFrom hclass hbody).mp hmem
    exact ⟨d, below, member, method, rfl, hd, hmember, hmethod⟩
  · rintro ⟨d, below, member, method, rfl, hd, hmember, hmethod⟩
    exact ⟨((d, below), method),
      (mem_placesFrom hclass hbody).mpr ⟨hd, member, hmember, hmethod⟩, rfl⟩

/-- Every method that is built comes behind the beginning of the class. -/
theorem lt_of_mem_originsFrom (hclass : tree.ReachesClass c) (hbody : tree.at? c = some body)
    {origin : List Nat} (h : origin ∈ tree.originsFrom c body) : c < origin := by
  obtain ⟨d, below, -, -, rfl, hd, -, -⟩ := (mem_originsFrom hclass hbody).mp h
  by_cases hbelow : below = []
  · rw [hbelow, List.append_nil]
    exact hd.behind
  · exact lt_trans hd.behind (lt_append_of_ne_nil d hbelow)

/-- Every method that is built stands in the class or in a stray method. -/
theorem inside_or_stray_of_mem_originsFrom (hclass : tree.ReachesClass c)
    (hbody : tree.at? c = some body) {origin : List Nat} (h : origin ∈ tree.originsFrom c body) :
    c <+: origin ∨ ∃ d, tree.IsStrayAt c d ∧ d <+: origin := by
  obtain ⟨d, below, -, -, rfl, hd, -, -⟩ := (mem_originsFrom hclass hbody).mp h
  by_cases hinside : c <+: d
  · exact Or.inl (hinside.trans (List.prefix_append d below))
  · exact Or.inr ⟨d, isStrayAt_iff.mpr ⟨hd, hinside⟩, List.prefix_append d below⟩

/-- Every stray method is built. -/
theorem IsStrayAt.mem_originsFrom (hclass : tree.ReachesClass c) (hbody : tree.at? c = some body)
    (h : tree.IsStrayAt c d) : d ∈ tree.originsFrom c body := by
  have hd := (isStrayAt_iff.mp h).1
  obtain ⟨member, hmember, hkind⟩ := kindAt?_eq_some.mp h.kind
  refine (Tree.mem_originsFrom hclass hbody).mpr
    ⟨d, [], member, member, (List.append_nil d).symm, hd, hmember, rfl, hkind, fun e he s hs => ?_⟩
  obtain rfl := List.prefix_nil.mp he
  cases hs
  rw [hkind]
  rfl

theorem nodup_originsFrom (hclass : tree.ReachesClass c) (hbody : tree.at? c = some body) :
    (tree.originsFrom c body).Nodup := by
  have hplace : ∀ entry ∈ tree.placesFrom c body, tree.IsPlace c entry.1 := by
    rintro ⟨⟨d, below⟩, method⟩ hentry
    obtain ⟨hd, member, hmember, hmethod⟩ := (mem_placesFrom hclass hbody).mp hentry
    exact ⟨hd, member, method, hmember, hmethod⟩
  have hpairwise := List.pairwise_map.mp (pairwise_placesFrom hclass hbody)
  refine List.pairwise_map.mpr (hpairwise.imp_of_mem fun {entry other} hentry hother hbefore => ?_)
  exact append_ne_of_placeBefore (hplace entry hentry) (hplace other hother) hbefore

/-- The methods of a graph come from the origins in the tree, one from each. -/
theorem translates_originsFrom {graph : ClassGraph} (h : tree.classGraph? = .ok (some graph)) :
    ∃ c body, tree.IsClassAt c ∧ tree.at? c = some body ∧
      List.Forall₂ (fun origin method => ∃ declaration,
        tree.at? origin = some declaration ∧ method.Translates declaration)
        (tree.originsFrom c body) graph.methods := by
  obtain ⟨name, builder, hbuilds, rfl, hbegun⟩ := exists_of_classGraph? h
  obtain ⟨c, body, hclass, hbody, hmethods⟩ := exists_members hbegun
  have hdeclarations : tree.declarations = (tree.placesFrom c body).map Prod.snd := by
    rw [declarations, Finding.declarations_eq, hmethods, map_placesFrom]
  have htranslates := hbuilds.translates_build fun _ hdeclaration =>
    kind_of_mem_declarations hdeclaration
  rw [hdeclarations, List.forall₂_map_left_iff] at htranslates
  have hfound : ∀ entry ∈ tree.placesFrom c body,
      tree.at? (entry.1.1 ++ entry.1.2) = some entry.2 := by
    rintro ⟨⟨d, below⟩, method⟩ hentry
    obtain ⟨-, member, hmember, hmethod⟩ := (mem_placesFrom hclass.toReachesClass hbody).mp hentry
    rw [at?_append, hmember]
    exact hmethod.found
  refine ⟨c, body, hclass, hbody, List.forall₂_map_left_iff.mpr ?_⟩
  exact ((List.forall₂_and_left _ _).mpr ⟨hfound, htranslates⟩).imp
    fun entry _ hentry => ⟨entry.2, hentry.1, hentry.2⟩

/-- **Where the methods of a graph come from.**  Each method of the graph of a tree comes from a
method of the tree behind the beginning of the class, and no two from the same: from one in the
class, or from a stray method or one nested in it.  Every stray method is among them, so all methods
come from the class just if there is none. -/
theorem exists_origins {graph : ClassGraph} (h : tree.classGraph? = .ok (some graph)) :
    ∃ c origins, tree.IsClassAt c ∧
      List.Forall₂ (fun origin method => ∃ declaration,
        tree.at? origin = some declaration ∧ method.Translates declaration)
        origins graph.methods ∧
      origins.Nodup ∧ (∀ origin ∈ origins, c < origin) ∧
      (∀ origin ∈ origins, c <+: origin ∨ ∃ d, tree.IsStrayAt c d ∧ d <+: origin) ∧
      (∀ d, tree.IsStrayAt c d → d ∈ origins) ∧
      ((∀ origin ∈ origins, c <+: origin) ↔ ∀ d, ¬ tree.IsStrayAt c d) := by
  obtain ⟨c, body, hclass, hbody, htranslates⟩ := translates_originsFrom h
  have hreaches := hclass.toReachesClass
  refine ⟨c, tree.originsFrom c body, hclass, htranslates, nodup_originsFrom hreaches hbody,
    fun _ => lt_of_mem_originsFrom hreaches hbody,
    fun _ => inside_or_stray_of_mem_originsFrom hreaches hbody,
    fun _ hstray => hstray.mem_originsFrom hreaches hbody, ?_, ?_⟩
  · intro hinside d hstray
    exact hstray.outside (hinside d (hstray.mem_originsFrom hreaches hbody))
  · intro hnone origin horigin
    rcases inside_or_stray_of_mem_originsFrom hreaches hbody horigin with hinside | ⟨d, hstray, -⟩
    · exact hinside
    · exact absurd hstray (hnone d)

/-! ## A stray method -/

/-- A class without methods, between two methods that are outside of it. -/
def strayTree : Tree where
  kind := .compilationUnit
  children := .node .methodDeclaration none (some "g:0") .nil
    (.node .typeDeclaration (some "C") none .nil
      (.node .methodDeclaration none (some "f:0") .nil .nil))

/-- The graph of a class that has just the method that stands behind it. -/
def strayGraph : ClassGraph where
  name := "C"
  methods := [⟨"f:0", #[{ kind := .methodDeclaration }], #[], #[]⟩]
  vocabulary := #[]
  invocations := { callers := ["f:0"] }

theorem classGraph?_strayTree : strayTree.classGraph? = .ok (some strayGraph) :=
  eq_ok_of_toOption (by decide +kernel)

/-- Of two methods outside of a class, the one behind it is built and the one before it is not. -/
theorem exists_origins_strayTree : strayTree.classGraph? = .ok (some strayGraph) ∧
    ∃ c origins, strayTree.IsClassAt c ∧
      List.Forall₂ (fun origin method => ∃ declaration,
        strayTree.at? origin = some declaration ∧ method.Translates declaration)
        origins strayGraph.methods ∧
      origins.Nodup ∧ (∀ origin ∈ origins, c < origin) ∧
      (∀ origin ∈ origins, c <+: origin ∨ ∃ d, strayTree.IsStrayAt c d ∧ d <+: origin) ∧
      (∀ d, strayTree.IsStrayAt c d → d ∈ origins) ∧
      ((∀ origin ∈ origins, c <+: origin) ↔ ∀ d, ¬ strayTree.IsStrayAt c d) :=
  ⟨classGraph?_strayTree, exists_origins classGraph?_strayTree⟩

theorem eq_of_isClassAt_strayTree {c : List Nat} (h : strayTree.IsClassAt c) : c = [1] := by
  have hreaches : strayTree.ReachesClass [1] := by
    refine ⟨Or.inl rfl, fun e he hne => ?_⟩
    rcases List.prefix_cons_iff.mp he with rfl | ⟨below, rfl, hbelow⟩
    · rfl
    · exact absurd (congrArg _ (List.prefix_nil.mp hbelow)) hne
  rcases h.first [1] hreaches with heq | hlt
  · exact heq.symm
  · -- in front of the type are the compilation unit and the method, which has no children
    rcases c with _ | ⟨k, c⟩
    · rcases h.kind with hkind | hkind <;> cases hkind
    · rcases List.cons_lt_cons_iff.mp hlt with hk | ⟨-, hnil⟩
      · obtain rfl : k = 0 := Nat.lt_one_iff.mp hk
        rcases c with _ | ⟨j, c⟩ <;> rcases h.kind with hkind | hkind <;> cases hkind
      · exact absurd hnil (List.not_lt_nil c)

/-- The graph can have a method although there is none in the class. -/
theorem methods_strayGraph : strayTree.classGraph? = .ok (some strayGraph) ∧
    strayGraph.methods ≠ [] ∧
    ∀ c d, strayTree.IsClassAt c → c <+: d → strayTree.kindAt? d ≠ some .methodDeclaration := by
  refine ⟨classGraph?_strayTree, List.cons_ne_nil _ _, ?_⟩
  rintro _ _ hclass ⟨below, rfl⟩
  obtain rfl := eq_of_isClassAt_strayTree hclass
  cases below with
  | nil => decide
  | cons k below =>
    intro hkind
    cases hkind

end Tree

end CodeGraph
