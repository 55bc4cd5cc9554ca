/-
# Methods nested in a method

`Tree.methods` lists the methods nested in a declaration level by level, and each level in document
order: its addressed form `Tree.placesIn` holds exactly the methods that are under no type of the
declaration (`Tree.mem_placesIn`), ordered by how deeply they are nested
(`Tree.pairwise_placesIn`).
-/
import CodeGraph.Build.Outline
import CodeGraph.Proofs.Tree.Met

namespace CodeGraph

/-- A method declaration. -/
def Kind.isMethod (kind : Kind) : Bool := kind = .methodDeclaration

theorem Kind.isMethod_iff {kind : Kind} : kind.isMethod = true ↔ kind = .methodDeclaration :=
  decide_eq_true_iff

/-- What a method contains, as far as methods may be nested in it. -/
def Kind.holdsMethods (kind : Kind) : Bool := !kind.isTypeDeclaration

namespace Tree

/-- How many methods lie on the way to an address, the root among them. -/
def nesting (tree : Tree) : List Nat → Nat
  | [] => 0
  | k :: address => (if tree.kind = .methodDeclaration then 1 else 0) +
      ((tree.children.child? k).map (·.nesting address)).getD 0

/-- A method at an address that is under no type. -/
structure HasMethod (tree : Tree) (address : List Nat) (method : Tree) : Prop where
  found : tree.at? address = some method
  kind_eq : method.kind = .methodDeclaration
  clear : ∀ e, e <+: address → ∀ s, tree.at? e = some s → s.kind.isTypeDeclaration = false

/-! ## How deeply methods are nested -/

variable {tree : Tree}

/-- Below a method the nesting is deeper by one. -/
theorem nesting_cons {k : Nat} {child : Tree} (h : tree.children.child? k = some child)
    (address : List Nat) : tree.nesting (k :: address) =
      (if tree.kind = .methodDeclaration then 1 else 0) + child.nesting address := by
  rw [nesting, h]
  rfl

/-- The methods on the way are those on its parts. -/
theorem nesting_append {address : List Nat} {node : Tree} (h : tree.at? address = some node)
    (below : List Nat) :
    tree.nesting (address ++ below) = tree.nesting address + node.nesting below := by
  induction address generalizing tree with
  | nil =>
    cases h
    exact (Nat.zero_add _).symm
  | cons k address ih =>
    obtain ⟨child, hchild, h⟩ := Option.bind_eq_some_iff.mp h
    rw [List.cons_append, nesting_cons hchild, nesting_cons hchild, ih h, Nat.add_assoc]

/-- The nesting is no deeper than the address is long. -/
theorem nesting_le_length (tree : Tree) (address : List Nat) :
    tree.nesting address ≤ address.length := by
  induction address generalizing tree with
  | nil => exact Nat.le_refl 0
  | cons k address ih =>
    rw [nesting, List.length_cons]
    rcases hchild : tree.children.child? k with _ | child
    · show _ + 0 ≤ _
      split <;> omega
    · have hle := ih child
      show _ + child.nesting address ≤ _
      split <;> omega

/-- No method is on a way without nesting. -/
theorem kind_ne_of_nesting_eq_zero {address e : List Nat} (h : tree.nesting address = 0)
    (he : e <+: address)
    (hne : e ≠ address) {s : Tree} (hs : tree.at? e = some s) : s.kind ≠ .methodDeclaration := by
  obtain ⟨below, rfl⟩ := he
  rw [nesting_append hs] at h
  cases below with
  | nil => exact absurd (List.append_nil e).symm hne
  | cons k below =>
    intro hkind
    rw [nesting, if_pos hkind] at h
    omega

/-- A way has no nesting if no method is on it. -/
theorem nesting_eq_zero {address : List Nat} (h : ∀ e, e <+: address → e ≠ address →
    ∀ s, tree.at? e = some s → s.kind ≠ .methodDeclaration) : tree.nesting address = 0 := by
  induction address generalizing tree with
  | nil => rfl
  | cons k address ih =>
    rw [nesting, if_neg (h [] List.nil_prefix (List.cons_ne_nil k address).symm tree rfl)]
    rcases hchild : tree.children.child? k with _ | child
    · rfl
    · show 0 + child.nesting address = 0
      rw [Nat.zero_add]
      refine ih fun e he hne s hs => h (k :: e) (List.cons_prefix_cons.mpr ⟨rfl, he⟩)
        (fun heq => hne (List.cons.inj heq).2) s ?_
      rw [at?_cons, hchild]
      exact hs

/-- No method lies between a method and one that is met right below it. -/
theorem nesting_of_meetsBelow {address : List Nat} {node : Tree}
    (hkind : tree.kind = .methodDeclaration)
    (h : tree.MeetsBelow Kind.isMethod Kind.holdsMethods address node) :
    tree.nesting address = 1 := by
  obtain ⟨k, below, child, rfl, hchild, h⟩ := meetsBelow_iff.mp h
  rw [nesting_cons hchild, if_pos hkind, nesting_eq_zero fun e he hne s hs => ?_]
  exact of_decide_eq_false (h.above e he hne s hs).1

/-- On a way with nesting there is a last method. -/
theorem exists_last_method {n : Nat} {address : List Nat} {node : Tree}
    (h : tree.nesting address = n + 1) (hnode : tree.at? address = some node) :
    ∃ before below last, address = before ++ below ∧ below ≠ [] ∧ tree.at? before = some last ∧
      last.kind = .methodDeclaration ∧ tree.nesting before = n ∧
      ∀ e, e <+: below → e ≠ [] → e ≠ below → ∀ s, last.at? e = some s →
        s.kind ≠ .methodDeclaration := by
  induction address generalizing tree n with
  | nil => cases h
  | cons k address ih =>
    obtain ⟨child, hchild, hnode⟩ := Option.bind_eq_some_iff.mp hnode
    rw [nesting_cons hchild] at h
    rcases hnesting : child.nesting address with _ | m
    · -- the root is the last one
      rw [hnesting, Nat.add_zero] at h
      have hkind : tree.kind = .methodDeclaration := by
        by_contra hkind
        rw [if_neg hkind] at h
        cases h
      rw [if_pos hkind] at h
      obtain rfl : n = 0 := by omega
      refine ⟨[], k :: address, tree, rfl, List.cons_ne_nil k address, rfl, hkind, rfl,
        fun e he hnil hne s hs => ?_⟩
      cases e with
      | nil => exact absurd rfl hnil
      | cons j e =>
        obtain ⟨rfl, hway⟩ := List.cons_prefix_cons.mp he
        rw [at?_cons, hchild] at hs
        exact kind_ne_of_nesting_eq_zero hnesting hway (fun heq => hne (congrArg _ heq)) hs
    · obtain ⟨before, below, last, rfl, hnil, hlast, hkind, hbefore, hbetween⟩ := ih hnesting hnode
      refine ⟨k :: before, below, last, rfl, hnil, ?_, hkind, ?_, hbetween⟩
      · rw [at?_cons, hchild]
        exact hlast
      · rw [nesting_cons hchild, hbefore]
        omega

end Tree

/-! ## Levels with addresses -/

/-- What is nested are the methods that are met outside of types. -/
theorem Forest.map_met_eq_nested (forest : Forest) (k : Nat) :
    (forest.met Kind.isMethod Kind.holdsMethods k).map Prod.snd = forest.nested := by
  induction forest generalizing k with
  | nil => rfl
  | token text role rest ih => exact ih (k + 1)
  | node kind name signature children rest ihChildren ihRest =>
    rw [met, nested, List.map_append, ihRest (k + 1)]
    by_cases hmethod : kind = .methodDeclaration
    · rw [if_pos hmethod, if_pos (Kind.isMethod_iff.mpr hmethod)]
      rfl
    · rw [if_neg hmethod, if_neg (mt Kind.isMethod_iff.mp hmethod)]
      cases htype : kind.isTypeDeclaration with
      | true => rw [if_pos rfl, Kind.holdsMethods, htype]; rfl
      | false =>
        rw [if_neg Bool.false_ne_true, Kind.holdsMethods, htype]
        show ((children.met _ _ 0).map _).map Prod.snd ++ _ = _
        rw [List.map_map]
        exact congrArg (· ++ rest.nested) (ihChildren 0)

namespace Tree

/-- The methods nested right below those of a level, with their addresses. -/
def nextLevel (level : List (List Nat × Tree)) : List (List Nat × Tree) :=
  level.flatMap fun (address, method) =>
    (method.children.met Kind.isMethod Kind.holdsMethods 0).map fun (below, inner) =>
      (address ++ below, inner)

/-- The methods of a level with addresses, and those of the levels below. -/
def levelsIn : Nat → List (List Nat × Tree) → List (List Nat × Tree)
  | 0, _ => []
  | _ + 1, [] => []
  | n + 1, level => level ++ levelsIn n (nextLevel level)

/-- The methods of a declaration with their addresses in it. -/
def placesIn (declaration : Tree) : List (List Nat × Tree) :=
  levelsIn (declaration.children.nodeCount + 1) [([], declaration)]

/-- The next level with addresses has the same methods as without. -/
theorem map_nextLevel (level : List (List Nat × Tree)) :
    (nextLevel level).map Prod.snd = (level.map Prod.snd).flatMap (·.children.nested) := by
  rw [nextLevel, List.map_flatMap, List.flatMap_map]
  refine List.flatMap_congr fun entry _ => ?_
  rw [List.map_map]
  exact Forest.map_met_eq_nested entry.2.children 0

/-- The levels with addresses have the same methods as without. -/
theorem map_levelsIn (n : Nat) (level : List (List Nat × Tree)) :
    (levelsIn n level).map Prod.snd = levels n (level.map Prod.snd) := by
  induction n generalizing level with
  | zero => rfl
  | succ n ih =>
    cases level with
    | nil => rfl
    | cons first level =>
      -- `levels` has a case of its own for an empty level, which this one is not
      rw [levelsIn, List.map_append, ih, map_nextLevel]
      · rfl
      · intro h
        cases h

/-- Without their addresses these are the methods that are built. -/
theorem map_placesIn (declaration : Tree) :
    declaration.placesIn.map Prod.snd = declaration.methods :=
  map_levelsIn _ _

/-! ## One level -/

variable {tree : Tree}

/-- The members are the methods of one level of nesting, in document order. -/
structure IsLevel (tree : Tree) (n : Nat) (level : List (List Nat × Tree)) : Prop where
  mem_iff : ∀ address method, (address, method) ∈ level ↔
    tree.HasMethod address method ∧ tree.nesting address = n
  sorted : (level.map Prod.fst).Pairwise (· < ·)

/-- Nested methods of nested methods are nested methods. -/
theorem HasMethod.append {address below : List Nat} {method inner : Tree}
    (h : tree.HasMethod address method)
    (hbelow : method.MeetsBelow Kind.isMethod Kind.holdsMethods below inner) :
    tree.HasMethod (address ++ below) inner := by
  have hkind := Kind.isMethod_iff.mp hbelow.wanted_eq
  refine ⟨?_, hkind, fun e he s hs => ?_⟩
  · rw [at?_append, h.found]
    exact hbelow.found
  · -- a node on the way is above the outer method, or at or below it
    rcases prefix_append_cases he with hbefore | ⟨e, rfl, hway⟩
    · exact h.clear e hbefore s hs
    · rw [at?_append, h.found, Option.bind_some] at hs
      by_cases hnil : e = []
      · subst hnil
        refine h.clear address (List.prefix_refl _) s ?_
        rw [h.found, ← hs, at?_nil]
      · by_cases hwhole : e = below
        · rw [hwhole, hbelow.found, Option.some.injEq] at hs
          rw [← hs, hkind]
          rfl
        · exact Bool.not_eq_true' _ ▸ (hbelow.between e hway hnil hwhole s hs).2

/-- The last method above a nested one is a nested one, too, or the declaration itself. -/
theorem HasMethod.exists_outer {address : List Nat} {method : Tree} {n : Nat}
    (h : tree.HasMethod address method) (hn : tree.nesting address = n + 1) :
    ∃ before below outer, address = before ++ below ∧ tree.HasMethod before outer ∧
      tree.nesting before = n ∧ outer.MeetsBelow Kind.isMethod Kind.holdsMethods below method := by
  obtain ⟨before, below, outer, rfl, hnil, houter, hkind, hnesting, hbetween⟩ :=
    exists_last_method hn h.found
  have hat : ∀ e, tree.at? (before ++ e) = outer.at? e := by
    intro e
    rw [at?_append, houter, Option.bind_some]
  refine ⟨before, below, outer, rfl, ⟨houter, hkind, fun e he => ?_⟩, hnesting,
    hnil, ?_, Kind.isMethod_iff.mpr h.kind_eq, fun e he henil hene s hs => ⟨?_, ?_⟩⟩
  · exact h.clear e (he.trans (List.prefix_append before below))
  · rw [← hat]
    exact h.found
  · rw [← Bool.not_eq_true, Kind.isMethod_iff]
    exact hbetween e he henil hene s hs
  · rw [← hat] at hs
    rw [Kind.holdsMethods,
      h.clear (before ++ e) ((List.prefix_append_right_inj before).mpr he) s hs]
    rfl

/-- A method of the same level does not contain another one. -/
theorem not_prefix_of_nesting_eq {address other : List Nat} {method : Tree}
    (h : tree.HasMethod address method) (hne : address ≠ other)
    (hn : tree.nesting other = tree.nesting address) : ¬ address <+: other := by
  rintro ⟨below, rfl⟩
  rw [nesting_append h.found] at hn
  cases below with
  | nil => exact hne (List.append_nil address).symm
  | cons k below =>
    rw [nesting, if_pos h.kind_eq] at hn
    omega

/-- On the next level there are the methods that are met below those of this one. -/
theorem mem_nextLevel {level : List (List Nat × Tree)} {address : List Nat} {inner : Tree} :
    (address, inner) ∈ nextLevel level ↔ ∃ before method below, (before, method) ∈ level ∧
      address = before ++ below ∧
        method.MeetsBelow Kind.isMethod Kind.holdsMethods below inner := by
  simp only [nextLevel, List.mem_flatMap, List.mem_map, Prod.exists, Prod.mk.injEq]
  constructor
  · rintro ⟨before, method, hmem, below, inner, hinner, rfl, rfl⟩
    exact ⟨before, method, below, hmem, rfl, mem_children_met.mp hinner⟩
  · rintro ⟨before, method, below, hmem, rfl, hinner⟩
    exact ⟨before, method, hmem, below, inner, mem_children_met.mpr hinner, rfl, rfl⟩

/-- **From one level to the next.** -/
theorem IsLevel.next {n : Nat} {level : List (List Nat × Tree)} (h : tree.IsLevel n level) :
    tree.IsLevel (n + 1) (nextLevel level) where
  mem_iff := by
    intro address inner
    rw [mem_nextLevel]
    constructor
    · rintro ⟨before, method, below, hmem, rfl, hinner⟩
      obtain ⟨hmethod, hn⟩ := (h.mem_iff before method).mp hmem
      refine ⟨hmethod.append hinner, ?_⟩
      rw [nesting_append hmethod.found, hn, nesting_of_meetsBelow hmethod.kind_eq hinner]
    · rintro ⟨hinner, hn⟩
      obtain ⟨before, below, outer, rfl, houter, hbefore, hbelow⟩ := hinner.exists_outer hn
      exact ⟨before, outer, below, (h.mem_iff before outer).mpr ⟨houter, hbefore⟩, rfl, hbelow⟩
  sorted := by
    have hsorted := List.pairwise_map.mp h.sorted
    rw [nextLevel, List.map_flatMap, List.pairwise_flatMap]
    constructor
    · rintro ⟨before, method⟩ -
      rw [List.map_map]
      have hinside : ((method.children.met Kind.isMethod Kind.holdsMethods 0).map
          Prod.fst).Pairwise (· < ·) := method.children.pairwise_met 0
      rw [List.pairwise_map] at hinside ⊢
      exact hinside.imp fun hlt => (append_lt_append_left_iff before).mpr hlt
    · -- methods of one level do not contain each other, so what they contain stays apart
      refine hsorted.imp_of_mem fun {first later} hfirst hlater hlt x hx y hy => ?_
      obtain ⟨before, method⟩ := first
      obtain ⟨behind, other⟩ := later
      obtain ⟨p, hp, rfl⟩ := List.mem_map.mp hx
      obtain ⟨q, hq, rfl⟩ := List.mem_map.mp hy
      obtain ⟨⟨below, inner⟩, -, rfl⟩ := List.mem_map.mp hp
      obtain ⟨⟨beyond, farther⟩, -, rfl⟩ := List.mem_map.mp hq
      obtain ⟨hmethod, hn⟩ := (h.mem_iff before method).mp hfirst
      have hother := ((h.mem_iff behind other).mp hlater).2
      exact append_lt_append_of_lt hlt
        (not_prefix_of_nesting_eq hmethod (ne_of_lt hlt) (hother.trans hn.symm)) below beyond

/-! ## All levels -/

theorem levelsIn_nil (n : Nat) : levelsIn n [] = [] := by
  cases n <;> rfl

theorem levelsIn_succ (n : Nat) (level : List (List Nat × Tree)) :
    levelsIn (n + 1) level = level ++ levelsIn n (nextLevel level) := by
  cases level with
  | nil => exact (levelsIn_nil n).symm
  | cons first level => rfl

theorem isLevel_zero (hkind : tree.kind = .methodDeclaration) :
    tree.IsLevel 0 [([], tree)] where
  mem_iff := by
    intro address method
    rw [List.mem_singleton, Prod.mk.injEq]
    constructor
    · rintro ⟨rfl, rfl⟩
      refine ⟨⟨rfl, hkind, fun e he s hs => ?_⟩, rfl⟩
      rw [List.prefix_nil.mp he, at?_nil, Option.some.injEq] at hs
      rw [← hs, hkind]
      rfl
    · rintro ⟨hmethod, hn⟩
      cases address with
      | nil => exact ⟨rfl, (Option.some.inj hmethod.found).symm⟩
      | cons k address =>
        rw [nesting, if_pos hkind] at hn
        omega
  sorted := List.pairwise_singleton _ _

/-- The levels that are listed are those from the first one on. -/
theorem mem_levelsIn {n : Nat} {level : List (List Nat × Tree)} (h : tree.IsLevel n level)
    (fuel : Nat) {address : List Nat} {method : Tree} :
    (address, method) ∈ levelsIn fuel level ↔ tree.HasMethod address method ∧
      n ≤ tree.nesting address ∧ tree.nesting address < n + fuel := by
  induction fuel generalizing n level with
  | zero =>
    constructor
    · intro h
      cases h
    · rintro ⟨-, hle, hlt⟩
      omega
  | succ fuel ih =>
    rw [levelsIn_succ, List.mem_append, h.mem_iff, ih h.next]
    constructor
    · rintro (⟨hmethod, hn⟩ | ⟨hmethod, hle, hlt⟩)
      · exact ⟨hmethod, by omega, by omega⟩
      · exact ⟨hmethod, by omega, by omega⟩
    · rintro ⟨hmethod, hle, hlt⟩
      rcases Nat.eq_or_lt_of_le hle with heq | hgt
      · exact Or.inl ⟨hmethod, heq.symm⟩
      · exact Or.inr ⟨hmethod, hgt, by omega⟩

/-- One method of a declaration comes before another: it is nested less deeply, or just as deeply
and comes first in the document. -/
def NestedBefore (tree : Tree) (address other : List Nat) : Prop :=
  tree.nesting address < tree.nesting other ∨
    tree.nesting address = tree.nesting other ∧ address < other

/-- Level by level, the methods come in the order of nesting. -/
theorem pairwise_levelsIn {n : Nat} {level : List (List Nat × Tree)} (h : tree.IsLevel n level)
    (fuel : Nat) : ((levelsIn fuel level).map Prod.fst).Pairwise tree.NestedBefore := by
  induction fuel generalizing n level with
  | zero => exact .nil
  | succ fuel ih =>
    rw [levelsIn_succ, List.map_append, List.pairwise_append]
    refine ⟨?_, ih h.next, fun a ha b hb => ?_⟩
    · refine h.sorted.imp_of_mem fun {a b} ha hb hlt => Or.inr ⟨?_, hlt⟩
      obtain ⟨⟨a, first⟩, hfirst, rfl⟩ := List.mem_map.mp ha
      obtain ⟨⟨b, second⟩, hsecond, rfl⟩ := List.mem_map.mp hb
      rw [((h.mem_iff a first).mp hfirst).2, ((h.mem_iff b second).mp hsecond).2]
    · obtain ⟨⟨a, first⟩, hfirst, rfl⟩ := List.mem_map.mp ha
      obtain ⟨⟨b, second⟩, hsecond, rfl⟩ := List.mem_map.mp hb
      have hn := ((h.mem_iff a first).mp hfirst).2
      have hle := ((mem_levelsIn h.next fuel).mp hsecond).2.1
      left
      show tree.nesting a < tree.nesting b
      omega

variable {declaration : Tree} (hkind : declaration.kind = .methodDeclaration)

include hkind in
/-- **The methods of a declaration are those nested in it, but not under a type.** -/
theorem mem_placesIn {address : List Nat} {method : Tree} :
    (address, method) ∈ declaration.placesIn ↔ declaration.HasMethod address method := by
  rw [placesIn, mem_levelsIn (isLevel_zero hkind)]
  refine ⟨fun h => h.1, fun h => ⟨h, Nat.zero_le _, ?_⟩⟩
  -- there are not more methods on a way than nodes in the tree, so the fuel is enough
  have hlength := length_le_nodeCount h.found
  have hnesting := declaration.nesting_le_length address
  omega

include hkind in
/-- **The methods of a declaration come level by level, and each level in document order.** -/
theorem pairwise_placesIn :
    (declaration.placesIn.map Prod.fst).Pairwise declaration.NestedBefore :=
  pairwise_levelsIn (isLevel_zero hkind) _

end Tree

end CodeGraph
