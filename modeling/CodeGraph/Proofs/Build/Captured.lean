/-
# Assignments that lose their values

The first node after the target of an assignment is its value, unless the assignment is itself the
value of another one: the node that is taken as a value ends the wait, and so the assignment that has
just begun awaits nothing (`Cursor.valueOf?_of_hasParts`).  Of two assignments in a
chain the inner one loses its value (`Cursor.not_captured_chainedMoves`).
-/
import CodeGraph.Proofs.Build.Assigned

namespace CodeGraph

/-! ## The parts of an assignment -/

/-- Token number `x` is the first name emitted inside the node `a`. -/
structure IsFirstName (parents : List (Option Nat)) (emissions : List Emission) (a x : Nat)
    (e : Emission) : Prop where
  emitted : emissions[x]? = some e
  name : e.role = .identifier
  inside : Contains parents a e.owner
  first : ∀ (y : Nat) (other : Emission), emissions[y]? = some other →
    other.role = .identifier → Contains parents a other.owner → x ≤ y

/-- No name has been emitted inside the node `a`. -/
def IsNameless (parents : List (Option Nat)) (emissions : List Emission) (a : Nat) : Prop :=
  ∀ e ∈ emissions, e.role = .identifier → ¬ Contains parents a e.owner

/-- Some token has the node as its value. -/
def MethodGraph.IsValue (method : MethodGraph) (n : Nat) : Prop :=
  ∃ x, method.valueOf? x = some n

namespace Cursor

/-- No assignment has begun between two nodes. -/
def NoneBetween (cursor : Cursor) (a n : Nat) : Prop :=
  ∀ v, a < v → v < n → cursor.isAssignmentAt v = false

/-- The assignment `a` has token number `x` as its first name, and `n` is the first node behind the
name, inside the assignment and with no further assignment in front of it. -/
structure HasParts (cursor : Cursor) (emissions : List Emission) (a x n : Nat) : Prop where
  assignment : cursor.isAssignmentAt a = true
  target : ∃ e, IsFirstName cursor.method.parents emissions a x e ∧ e.nodeCount = n
  node_lt : n < cursor.nodes.size
  inside : Contains cursor.method.parents a n
  alone : cursor.NoneBetween a n

/-- The assignment `a` is open, and no other one has begun since. -/
structure IsLatest (cursor : Cursor) (a : Nat) : Prop where
  assignment : cursor.isAssignmentAt a = true
  inside : Contains cursor.method.parents a cursor.current
  alone : cursor.NoneBetween a cursor.nodes.size

end Cursor

section Growth

variable {parents : List (Option Nat)} {emissions : List Emission} {a x : Nat} {e last : Emission}

/-- New nodes do not change what was the first name. -/
theorem IsFirstName.of_append (htree : IsNumbering parents)
    (howner : ∀ e ∈ emissions, e.owner < parents.length) {more : List (Option Nat)}
    (h : IsFirstName (parents ++ more) emissions a x e) :
    IsFirstName parents emissions a x e where
  emitted := h.emitted
  name := h.name
  inside :=
    (htree.contains_append_iff (howner e (List.mem_of_getElem? h.emitted)) more).mp h.inside
  first := fun y other hother hname hinside => h.first y other hother hname (hinside.append more)

/-- The first name so far is one from before, or it is new and nothing before it was a name. -/
theorem IsFirstName.concat_cases (h : IsFirstName parents (emissions ++ [last]) a x e) :
    IsFirstName parents emissions a x e ∨
      x = emissions.length ∧ e = last ∧ IsNameless parents emissions a := by
  have hbefore (y : Nat) (other : Emission) (hother : emissions[y]? = some other) :
      (emissions ++ [last])[y]? = some other := by
    rw [List.getElem?_append_left (List.getElem?_eq_some_iff.mp hother).1]
    exact hother
  have hemitted := h.emitted
  have hx := (List.getElem?_eq_some_iff.mp hemitted).1
  rw [List.length_append, List.length_singleton] at hx
  rcases Nat.lt_succ_iff_lt_or_eq.mp hx with hlt | rfl
  · rw [List.getElem?_append_left hlt] at hemitted
    exact Or.inl ⟨hemitted, h.name, h.inside,
      fun y other hother => h.first y other (hbefore y other hother)⟩
  · rw [List.getElem?_concat_length, Option.some.injEq] at hemitted
    refine Or.inr ⟨rfl, hemitted.symm, fun other hmem hname hinside => ?_⟩
    obtain ⟨y, hy⟩ := List.mem_iff_getElem?.mp hmem
    have hle := h.first y other (hbefore y other hy) hname hinside
    exact Nat.not_lt.mpr hle (List.getElem?_eq_some_iff.mp hy).1

end Growth

namespace Cursor

variable {cursor : Cursor} {emissions : List Emission} {a : Nat}

/-! ## The latest assignment -/

/-- A push begins no assignment between two nodes that are there. -/
theorem noneBetween_push (kind : Kind) (callee : Option String) {n : Nat}
    (hn : n ≤ cursor.nodes.size) :
    (cursor.push kind callee).NoneBetween a n ↔ cursor.NoneBetween a n := by
  refine forall_congr' fun v => imp_congr_right fun _ => forall_congr' fun hv => ?_
  rw [isAssignmentAt_push_of_lt kind callee (Nat.lt_of_lt_of_le hv hn)]

/-- A token begins no assignment. -/
theorem noneBetween_emit (text : String) (role : Role) (n : Nat) :
    (cursor.emit text role).NoneBetween a n ↔ cursor.NoneBetween a n := by
  refine forall_congr' fun v => ?_
  rw [isAssignmentAt_emit]

/-- An assignment is a node. -/
theorem lt_size_of_isAssignmentAt (h : cursor.isAssignmentAt a = true) : a < cursor.nodes.size := by
  rw [isAssignmentAt_eq_any] at h
  by_contra hlt
  rw [Array.getElem?_eq_none (Nat.not_lt.mp hlt)] at h
  cases h

/-- What contains a new node is the node itself or contains the one that it was made in. -/
theorem contains_push (h : cursor.Placed) (kind : Kind) (callee : Option String)
    (hinside : Contains (cursor.push kind callee).method.parents a cursor.nodes.size)
    (hne : a ≠ cursor.nodes.size) : Contains cursor.method.parents a cursor.current := by
  rw [parents_push] at hinside
  rcases Relation.ReflTransGen.cases_head hinside with heq | ⟨p, hp, hrest⟩
  · exact absurd heq.symm hne
  · rw [IsParent, ← length_parents, List.getElem?_concat_length, Option.some.injEq,
      Option.some.injEq] at hp
    subst hp
    refine (h.shaped.tree.contains_append_iff ?_ _).mp hrest
    rw [length_parents]
    exact current_lt h

/-- Behind a new node the latest assignment is the node, or it is as before. -/
theorem isLatest_push (h : cursor.Placed) {kind : Kind} {callee : Option String}
    (hlatest : (cursor.push kind callee).IsLatest a) :
    (a = cursor.nodes.size ∧ kind.isAssignment = true) ∨
      (a < cursor.nodes.size ∧ kind.isAssignment = false ∧ cursor.IsLatest a) := by
  have hinside := hlatest.inside
  have halone := hlatest.alone
  have hassignment := hlatest.assignment
  rw [push_current] at hinside
  rw [size_push_nodes] at halone
  by_cases hsize : a = cursor.nodes.size
  · rw [hsize, isAssignmentAt_push_size h] at hassignment
    exact Or.inl ⟨hsize, hassignment⟩
  · have hcurrent := contains_push h kind callee hinside hsize
    have hlt : a < cursor.nodes.size :=
      Nat.lt_of_le_of_lt (h.shaped.tree.le_of_contains hcurrent) (current_lt h)
    have hkind := halone cursor.nodes.size hlt (Nat.lt_succ_self _)
    rw [isAssignmentAt_push_size h] at hkind
    rw [isAssignmentAt_push_of_lt kind callee hlt] at hassignment
    refine Or.inr ⟨hlt, hkind, hassignment, hcurrent, ?_⟩
    refine (noneBetween_push kind callee (Nat.le_refl _)).mp fun v hav hv => ?_
    exact halone v hav (Nat.lt_succ_of_lt hv)

theorem isLatest_emit (text : String) (role : Role) :
    (cursor.emit text role).IsLatest a ↔ cursor.IsLatest a := by
  constructor
  · rintro ⟨hassignment, hinside, halone⟩
    rw [isAssignmentAt_emit] at hassignment
    rw [parents_emit, emit_current] at hinside
    rw [noneBetween_emit, size_emit_nodes] at halone
    exact ⟨hassignment, hinside, halone⟩
  · rintro ⟨hassignment, hinside, halone⟩
    refine ⟨?_, ?_, ?_⟩
    · rw [isAssignmentAt_emit]
      exact hassignment
    · rw [parents_emit, emit_current]
      exact hinside
    · rw [noneBetween_emit, size_emit_nodes]
      exact halone

/-- Behind a node that has been left, the latest assignment is as before, and the node was none. -/
theorem isLatest_leave (h : cursor.Placed) {node : Nat} {path : List Nat}
    (hpath : cursor.path = node :: path) {awaited : Awaited}
    (hlatest : IsLatest { cursor with path, awaited } a) :
    cursor.isAssignmentAt node = false ∧ cursor.IsLatest a := by
  have hascends := h.ascends
  rw [hpath] at hascends
  have hinside : Contains cursor.method.parents a (path.head?.getD 0) := hlatest.inside
  have hparent := h.shaped.tree.lt_of_parent hascends.1
  have hle := h.shaped.tree.le_of_contains hinside
  have hnode := (List.getElem?_eq_some_iff.mp hascends.1).1
  rw [length_parents] at hnode
  refine ⟨hlatest.alone node (by omega) hnode, hlatest.assignment, ?_, hlatest.alone⟩
  rw [current, hpath]
  exact .head hascends.1 hinside

/-! ## Values of other assignments -/

/-- A new node is a value just if one is awaited, and the others are values as before. -/
theorem isValue_push (h : cursor.Assigning emissions) (kind : Kind) (callee : Option String)
    (n : Nat) : (cursor.push kind callee).method.IsValue n ↔
      cursor.method.IsValue n ∨ n = cursor.nodes.size ∧ ∃ x, cursor.awaited = .value x := by
  constructor
  · rintro ⟨x, hx⟩
    rw [valueOf?_push] at hx
    split at hx
    · next hawaited => exact Or.inr ⟨(Option.some.inj hx).symm, x, hawaited.1⟩
    · exact Or.inl ⟨x, hx⟩
  · rintro (⟨x, hx⟩ | ⟨rfl, x, hx⟩)
    · refine ⟨x, ?_⟩
      rw [valueOf?_push, if_neg, hx]
      rintro ⟨hawaited, -⟩
      rw [(h.awaitsValue x hawaited).1] at hx
      cases hx
    · obtain ⟨-, a, e, -, htarget, -⟩ := h.awaitsValue x hx
      have hlt := (List.getElem?_eq_some_iff.mp htarget.emitted).1
      rw [h.length_emissions] at hlt
      refine ⟨x, ?_⟩
      rw [valueOf?_push, if_pos ⟨hx, hlt⟩]

/-- Whether an earlier node is a value does not depend on a later push. -/
theorem isValue_push_of_lt (h : cursor.Assigning emissions) (kind : Kind)
    (callee : Option String) {n : Nat} (hn : n < cursor.nodes.size) :
    (cursor.push kind callee).method.IsValue n ↔ cursor.method.IsValue n := by
  rw [isValue_push h, or_iff_left]
  exact fun hnew => Nat.ne_of_lt hn hnew.1

theorem isValue_emit (text : String) (role : Role) (n : Nat) :
    (cursor.emit text role).method.IsValue n ↔ cursor.method.IsValue n :=
  exists_congr fun x => by rw [valueOf?_emit]

/-! ## Every move keeps what is captured -/

/-- Every assignment has captured its value, or has been the value of another one and missed its own;
and what the cursor awaits is decided by the latest assignment. -/
structure Capturing (cursor : Cursor) (emissions : List Emission) : Prop where
  assigning : cursor.Assigning emissions
  nodeCount_le : ∀ e ∈ emissions, e.nodeCount ≤ cursor.nodes.size
  idle : ∀ a, cursor.IsLatest a → cursor.method.IsValue a → cursor.awaited = .nothing
  awaitsTarget : ∀ a, cursor.IsLatest a → ¬ cursor.method.IsValue a →
    IsNameless cursor.method.parents emissions a → cursor.awaited = .target
  awaitsValue : ∀ (a x : Nat) (e : Emission), cursor.IsLatest a → ¬ cursor.method.IsValue a →
    IsFirstName cursor.method.parents emissions a x e → e.nodeCount = cursor.nodes.size →
    cursor.awaited = .value x
  captured : ∀ a x n, cursor.HasParts emissions a x n → ¬ cursor.method.IsValue a →
    cursor.method.valueOf? x = some n
  missed : ∀ (a x : Nat) (e : Emission), cursor.isAssignmentAt a = true →
    IsFirstName cursor.method.parents emissions a x e → cursor.NoneBetween a e.nodeCount →
    cursor.method.IsValue a → cursor.method.valueOf? x = none ∧ cursor.awaited ≠ .value x

namespace Capturing

/-- In a method without tokens no value is awaited. -/
theorem openMethod (builder : ClassBuilder) (signature : String) :
    (builder.openMethod signature).Capturing [] where
  assigning := Assigning.openMethod builder signature
  nodeCount_le := fun e he => absurd he List.not_mem_nil
  idle := fun a _ _ => rfl
  awaitsTarget := by
    intro a hlatest
    obtain rfl := Nat.lt_one_iff.mp (lt_size_of_isAssignmentAt hlatest.assignment)
    cases hlatest.assignment
  awaitsValue := fun a x e _ _ hfirst => by cases hfirst.emitted
  captured := by
    rintro a x n ⟨-, ⟨e, hfirst, -⟩, -, -, -⟩
    cases hfirst.emitted
  missed := fun a x e _ hfirst => by cases hfirst.emitted

variable (h : cursor.Capturing emissions)

include h

/-- The first name so far was the first one before the new node. -/
theorem of_push {kind : Kind} {callee : Option String} {x : Nat} {e : Emission}
    (hfirst : IsFirstName (cursor.push kind callee).method.parents emissions a x e) :
    IsFirstName cursor.method.parents emissions a x e ∧ a < cursor.nodes.size ∧
      e.nodeCount ≤ cursor.nodes.size := by
  rw [parents_push] at hfirst
  have hold := hfirst.of_append h.assigning.placed.shaped.tree h.assigning.owner_lt
  have hmem := List.mem_of_getElem? hold.emitted
  have hle := h.assigning.placed.shaped.tree.le_of_contains hold.inside
  have hlt := h.assigning.owner_lt e hmem
  rw [length_parents] at hlt
  exact ⟨hold, Nat.lt_of_le_of_lt hle hlt, h.nodeCount_le e hmem⟩

/-- Inside a new assignment a target is awaited, unless the assignment is a value. -/
theorem awaitsTarget_push {kind : Kind} {callee : Option String}
    (hlatest : (cursor.push kind callee).IsLatest a)
    (hvalue : ¬ (cursor.push kind callee).method.IsValue a)
    (hnameless : IsNameless (cursor.push kind callee).method.parents emissions a) :
    (cursor.push kind callee).awaited = .target := by
  rw [push_awaited]
  rcases isLatest_push h.assigning.placed hlatest with ⟨rfl, hkind⟩ | ⟨hlt, hkind, hold⟩
  · rw [isValue_push h.assigning, not_or] at hvalue
    cases hawaited : cursor.awaited with
    | nothing =>
      rw [awaitedIn, hkind]
      rfl
    | target => rfl
    | value x => exact absurd ⟨rfl, x, hawaited⟩ hvalue.2
  · rw [isValue_push_of_lt h.assigning kind callee hlt] at hvalue
    have htarget := h.awaitsTarget a hold hvalue fun e he hname hinside => by
      refine hnameless e he hname ?_
      rw [parents_push]
      exact hinside.append _
    rw [htarget]
    rfl

/-- The new node is the value of the assignment whose parts it completes. -/
theorem captured_push {kind : Kind} {callee : Option String} {x n : Nat}
    (hparts : (cursor.push kind callee).HasParts emissions a x n)
    (hvalue : ¬ (cursor.push kind callee).method.IsValue a) :
    (cursor.push kind callee).method.valueOf? x = some n := by
  obtain ⟨hassignment, ⟨e, hfirst, rfl⟩, hlt, hinside, halone⟩ := hparts
  obtain ⟨hfirst, ha, hcount⟩ := h.of_push hfirst
  rw [isAssignmentAt_push_of_lt kind callee ha] at hassignment
  rw [isValue_push_of_lt h.assigning kind callee ha] at hvalue
  rw [noneBetween_push kind callee hcount] at halone
  rcases Nat.lt_or_eq_of_le hcount with hbefore | hnew
  · -- the parts were there before, and the token keeps its value
    rw [parents_push, h.assigning.placed.shaped.tree.contains_append_iff
      (by rw [length_parents]; exact hbefore)] at hinside
    have hold := h.captured a x e.nodeCount
      ⟨hassignment, ⟨e, hfirst, rfl⟩, hbefore, hinside, halone⟩ hvalue
    rw [valueOf?_push, if_neg, hold]
    rintro ⟨hawaited, -⟩
    rw [(h.assigning.awaitsValue x hawaited).1] at hold
    cases hold
  · rw [hnew] at hinside halone
    have hcurrent := contains_push h.assigning.placed kind callee hinside (Nat.ne_of_lt ha)
    have hawaited := h.awaitsValue a x e ⟨hassignment, hcurrent, halone⟩ hvalue hfirst hnew
    have hx := (List.getElem?_eq_some_iff.mp hfirst.emitted).1
    rw [h.assigning.length_emissions] at hx
    rw [valueOf?_push, if_pos ⟨hawaited, hx⟩, hnew]

/-- A push keeps the account of captured values, and is one itself if a value is awaited. -/
theorem push (kind : Kind) (callee : Option String) :
    (cursor.push kind callee).Capturing emissions where
  assigning := h.assigning.push kind callee
  nodeCount_le := by
    intro e he
    rw [size_push_nodes]
    exact Nat.le_succ_of_le (h.nodeCount_le e he)
  idle := by
    intro a hlatest hvalue
    rw [push_awaited]
    rcases isLatest_push h.assigning.placed hlatest with ⟨rfl, -⟩ | ⟨hlt, hkind, hold⟩
    · -- a new node that is a value has ended the wait
      obtain ⟨x, hold⟩ | ⟨-, x, hawaited⟩ := (isValue_push h.assigning kind callee _).mp hvalue
      · exact absurd hold (h.assigning.valueOf?_ne_size x)
      · rw [hawaited]
        rfl
    · rw [isValue_push_of_lt h.assigning kind callee hlt] at hvalue
      rw [h.idle a hold hvalue, awaitedIn, hkind]
      rfl
  awaitsTarget := fun a => h.awaitsTarget_push
  awaitsValue := by
    intro a x e _ _ hfirst hcount
    have hle := (h.of_push hfirst).2.2
    rw [size_push_nodes] at hcount
    omega
  captured := fun a x n => h.captured_push
  missed := by
    intro a x e hassignment hfirst halone hvalue
    obtain ⟨hfirst, ha, hcount⟩ := h.of_push hfirst
    rw [isAssignmentAt_push_of_lt kind callee ha] at hassignment
    rw [isValue_push_of_lt h.assigning kind callee ha] at hvalue
    rw [noneBetween_push kind callee hcount] at halone
    obtain ⟨hnone, hawaited⟩ := h.missed a x e hassignment hfirst halone hvalue
    constructor
    · rw [valueOf?_push, if_neg fun hnew => hawaited hnew.1, hnone]
    · rw [push_awaited]
      cases awaitedIn cursor.awaited kind <;> (intro hnew; cases hnew)

/-- A token keeps the account of captured values, and a value is awaited if it is a target. -/
theorem emit (text : String) (role : Role) :
    (cursor.emit text role).Capturing (emissions ++ [cursor.emission role]) where
  assigning := h.assigning.emit text role
  nodeCount_le := by
    intro e he
    rw [size_emit_nodes]
    rcases List.mem_append.mp he with he | he
    · exact h.nodeCount_le e he
    · rw [List.mem_singleton.mp he]
      exact Nat.le_refl _
  idle := by
    intro a hlatest hvalue
    rw [isLatest_emit] at hlatest
    rw [isValue_emit] at hvalue
    rw [emit_awaited, h.idle a hlatest hvalue]
    rfl
  awaitsTarget := by
    intro a hlatest hvalue hnameless
    rw [isLatest_emit] at hlatest
    rw [isValue_emit] at hvalue
    rw [parents_emit] at hnameless
    have hrole : role ≠ .identifier := fun hrole =>
      hnameless _ (List.mem_append_right _ (List.mem_singleton.mpr rfl)) hrole hlatest.inside
    rw [emit_awaited, h.awaitsTarget a hlatest hvalue fun e he =>
      hnameless e (List.mem_append_left _ he), awaitedAfter, if_neg hrole]
  awaitsValue := by
    intro a x e hlatest hvalue hfirst hcount
    rw [isLatest_emit] at hlatest
    rw [isValue_emit] at hvalue
    rw [parents_emit] at hfirst
    rw [size_emit_nodes] at hcount
    rw [emit_awaited]
    rcases hfirst.concat_cases with hold | ⟨rfl, rfl, hnameless⟩
    · rw [h.awaitsValue a x e hlatest hvalue hold hcount]
      rfl
    · have hname : role = .identifier := hfirst.name
      rw [h.awaitsTarget a hlatest hvalue hnameless, awaitedAfter, if_pos hname,
        h.assigning.length_emissions]
  captured := by
    rintro a x n ⟨hassignment, ⟨e, hfirst, rfl⟩, hlt, hinside, halone⟩ hvalue
    rw [isAssignmentAt_emit] at hassignment
    rw [parents_emit] at hfirst hinside
    rw [size_emit_nodes] at hlt
    rw [noneBetween_emit] at halone
    rw [isValue_emit] at hvalue
    rw [valueOf?_emit]
    rcases hfirst.concat_cases with hold | ⟨-, rfl, -⟩
    · exact h.captured a x e.nodeCount ⟨hassignment, ⟨e, hold, rfl⟩, hlt, hinside, halone⟩ hvalue
    · exact absurd hlt (Nat.lt_irrefl _)
  missed := by
    intro a x e hassignment hfirst halone hvalue
    rw [isAssignmentAt_emit] at hassignment
    rw [parents_emit] at hfirst
    rw [noneBetween_emit] at halone
    rw [isValue_emit] at hvalue
    rw [valueOf?_emit, emit_awaited]
    rcases hfirst.concat_cases with hold | ⟨rfl, rfl, -⟩
    · obtain ⟨hnone, hawaited⟩ := h.missed a x e hassignment hold halone hvalue
      refine ⟨hnone, fun hnew => ?_⟩
      have hx := (List.getElem?_eq_some_iff.mp hold.emitted).1
      rw [h.assigning.length_emissions] at hx
      cases hcases : cursor.awaited with
      | nothing =>
        rw [hcases] at hnew
        cases hnew
      | value y =>
        rw [hcases] at hnew
        exact hawaited (hcases.trans hnew)
      | target =>
        rw [hcases, awaitedAfter] at hnew
        split at hnew
        · cases hnew
          exact Nat.lt_irrefl _ hx
        · cases hnew
    · -- the name is new, and the latest assignment awaits nothing
      rw [h.idle a ⟨hassignment, hfirst.inside, halone⟩ hvalue]
      refine ⟨?_, fun hnew => by cases hnew⟩
      rw [h.assigning.length_emissions, MethodGraph.valueOf?, method, Array.getElem?_size]
      rfl

/-- What has been noted with the class does not matter. -/
theorem withBuilder (builder : ClassBuilder) :
    Capturing { cursor with builder } emissions where
  assigning := h.assigning.withBuilder builder
  nodeCount_le := h.nodeCount_le
  idle := fun a hopen => h.idle a ⟨hopen.assignment, hopen.inside, hopen.alone⟩
  awaitsTarget := fun a hopen => h.awaitsTarget a ⟨hopen.assignment, hopen.inside, hopen.alone⟩
  awaitsValue := fun a x e hopen =>
    h.awaitsValue a x e ⟨hopen.assignment, hopen.inside, hopen.alone⟩
  captured := fun a x n hparts => h.captured a x n
    ⟨hparts.assignment, hparts.target, hparts.node_lt, hparts.inside, hparts.alone⟩
  missed := h.missed

/-- Leaving a node captures nothing, and if it ends a wait then no assignment is the latest. -/
theorem leave {node : Nat} {path : List Nat} (hpath : cursor.path = node :: path) {next : Cursor}
    (hassigning : next.Assigning emissions)
    (hnext : next = { cursor with
      path
      awaited := if cursor.isAssignmentAt node then .nothing else cursor.awaited }) :
    next.Capturing emissions := by
  subst hnext
  have hlatest (a : Nat) (hopen : IsLatest { cursor with
      path
      awaited := if cursor.isAssignmentAt node then .nothing else cursor.awaited } a) :
      cursor.IsLatest a ∧
        (if cursor.isAssignmentAt node then Awaited.nothing else cursor.awaited) =
          cursor.awaited := by
    obtain ⟨hnode, hold⟩ := isLatest_leave h.assigning.placed hpath hopen
    rw [hnode]
    exact ⟨hold, rfl⟩
  refine ⟨hassigning, h.nodeCount_le, fun a hopen hvalue => ?_, fun a hopen hvalue hnone => ?_,
    fun a x e hopen hvalue hfirst hcount => ?_, fun a x n hparts => ?_,
    fun a x e hassignment hfirst halone hvalue => ?_⟩
  · exact (hlatest a hopen).2.trans (h.idle a (hlatest a hopen).1 hvalue)
  · exact (hlatest a hopen).2.trans (h.awaitsTarget a (hlatest a hopen).1 hvalue hnone)
  · exact (hlatest a hopen).2.trans (h.awaitsValue a x e (hlatest a hopen).1 hvalue hfirst hcount)
  · exact h.captured a x n
      ⟨hparts.assignment, hparts.target, hparts.node_lt, hparts.inside, hparts.alone⟩
  · obtain ⟨hnone, hawaited⟩ := h.missed a x e hassignment hfirst halone hvalue
    refine ⟨hnone, ?_⟩
    dsimp only
    split
    · intro hnew
      cases hnew
    · exact hawaited

/-- **Every move that can be made keeps what is captured.** -/
theorem move {m : Move} {next : Cursor} (hm : cursor.move m = .ok next) :
    next.Capturing (emissions ++ cursor.emitted m) := by
  have hassigning := h.assigning.move hm
  rcases move_cases hm with ⟨kind, rfl, rfl⟩ | ⟨kind, callee, rfl, rfl⟩ |
    ⟨rfl, node, path, hpath, hnext⟩ | ⟨text, role, rfl, rfl⟩
  · rw [emitted, List.append_nil]
    exact h.push kind none
  · rw [emitted, List.append_nil]
    exact (h.withBuilder _).push kind (some callee)
  · rw [emitted, List.append_nil] at hassigning ⊢
    exact h.leave hpath hassigning hnext
  · exact h.emit text role

theorem tryMove (m : Move) : (cursor.tryMove m).Capturing (emissions ++ cursor.emitted m) := by
  rw [Cursor.tryMove]
  split
  · next next hm => exact h.move hm
  · next fault hm =>
    cases m with
    | ascend =>
      rw [emitted, List.append_nil]
      exact h
    | descend kind => cases hm
    | descendCall kind callee => cases hm
    | emit text role => cases hm

omit h in
theorem tryMoves (h : cursor.Capturing emissions) (moves : List Move) :
    (cursor.tryMoves moves).Capturing (emissions ++ cursor.emissions moves) := by
  induction moves generalizing cursor emissions with
  | nil =>
    rw [Cursor.emissions, List.append_nil]
    exact h
  | cons m moves ih =>
    rw [Cursor.emissions, ← List.append_assoc]
    exact ih (h.tryMove m)

end Capturing

/-! ## Values that are captured and values that are missed -/

/-- **An assignment captures its value unless it is a value itself.**  After any moves of a cursor,
take an assignment, the first name in it and the first node behind the name, if this node is in the
assignment, too, and no other assignment has begun in front of it.  The name has the node as its
value, unless some token has the assignment as its value; then the name has none. -/
theorem valueOf?_of_hasParts (builder : ClassBuilder) (signature : String) (moves : List Move)
    {a x n : Nat}
    (hparts : ((builder.openMethod signature).tryMoves moves).HasParts
      ((builder.openMethod signature).emissions moves) a x n) :
    (¬ ((builder.openMethod signature).tryMoves moves).method.IsValue a →
      ((builder.openMethod signature).tryMoves moves).method.valueOf? x = some n) ∧
    (((builder.openMethod signature).tryMoves moves).method.IsValue a →
      ((builder.openMethod signature).tryMoves moves).method.valueOf? x = none) := by
  have h := (Capturing.openMethod builder signature).tryMoves moves
  rw [List.nil_append] at h
  refine ⟨h.captured a x n hparts, fun hvalue => ?_⟩
  obtain ⟨e, hfirst, hcount⟩ := hparts.target
  have halone := hparts.alone
  rw [← hcount] at halone
  exact (h.missed a x e hparts.assignment hfirst halone hvalue).1

/-- The moves through `a = b = f()`. -/
def chainedMoves : List Move :=
  [.descend .assignment, .emit "a" .identifier, .emit "=" .plain,
    .descend .assignment, .emit "b" .identifier, .emit "=" .plain,
    .descendCall .methodInvocation "f:0", .emit "f" .identifier, .ascend, .ascend, .ascend]

/-- A cursor at the root of a method without a body. -/
def freshCursor : Cursor := ({ name := "C" } : ClassBuilder).openMethod "m:0"

/-- The tokens of a chained assignment, each with its owner and the assignment it is in. -/
theorem emissions_chainedMoves : freshCursor.emissions chainedMoves =
    [⟨.identifier, 1, some 1, 2⟩, ⟨.plain, 1, some 1, 2⟩, ⟨.identifier, 2, some 2, 3⟩,
      ⟨.plain, 2, some 2, 3⟩, ⟨.identifier, 3, some 2, 4⟩] := by
  decide +kernel

/-- The nodes of a chained assignment stand below each other. -/
theorem parents_chainedMoves :
    (freshCursor.tryMoves chainedMoves).method.parents = [none, some 0, some 1, some 2] := by
  decide +kernel

/-- In a chained assignment only the outer target gets a value. -/
theorem values_chainedMoves :
    (freshCursor.tryMoves chainedMoves).tokens.toList.map Token.assignedFrom =
      [some 2, none, none, none, none] := by
  decide +kernel

/-- The outer assignment has the inner one behind its name. -/
theorem hasParts_outer :
    (freshCursor.tryMoves chainedMoves).HasParts (freshCursor.emissions chainedMoves) 1 0 2 where
  assignment := by decide +kernel
  target := by
    rw [emissions_chainedMoves, parents_chainedMoves]
    exact ⟨_, ⟨rfl, rfl, .refl, fun y _ _ _ _ => Nat.zero_le y⟩, rfl⟩
  node_lt := by decide +kernel
  inside := by
    rw [parents_chainedMoves]
    exact .single rfl
  alone := fun v hlt hlt' => by omega

/-- The inner assignment has the call behind its name. -/
theorem hasParts_inner :
    (freshCursor.tryMoves chainedMoves).HasParts (freshCursor.emissions chainedMoves) 2 2 3 where
  assignment := by decide +kernel
  target := by
    have htree : IsNumbering (freshCursor.tryMoves chainedMoves).method.parents :=
      (tryMoves_of_move (p := Placed) (fun _ _ _ h hm => h.move hm)
        (Placed.openMethod _ _) chainedMoves).shaped.tree
    refine ⟨⟨.identifier, 2, some 2, 3⟩, ⟨?_, rfl, .refl, fun y other hother _ hinside => ?_⟩, rfl⟩
    · rw [emissions_chainedMoves]
      rfl
    · -- what is emitted before the name is in the outer assignment only
      have hle := htree.le_of_contains hinside
      rw [emissions_chainedMoves] at hother
      rcases y with _ | _ | y
      · cases hother
        exact absurd hle (by decide)
      · cases hother
        exact absurd hle (by decide)
      · omega
  node_lt := by decide +kernel
  inside := by
    rw [parents_chainedMoves]
    exact .single rfl
  alone := fun v hlt hlt' => by omega

/-- In a chained assignment only the inner assignment is a value. -/
theorem isValue_chainedMoves (n : Nat) :
    (freshCursor.tryMoves chainedMoves).method.IsValue n ↔ n = 2 := by
  have hview (x : Nat) : (freshCursor.tryMoves chainedMoves).method.valueOf? x =
      ([some 2, none, none, none, none] : List (Option Nat))[x]?.join := by
    rw [← values_chainedMoves, List.getElem?_map, Array.getElem?_toList]
    show (freshCursor.tryMoves chainedMoves).tokens[x]?.bind Token.assignedFrom = _
    cases (freshCursor.tryMoves chainedMoves).tokens[x]? <;> rfl
  constructor
  · rintro ⟨x, hx⟩
    rw [hview] at hx
    rcases x with _ | _ | _ | _ | _ | x <;> cases hx
    rfl
  · rintro rfl
    exact ⟨0, hview 0⟩

/-- In a chain the outer assignment captures the inner one, and the inner one captures nothing. -/
theorem valueOf?_of_hasParts_chainedMoves :
    (freshCursor.tryMoves chainedMoves).HasParts (freshCursor.emissions chainedMoves) 1 0 2 ∧
    (freshCursor.tryMoves chainedMoves).HasParts (freshCursor.emissions chainedMoves) 2 2 3 ∧
    (freshCursor.tryMoves chainedMoves).method.valueOf? 0 = some 2 ∧
    (freshCursor.tryMoves chainedMoves).method.valueOf? 2 = none := by
  refine ⟨hasParts_outer, hasParts_inner, ?_, ?_⟩
  · refine (valueOf?_of_hasParts { name := "C" } "m:0" chainedMoves hasParts_outer).1 ?_
    exact fun hvalue => absurd ((isValue_chainedMoves 1).mp hvalue) (by decide)
  · exact (valueOf?_of_hasParts { name := "C" } "m:0" chainedMoves hasParts_inner).2
      ((isValue_chainedMoves 2).mpr rfl)

/-- An assignment can have a first name and a node behind it, and the name no value. -/
theorem not_captured_chainedMoves :
    (freshCursor.tryMoves chainedMoves).HasParts (freshCursor.emissions chainedMoves) 2 2 3 ∧
    (freshCursor.tryMoves chainedMoves).method.valueOf? 2 ≠ some 3 :=
  ⟨hasParts_inner, by decide +kernel⟩

end Cursor

end CodeGraph
