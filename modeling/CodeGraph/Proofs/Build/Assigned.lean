/-
# Where the values of assignments are found

A cursor takes the first name inside an assignment for its target, and the first node after the name
for its value.  Whatever moves are made, each token with a value has been emitted as such a target,
and its node has come next and stands below the assignment (`Cursor.soundlyAssigned_tryMoves`).  What
was open when a token was emitted is no part of the method, so the emissions of a walk are written
down beside it (`Cursor.emissions`).
-/
import CodeGraph.Proofs.Build.Links
import CodeGraph.Proofs.Graph.Ancestry

namespace CodeGraph

/-! ## Emissions -/

/-- How a token was emitted. -/
structure Emission where
  role : Role
  /-- The node that the token was added to. -/
  owner : Nat
  /-- The innermost assignment that was open. -/
  assignment? : Option Nat
  /-- How many nodes there were, which is the number that the next one gets. -/
  nodeCount : Nat
  deriving DecidableEq, Repr

namespace Cursor

/-- The innermost open assignment. -/
def openAssignment? (cursor : Cursor) : Option Nat := cursor.path.find? cursor.isAssignmentAt

/-- A token of the given role, emitted where the cursor stands. -/
def emission (cursor : Cursor) (role : Role) : Emission :=
  ⟨role, cursor.current, cursor.openAssignment?, cursor.nodes.size⟩

/-- What a move emits. -/
def emitted (cursor : Cursor) : Move → List Emission
  | .emit _ role => [cursor.emission role]
  | .descend _ | .descendCall _ _ | .ascend => []

/-- What moves emit, one entry for each token. -/
def emissions (cursor : Cursor) : List Move → List Emission
  | [] => []
  | m :: moves => cursor.emitted m ++ (cursor.tryMove m).emissions moves

end Cursor

/-! ## Targets and values -/

/-- Token number `x` is the target of the assignment `a`: the first name emitted inside it, with `a`
as the innermost assignment. -/
structure IsTarget (parents : List (Option Nat)) (emissions : List Emission) (a x : Nat)
    (e : Emission) : Prop where
  emitted : emissions[x]? = some e
  name : e.role = .identifier
  innermost : e.assignment? = some a
  inside : Contains parents a e.owner
  first : ∀ (y : Nat) (other : Emission), emissions[y]? = some other →
    other.role = .identifier → Contains parents a other.owner → x ≤ y

/-- Token number `x` is the target of an assignment that has the node `n` as its value: `n` is the
first node after the token, and below the assignment. -/
def HasValue (parents : List (Option Nat)) (emissions : List Emission) (x n : Nat) : Prop :=
  ∃ a e, IsTarget parents emissions a x e ∧ e.nodeCount = n ∧ n < parents.length ∧
    IsAbove parents a n

/-- The node of the value that a token is given. -/
def MethodGraph.valueOf? (method : MethodGraph) (x : Nat) : Option Nat :=
  method.tokens[x]?.bind Token.assignedFrom

/-- The values of a method, emitted in the given way, are those of its assignments, each with a node
and an assignment of its own. -/
structure MethodGraph.SoundlyAssigned (method : MethodGraph) (emissions : List Emission) :
    Prop where
  owners_eq : method.owners = emissions.map Emission.owner
  hasValue : ∀ x n, method.valueOf? x = some n → HasValue method.parents emissions x n
  node_inj : ∀ x y n, method.valueOf? x = some n → method.valueOf? y = some n → x = y
  assignment_inj : ∀ x y (e f : Emission), (method.valueOf? x).isSome → (method.valueOf? y).isSome →
    emissions[x]? = some e → emissions[y]? = some f → e.assignment? = f.assignment? → x = y

section Growth

variable {parents : List (Option Nat)} {emissions : List Emission} {a x y n : Nat} {e f : Emission}

/-- An assignment has one target. -/
theorem IsTarget.unique (h : IsTarget parents emissions a x e)
    (h' : IsTarget parents emissions a y f) : x = y :=
  Nat.le_antisymm (h.first y f h'.emitted h'.name h'.inside)
    (h'.first x e h.emitted h.name h.inside)

/-- More nodes at the end leave the targets as they are. -/
theorem IsTarget.append (htree : IsNumbering parents)
    (howner : ∀ e ∈ emissions, e.owner < parents.length) (h : IsTarget parents emissions a x e)
    (more : List (Option Nat)) : IsTarget (parents ++ more) emissions a x e where
  emitted := h.emitted
  name := h.name
  innermost := h.innermost
  inside := h.inside.append more
  first := by
    intro y other hother hname hinside
    have hlt := howner other (List.mem_of_getElem? hother)
    exact h.first y other hother hname ((htree.contains_append_iff hlt more).mp hinside)

/-- A later token is not the first name inside an assignment that has one. -/
theorem IsTarget.concat (h : IsTarget parents emissions a x e) (last : Emission) :
    IsTarget parents (emissions ++ [last]) a x e where
  emitted := by
    rw [List.getElem?_append_left (List.getElem?_eq_some_iff.mp h.emitted).1]
    exact h.emitted
  name := h.name
  innermost := h.innermost
  inside := h.inside
  first := by
    intro y other hother hname hinside
    by_cases hy : y < emissions.length
    · rw [List.getElem?_append_left hy] at hother
      exact h.first y other hother hname hinside
    · have hx := (List.getElem?_eq_some_iff.mp h.emitted).1
      omega

/-- The first name inside an assignment is its target. -/
theorem IsTarget.new (hname : e.role = .identifier) (hinnermost : e.assignment? = some a)
    (hinside : Contains parents a e.owner)
    (hnone : ∀ e ∈ emissions, e.role = .identifier → ¬ Contains parents a e.owner) :
    IsTarget parents (emissions ++ [e]) a emissions.length e where
  emitted := List.getElem?_concat_length
  name := hname
  innermost := hinnermost
  inside := hinside
  first := by
    intro y other hother hname hinside
    by_contra hlt
    rw [List.getElem?_append_left (by omega)] at hother
    exact hnone other (List.mem_of_getElem? hother) hname hinside

theorem HasValue.append (htree : IsNumbering parents)
    (howner : ∀ e ∈ emissions, e.owner < parents.length) (h : HasValue parents emissions x n)
    (more : List (Option Nat)) : HasValue (parents ++ more) emissions x n := by
  obtain ⟨a, e, htarget, hcount, hlt, habove⟩ := h
  refine ⟨a, e, htarget.append htree howner more, hcount, ?_, habove.append more⟩
  rw [List.length_append]
  exact Nat.lt_add_right _ hlt

theorem HasValue.concat (h : HasValue parents emissions x n) (last : Emission) :
    HasValue parents (emissions ++ [last]) x n := by
  obtain ⟨a, e, htarget, hvalue⟩ := h
  exact ⟨a, e, htarget.concat last, hvalue⟩

end Growth

namespace Cursor

variable {cursor : Cursor}

/-! ## The open assignment -/

theorem isAssignmentAt_eq_any (v : Nat) :
    cursor.isAssignmentAt v = cursor.nodes[v]?.any (·.kind.isAssignment) := by
  rw [isAssignmentAt]
  cases cursor.nodes[v]? <;> rfl

theorem isAssignmentAt_push_of_lt (kind : Kind) (callee : Option String) {v : Nat}
    (hv : v < cursor.nodes.size) :
    (cursor.push kind callee).isAssignmentAt v = cursor.isAssignmentAt v := by
  rw [isAssignmentAt_eq_any, isAssignmentAt_eq_any, push_nodes, adopt, Array.getElem?_modify,
    Array.getElem?_push, if_neg (Nat.ne_of_lt hv)]
  split
  · rw [Option.any_map]
  · rfl

/-- The new node is an assignment if its kind is. -/
theorem isAssignmentAt_push_size (h : cursor.Placed) (kind : Kind) (callee : Option String) :
    (cursor.push kind callee).isAssignmentAt cursor.nodes.size = kind.isAssignment := by
  have hlt := current_lt h
  rw [isAssignmentAt_eq_any, push_nodes, adopt, Array.getElem?_modify, if_neg (by omega),
    Array.getElem?_push, if_pos rfl]
  rfl

theorem isAssignmentAt_emit (text : String) (role : Role) (v : Nat) :
    (cursor.emit text role).isAssignmentAt v = cursor.isAssignmentAt v := by
  rw [isAssignmentAt_eq_any, isAssignmentAt_eq_any, emit_nodes, Array.getElem?_modify]
  split
  · rw [Option.any_map]
  · rfl

/-- A new node is the innermost open assignment if it is one. -/
theorem openAssignment?_push (h : cursor.Placed) (kind : Kind) (callee : Option String) :
    (cursor.push kind callee).openAssignment? =
      if kind.isAssignment then some cursor.nodes.size else cursor.openAssignment? := by
  have hold : cursor.path.find? (cursor.push kind callee).isAssignmentAt =
      cursor.path.find? cursor.isAssignmentAt := by
    refine List.find?_congr fun v hv => isAssignmentAt_push_of_lt kind callee ?_
    rw [← length_parents]
    exact h.ascends.lt_length hv
  rw [openAssignment?, push_path, List.find?_cons, isAssignmentAt_push_size h, hold]
  cases kind.isAssignment <;> rfl

theorem openAssignment?_emit (text : String) (role : Role) :
    (cursor.emit text role).openAssignment? = cursor.openAssignment? := by
  rw [openAssignment?, openAssignment?, emit_path, funext (isAssignmentAt_emit text role)]

/-- The open assignment contains the node at hand. -/
theorem contains_current_of_openAssignment? (h : cursor.Placed) {a : Nat}
    (ha : cursor.openAssignment? = some a) :
    Contains cursor.method.parents a cursor.current :=
  h.ascends.contains (List.mem_of_find?_eq_some ha)

/-! ## Values -/

/-- A target that an assignment begins to await is settled by a later node, not by its own. -/
theorem settledTokens_awaitedIn (awaited : Awaited) (kind : Kind) (tokens : Array Token)
    (node : Nat) :
    settledTokens (awaitedIn awaited kind) tokens node = settledTokens awaited tokens node := by
  cases awaited with
  | nothing =>
    rw [awaitedIn]
    split <;> rfl
  | target => rfl
  | value target => rfl

/-- A new node is the value of the token that awaits one. -/
theorem valueOf?_push (kind : Kind) (callee : Option String) (x : Nat) :
    (cursor.push kind callee).method.valueOf? x =
      if cursor.awaited = .value x ∧ x < cursor.tokens.size then some cursor.nodes.size
      else cursor.method.valueOf? x := by
  change (cursor.push kind callee).tokens[x]?.bind Token.assignedFrom = _
  rw [push_tokens, settledTokens_awaitedIn]
  cases hawaited : cursor.awaited with
  | nothing => rfl
  | target => rfl
  | value target =>
    rw [settledTokens, Array.getElem?_modify]
    by_cases htarget : target = x
    · subst htarget
      rw [if_pos rfl, Option.bind_map]
      by_cases hlt : target < cursor.tokens.size
      · rw [if_pos ⟨rfl, hlt⟩, Array.getElem?_eq_getElem hlt]
        rfl
      · rw [if_neg fun h => hlt h.2, MethodGraph.valueOf?, method,
          Array.getElem?_eq_none (Nat.not_lt.mp hlt)]
        rfl
    · rw [if_neg htarget, if_neg fun h => htarget (Awaited.value.inj h.1)]
      rfl

/-- A new token has no value, and the others keep theirs. -/
theorem valueOf?_emit (text : String) (role : Role) (x : Nat) :
    (cursor.emit text role).method.valueOf? x = cursor.method.valueOf? x := by
  have hjoin (method : MethodGraph) :
      method.valueOf? x = (method.tokens.toList.map Token.assignedFrom)[x]?.join := by
    rw [MethodGraph.valueOf?, List.getElem?_map, Array.getElem?_toList]
    cases method.tokens[x]? <;> rfl
  rw [hjoin, hjoin]
  change ((cursor.emit text role).tokens.toList.map Token.assignedFrom)[x]?.join =
    (cursor.tokens.toList.map Token.assignedFrom)[x]?.join
  rw [emit_tokens, Array.toList_push, List.map_append, map_linkUse _ fun _ _ => rfl]
  rcases Nat.lt_trichotomy x (cursor.tokens.toList.map Token.assignedFrom).length with
    hlt | rfl | hgt
  · rw [List.getElem?_append_left hlt]
  · rw [List.map_singleton, List.getElem?_concat_length, List.getElem?_eq_none (Nat.le_refl _)]
    rfl
  · rw [List.getElem?_eq_none (by simpa using hgt), List.getElem?_eq_none (Nat.le_of_lt hgt)]

/-! ## Every move keeps the values sound -/

/-- The method made so far, emitted in the given way, has sound values, and what the cursor awaits
belongs to the innermost open assignment: either no name has been emitted inside it, or its target
has been and no node has come since. -/
structure Assigning (cursor : Cursor) (emissions : List Emission) : Prop where
  placed : cursor.Placed
  owners_eq : cursor.method.owners = emissions.map Emission.owner
  awaitsTarget : cursor.awaited = .target → ∃ a, cursor.openAssignment? = some a ∧
    ∀ e ∈ emissions, e.role = .identifier → ¬ Contains cursor.method.parents a e.owner
  awaitsValue : ∀ x, cursor.awaited = .value x → cursor.method.valueOf? x = none ∧
    ∃ a e, cursor.openAssignment? = some a ∧ IsTarget cursor.method.parents emissions a x e ∧
      e.nodeCount = cursor.nodes.size
  hasValue : ∀ x n, cursor.method.valueOf? x = some n →
    HasValue cursor.method.parents emissions x n
  node_inj : ∀ x y n, cursor.method.valueOf? x = some n → cursor.method.valueOf? y = some n → x = y

namespace Assigning

variable {emissions : List Emission}

theorem openMethod (builder : ClassBuilder) (signature : String) :
    (builder.openMethod signature).Assigning [] where
  placed := Placed.openMethod builder signature
  owners_eq := rfl
  awaitsTarget := fun h => by cases h
  awaitsValue := fun x h => by cases h
  hasValue := fun x n h => by cases h
  node_inj := fun x y n h => by cases h

theorem length_emissions (h : cursor.Assigning emissions) :
    emissions.length = cursor.tokens.size := by
  have hlength := congrArg List.length h.owners_eq
  rw [List.length_map, MethodGraph.length_owners] at hlength
  exact hlength.symm

theorem owner_lt (h : cursor.Assigning emissions) :
    ∀ e ∈ emissions, e.owner < cursor.method.parents.length := by
  intro e he
  rw [length_parents]
  refine h.placed.shaped.owner_lt e.owner ?_
  rw [h.owners_eq]
  exact List.mem_map_of_mem he

/-- A new node is the value of the target that awaits one. -/
theorem hasValue_new (h : cursor.Assigning emissions) {x : Nat} (hx : cursor.awaited = .value x) :
    HasValue (cursor.method.parents ++ [some cursor.current]) emissions x cursor.nodes.size := by
  obtain ⟨-, a, e, ha, htarget, hcount⟩ := h.awaitsValue x hx
  refine ⟨a, e, htarget.append h.placed.shaped.tree h.owner_lt _, hcount, ?_, ?_⟩
  · rw [List.length_append, length_parents]
    exact Nat.lt_succ_self _
  · refine isAbove_of_contains ?_ ((contains_current_of_openAssignment? h.placed ha).append _)
    rw [IsParent, ← length_parents, List.getElem?_concat_length]

/-- No token has had the new node as its value. -/
theorem valueOf?_ne_size (h : cursor.Assigning emissions) (x : Nat) :
    cursor.method.valueOf? x ≠ some cursor.nodes.size := by
  intro hvalue
  obtain ⟨a, e, -, -, hlt, -⟩ := h.hasValue x _ hvalue
  rw [length_parents] at hlt
  exact Nat.lt_irrefl _ hlt

/-- A target is awaited inside a new node if it was awaited, or if the node is an assignment: no
name has been emitted inside that one. -/
theorem awaitsTarget_push (h : cursor.Assigning emissions) {kind : Kind} {callee : Option String}
    (hawaited : (cursor.push kind callee).awaited = .target) :
    ∃ a, (cursor.push kind callee).openAssignment? = some a ∧
      ∀ e ∈ emissions, e.role = .identifier →
        ¬ Contains (cursor.push kind callee).method.parents a e.owner := by
  have htree := h.placed.shaped.tree
  rw [openAssignment?_push h.placed, parents_push]
  cases hkind : kind.isAssignment with
  | true =>
    refine ⟨cursor.nodes.size, rfl, fun e he _ hinside => ?_⟩
    have hlt := h.owner_lt e he
    have hle := htree.le_of_contains ((htree.contains_append_iff hlt _).mp hinside)
    rw [length_parents] at hlt
    exact Nat.not_lt.mpr hle hlt
  | false =>
    have hold : cursor.awaited = .target := by
      rw [push_awaited] at hawaited
      cases hcases : cursor.awaited with
      | nothing =>
        rw [hcases, awaitedIn, hkind] at hawaited
        cases hawaited
      | target => rfl
      | value x =>
        rw [hcases] at hawaited
        cases hawaited
    obtain ⟨a, ha, hnone⟩ := h.awaitsTarget hold
    refine ⟨a, ha, fun e he hname hinside => hnone e he hname ?_⟩
    exact (htree.contains_append_iff (h.owner_lt e he) _).mp hinside

/-- A push settles at most the target that awaits its value. -/
theorem push (h : cursor.Assigning emissions) (kind : Kind) (callee : Option String) :
    (cursor.push kind callee).Assigning emissions where
  placed := h.placed.push kind callee
  owners_eq := by
    rw [owners_push]
    exact h.owners_eq
  awaitsTarget := h.awaitsTarget_push
  awaitsValue := by
    intro x hawaited
    rw [push_awaited] at hawaited
    cases hin : awaitedIn cursor.awaited kind <;> rw [hin] at hawaited <;> cases hawaited
  hasValue := by
    intro x n hvalue
    rw [parents_push]
    rw [valueOf?_push] at hvalue
    split at hvalue
    · next hawaited =>
      cases hvalue
      exact h.hasValue_new hawaited.1
    · exact (h.hasValue x n hvalue).append h.placed.shaped.tree h.owner_lt _
  node_inj := by
    intro x y n hx hy
    rw [valueOf?_push] at hx hy
    split at hx <;> split at hy
    · next hawaited hawaited' => 
      exact Awaited.value.inj (hawaited.1.symm.trans hawaited'.1)
    · cases hx
      exact absurd hy (h.valueOf?_ne_size y)
    · cases hy
      exact absurd hx (h.valueOf?_ne_size x)
    · exact h.node_inj x y n hx hy

/-- A name that is emitted while a target is awaited is the target. -/
theorem isTarget_new (h : cursor.Assigning emissions) (hawaited : cursor.awaited = .target) :
    ∃ a, cursor.openAssignment? = some a ∧
      IsTarget cursor.method.parents
        (emissions ++ [cursor.emission .identifier]) a cursor.tokens.size
        (cursor.emission .identifier) := by
  obtain ⟨a, ha, hnone⟩ := h.awaitsTarget hawaited
  rw [← h.length_emissions]
  exact ⟨a, ha, IsTarget.new rfl ha (contains_current_of_openAssignment? h.placed ha) hnone⟩

/-- A token is a target if it is the first identifier inside an assignment. -/
theorem emit (h : cursor.Assigning emissions) (text : String) (role : Role) :
    (cursor.emit text role).Assigning (emissions ++ [cursor.emission role]) where
  placed := h.placed.emit text role
  owners_eq := by
    rw [owners_emit, h.owners_eq, List.map_append]
    rfl
  awaitsTarget := by
    intro hawaited
    rw [emit_awaited] at hawaited
    obtain ⟨hold, hrole⟩ : cursor.awaited = .target ∧ role ≠ .identifier := by
      cases hcases : cursor.awaited with
      | nothing =>
        rw [hcases] at hawaited
        cases hawaited
      | value x =>
        rw [hcases] at hawaited
        cases hawaited
      | target =>
        rw [hcases, awaitedAfter] at hawaited
        split at hawaited
        · cases hawaited
        · next hrole => exact ⟨rfl, hrole⟩
    obtain ⟨a, ha, hnone⟩ := h.awaitsTarget hold
    rw [openAssignment?_emit, parents_emit]
    refine ⟨a, ha, fun e he hname => ?_⟩
    rcases List.mem_append.mp he with he | he
    · exact hnone e he hname
    · cases List.mem_singleton.mp he
      exact absurd hname hrole
  awaitsValue := by
    intro x hawaited
    rw [emit_awaited] at hawaited
    rw [valueOf?_emit, openAssignment?_emit, parents_emit, size_emit_nodes]
    cases hcases : cursor.awaited with
    | nothing =>
      rw [hcases] at hawaited
      cases hawaited
    | value y =>
      rw [hcases] at hawaited
      cases hawaited
      obtain ⟨hnone, a, e, ha, htarget, hcount⟩ := h.awaitsValue x hcases
      exact ⟨hnone, a, e, ha, htarget.concat _, hcount⟩
    | target =>
      rw [hcases, awaitedAfter] at hawaited
      split at hawaited
      · next hrole =>
        cases hawaited
        subst hrole
        obtain ⟨a, ha, htarget⟩ := h.isTarget_new hcases
        refine ⟨?_, a, _, ha, htarget, rfl⟩
        rw [MethodGraph.valueOf?, method, Array.getElem?_size]
        rfl
      · cases hawaited
  hasValue := by
    intro x n hvalue
    rw [valueOf?_emit] at hvalue
    rw [parents_emit]
    exact (h.hasValue x n hvalue).concat _
  node_inj := by
    intro x y n hx hy
    rw [valueOf?_emit] at hx hy
    exact h.node_inj x y n hx hy

/-- What has been noted with the class does not matter. -/
theorem withBuilder (h : cursor.Assigning emissions) (builder : ClassBuilder) :
    Assigning { cursor with builder } emissions :=
  ⟨⟨h.placed.shaped, h.placed.ascends, h.placed.below⟩, h.owners_eq, h.awaitsTarget, h.awaitsValue,
    h.hasValue, h.node_inj⟩

/-- Leaving a node that is no assignment leaves the innermost open assignment as it is, and leaving
an assignment ends every wait. -/
theorem leave (h : cursor.Assigning emissions) {node : Nat} {path : List Nat}
    (hpath : cursor.path = node :: path) {next : Cursor} (hplaced : next.Placed)
    (hnext : next = { cursor with
      path
      awaited := if cursor.isAssignmentAt node then .nothing else cursor.awaited }) :
    next.Assigning emissions := by
  subst hnext
  have hopen (hnode : cursor.isAssignmentAt node = false) :
      path.find? cursor.isAssignmentAt = cursor.openAssignment? := by
    rw [openAssignment?, hpath, List.find?_cons, hnode]
  refine ⟨hplaced, h.owners_eq, fun hawaited => ?_, fun x hawaited => ?_, h.hasValue, h.node_inj⟩
  · dsimp only at hawaited
    split at hawaited
    · cases hawaited
    · next hnode =>
      obtain ⟨a, ha, hnone⟩ := h.awaitsTarget hawaited
      exact ⟨a, (hopen (Bool.not_eq_true _ ▸ hnode)).trans ha, hnone⟩
  · dsimp only at hawaited
    split at hawaited
    · cases hawaited
    · next hnode =>
      obtain ⟨hvalue, a, e, ha, htarget⟩ := h.awaitsValue x hawaited
      exact ⟨hvalue, a, e, (hopen (Bool.not_eq_true _ ▸ hnode)).trans ha, htarget⟩

/-- **Every move that can be made keeps the values sound.** -/
theorem move (h : cursor.Assigning emissions) {m : Move} {next : Cursor}
    (hm : cursor.move m = .ok next) :
    next.Assigning (emissions ++ cursor.emitted m) := by
  have hplaced := h.placed.move hm
  rcases move_cases hm with ⟨kind, rfl, rfl⟩ | ⟨kind, callee, rfl, rfl⟩ |
    ⟨rfl, node, path, hpath, hnext⟩ | ⟨text, role, rfl, rfl⟩
  · rw [emitted, List.append_nil]
    exact h.push kind none
  · rw [emitted, List.append_nil]
    exact (h.withBuilder _).push kind (some callee)
  · rw [emitted, List.append_nil]
    exact h.leave hpath hplaced hnext
  · exact h.emit text role

/-- A token keeps its value at every move. -/
theorem valueOf?_move (h : cursor.Assigning emissions) {m : Move} {next : Cursor}
    (hm : cursor.move m = .ok next) {x n : Nat} (hx : cursor.method.valueOf? x = some n) :
    next.method.valueOf? x = some n := by
  have hpush (other : Cursor) (kind : Kind) (callee : Option String)
      (hawaited : other.awaited = cursor.awaited) (hmethod : other.method = cursor.method) :
      (other.push kind callee).method.valueOf? x = some n := by
    rw [valueOf?_push, hmethod, hx, if_neg]
    rintro ⟨hvalue, -⟩
    -- a token that awaits its value has none
    rw [(h.awaitsValue x (hawaited ▸ hvalue)).1] at hx
    cases hx
  rcases move_cases hm with ⟨kind, rfl, rfl⟩ | ⟨kind, callee, rfl, rfl⟩ |
    ⟨rfl, node, path, hpath, rfl⟩ | ⟨text, role, rfl, rfl⟩
  · exact hpush cursor kind none rfl rfl
  · exact hpush _ kind (some callee) rfl rfl
  · exact hx
  · rw [valueOf?_emit]
    exact hx

/-- A move that cannot be made emits nothing and changes nothing. -/
theorem tryMove (h : cursor.Assigning emissions) (m : Move) :
    (cursor.tryMove m).Assigning (emissions ++ cursor.emitted m) := by
  rw [Cursor.tryMove]
  split
  · next next hm => exact h.move hm
  · next fault hm =>
    cases m with
    | ascend =>
      rw [emitted, List.append_nil]
      exact h
    | descend kind => cases hm
    | descendCall kind callee => cases hm
    | emit text role => cases hm

/-- Moves keep what is known of targets and values. -/
theorem tryMoves (h : cursor.Assigning emissions) (moves : List Move) :
    (cursor.tryMoves moves).Assigning (emissions ++ cursor.emissions moves) := by
  induction moves generalizing cursor emissions with
  | nil =>
    rw [Cursor.emissions, List.append_nil]
    exact h
  | cons m moves ih =>
    rw [Cursor.emissions, ← List.append_assoc]
    exact ih (h.tryMove m)

/-- A value that has been noted is not changed any more. -/
theorem valueOf?_tryMoves (h : cursor.Assigning emissions) (moves : List Move) {x n : Nat}
    (hx : cursor.method.valueOf? x = some n) :
    (cursor.tryMoves moves).method.valueOf? x = some n := by
  induction moves generalizing cursor emissions with
  | nil => exact hx
  | cons m moves ih =>
    refine ih (h.tryMove m) ?_
    rw [Cursor.tryMove]
    split
    · next next hm => exact h.valueOf?_move hm hx
    · exact hx

/-- All that is noted of targets and values is right. -/
theorem soundlyAssigned (h : cursor.Assigning emissions) :
    cursor.method.SoundlyAssigned emissions where
  owners_eq := h.owners_eq
  hasValue := h.hasValue
  node_inj := h.node_inj
  assignment_inj := by
    intro x y e f hx hy he hf heq
    obtain ⟨m, hm⟩ := Option.isSome_iff_exists.mp hx
    obtain ⟨n, hn⟩ := Option.isSome_iff_exists.mp hy
    obtain ⟨a, e', htarget, -⟩ := h.hasValue x m hm
    obtain ⟨b, f', htarget', -⟩ := h.hasValue y n hn
    obtain rfl : e' = e := Option.some.inj (htarget.emitted.symm.trans he)
    obtain rfl : f' = f := Option.some.inj (htarget'.emitted.symm.trans hf)
    rw [htarget.innermost, htarget'.innermost, Option.some.injEq] at heq
    subst heq
    exact htarget.unique htarget'

end Assigning

/-- **The values of a method are those of its assignments.**  After any moves of a cursor, a token
with a value is a name, the first one inside the innermost assignment that was open when it was
emitted; its value is the first node after the token, and below the assignment.  No two tokens share
a node or an assignment, and no further moves change the value of a token that has one. -/
theorem soundlyAssigned_tryMoves (builder : ClassBuilder) (signature : String)
    (moves : List Move) :
    ((builder.openMethod signature).tryMoves moves).method.SoundlyAssigned
        ((builder.openMethod signature).emissions moves) ∧
      ∀ (more : List Move) (x n : Nat),
        ((builder.openMethod signature).tryMoves moves).method.valueOf? x = some n →
        ((builder.openMethod signature).tryMoves (moves ++ more)).method.valueOf? x = some n := by
  have h := (Assigning.openMethod builder signature).tryMoves moves
  rw [List.nil_append] at h
  refine ⟨h.soundlyAssigned, fun more x n hx => ?_⟩
  rw [Cursor.tryMoves, List.foldl_append]
  exact h.valueOf?_tryMoves more hx

/-- In a declarator the name is given the node of the initializer. -/
example :
    ((({ name := "C" } : ClassBuilder).openMethod "m/0").tryMoves
      [.descend .variableDeclarationFragment, .emit "x" .identifier, .emit "=" .plain,
        .descend .infixExpression, .emit "a" .identifier]).method.valueOf? 0 = some 2 := by
  decide +kernel

end Cursor

end CodeGraph
