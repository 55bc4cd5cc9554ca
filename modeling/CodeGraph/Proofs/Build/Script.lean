/-
# What a script makes

The script of a forest makes the rows and the leaves of the pruned forest: every node and every token
in document order, each below the node that directly contains it (`Cursor.Along.ofScript`).
-/
import CodeGraph.Proofs.Build.Drive
import CodeGraph.Proofs.Tree.Rows

namespace CodeGraph

/-! ## Rows and leaves of a method -/

/-- The row of a node. -/
def NonTerminal.row (node : NonTerminal) : Row := ⟨node.kind, node.callee, node.parent⟩

/-- The rows of the nodes of a method. -/
def MethodGraph.rows (method : MethodGraph) : List Row := method.nodes.toList.map NonTerminal.row

/-- The token is made from the leaf. -/
structure Leaf.Fits (leaf : Leaf) (token : Token) : Prop where
  text_eq : token.text = leaf.text
  owner_eq : token.owner = leaf.owner
  symbol_iff : token.symbol.isSome = true ↔ leaf.role = .identifier
  words : token.vocabulary ≠ [] → leaf.role = .identifier ∨ leaf.role = .literal

/-! ## Scripts node by node -/

namespace Forest

/-- What one node adds to a script. -/
inductive Plans (kind : Kind) (signature : Option String) (children rest : Forest) :
    List Action → Prop
  | defer (hkind : kind = .methodDeclaration) :
      Plans kind signature children rest (.defer :: rest.script)
  | passOver (hmethod : kind ≠ .methodDeclaration) (hkind : kind.isTypeDeclaration = true) :
      Plans kind signature children rest (.passOver kind :: rest.script)
  | refuse (hkind : kind = .methodInvocation) (hsignature : signature = none) :
      Plans kind signature children rest (.refuse kind :: rest.script)
  | enter (hmethod : kind ≠ .methodDeclaration) (hkind : kind.isTypeDeclaration = false)
      (hcall : signature = none → kind ≠ .methodInvocation) (m : Cursor.Move)
      (hmove : ∀ cursor : Cursor, ∃ builder,
        cursor.move m = .ok (Cursor.push { cursor with builder } kind signature)) :
      Plans kind signature children rest
        (.move m :: (children.script ++ .move .ascend :: rest.script))

/-- A script goes node by node. -/
theorem plans_script (kind : Kind) (name signature : Option String) (children rest : Forest) :
    Plans kind signature children rest (node kind name signature children rest).script := by
  rw [script.eq_def]
  dsimp only
  by_cases hmethod : kind = .methodDeclaration
  · rw [if_pos hmethod]
    exact .defer hmethod
  rw [if_neg hmethod]
  by_cases htype : kind.isTypeDeclaration = true
  · rw [if_pos htype]
    exact .passOver hmethod htype
  rw [if_neg htype]
  rw [Bool.not_eq_true] at htype
  cases signature with
  | some callee => exact .enter hmethod htype (fun h => (by cases h)) _ fun cursor => ⟨_, rfl⟩
  | none =>
    dsimp only
    by_cases hcall : kind = .methodInvocation
    · rw [if_pos hcall]
      exact .refuse hcall rfl
    · rw [if_neg hcall]
      exact .enter hmethod htype (fun _ => hcall) _ fun cursor => ⟨cursor.builder, rfl⟩

end Forest

/-! ## Tokens and leaves -/

/-- A token without its links to other things. -/
def Token.alone (token : Token) : Token :=
  { token with nextUse := none, assignedFrom := none, returnsTo := [] }

/-- Links do not matter for the leaf of a token. -/
theorem Leaf.Fits.relink {leaves : List Leaf} {tokens others : List Token}
    (h : List.Forall₂ Leaf.Fits leaves tokens)
    (heq : others.map Token.alone = tokens.map Token.alone) :
    List.Forall₂ Leaf.Fits leaves others := by
  have halone : List.Forall₂ Leaf.Fits leaves (tokens.map Token.alone) :=
    List.forall₂_map_right_iff.mpr (h.imp fun _ _ hfit => ⟨hfit.1, hfit.2, hfit.3, hfit.4⟩)
  rw [← heq] at halone
  exact (List.forall₂_map_right_iff.mp halone).imp fun _ _ hfit =>
    ⟨hfit.1, hfit.2, hfit.3, hfit.4⟩

namespace Cursor

variable {cursor : Cursor}

/-- Moves that succeed begin with one that does. -/
theorem exists_of_foldlM_cons {m : Move} {moves : List Move} {last : Cursor}
    (h : (m :: moves).foldlM move cursor = .ok last) :
    ∃ next, cursor.move m = .ok next ∧ moves.foldlM move next = .ok last := by
  rw [List.foldlM_cons] at h
  rcases hm : cursor.move m with fault | next
  · rw [hm] at h
    cases h
  · rw [hm] at h
    exact ⟨next, rfl, h⟩

/-- Moves that succeed can be made in two parts. -/
theorem exists_of_foldlM_append {before after : List Move} {last : Cursor}
    (h : (before ++ after).foldlM move cursor = .ok last) :
    ∃ middle, before.foldlM move cursor = .ok middle ∧ after.foldlM move middle = .ok last := by
  rw [List.foldlM_append] at h
  rcases hmiddle : before.foldlM move cursor with fault | middle
  · rw [hmiddle] at h
    cases h
  · rw [hmiddle] at h
    exact ⟨middle, rfl, h⟩

/-- The token that is added for a text is made from its leaf. -/
theorem fits_emit (cursor : Cursor) (text : String) (role : Role) :
    Leaf.Fits ⟨text, role, cursor.current⟩
      { text, owner := cursor.current, symbol := (symbolOf cursor.symbols text role).2
        vocabulary := (wordsOf cursor.builder text role).2 } where
  text_eq := rfl
  owner_eq := rfl
  symbol_iff := by
    rw [symbolOf]
    cases role with
    | identifier => exact ⟨fun _ => rfl, fun _ => rfl⟩
    | plain => constructor <;> (intro h; cases h)
    | literal => constructor <;> (intro h; cases h)
  words := by
    cases role with
    | identifier => exact fun _ => Or.inl rfl
    | literal => exact fun _ => Or.inr rfl
    | plain => exact fun h => absurd rfl h

/-! ## Rows and leaves of a script -/

theorem rows_push (kind : Kind) (callee : Option String) :
    (cursor.push kind callee).method.rows =
      cursor.method.rows ++ [⟨kind, callee, some cursor.current⟩] := by
  show ((cursor.push kind callee).nodes).toList.map NonTerminal.row = _
  rw [push_nodes, adopt, map_toList_modify NonTerminal.row, Array.toList_push, List.map_append]
  · rfl
  · exact fun _ => rfl

theorem rows_emit (text : String) (role : Role) :
    (cursor.emit text role).method.rows = cursor.method.rows := by
  show ((cursor.emit text role).nodes).toList.map NonTerminal.row = _
  rw [emit_nodes, map_toList_modify NonTerminal.row]
  · rfl
  · exact fun _ => rfl

theorem length_rows : cursor.method.rows.length = cursor.nodes.size := by
  rw [MethodGraph.rows, List.length_map]
  exact Array.length_toList

/-- The cursor has gone on through a forest below the node at hand. -/
structure Along (cursor : Cursor) (forest : Forest) (last : Cursor) : Prop where
  path_eq : last.path = cursor.path
  signature_eq : last.signature = cursor.signature
  rows_eq : last.method.rows =
    cursor.method.rows ++ forest.prune.rows cursor.current cursor.nodes.size
  leaves_fit : ∀ leaves, List.Forall₂ Leaf.Fits leaves cursor.tokens.toList →
    List.Forall₂ Leaf.Fits (leaves ++ forest.prune.leaves cursor.current cursor.nodes.size)
      last.tokens.toList

namespace Along

variable {last : Cursor} {rest : Forest}

theorem nil (cursor : Cursor) : cursor.Along .nil cursor where
  path_eq := rfl
  signature_eq := rfl
  rows_eq := (List.append_nil _).symm
  leaves_fit := fun leaves hfit => by
    rw [Forest.prune, Forest.leaves, List.append_nil]
    exact hfit

theorem size_eq {forest : Forest} (h : cursor.Along forest last) :
    last.nodes.size = cursor.nodes.size + forest.prune.nodeCount := by
  rw [← length_rows, h.rows_eq, List.length_append, length_rows, Forest.length_rows]

/-- A token, and then the rest. -/
theorem emit {text : String} {role : Role} (h : (cursor.emit text role).Along rest last) :
    cursor.Along (.token text role rest) last where
  path_eq := by
    rw [h.path_eq, emit_path]
  signature_eq := by
    rw [h.signature_eq, emit_signature]
  rows_eq := by
    rw [h.rows_eq, rows_emit, emit_current, size_emit_nodes]
    rfl
  leaves_fit := by
    intro leaves hfit
    have hlinked : List.Forall₂ Leaf.Fits leaves
        (linkUse cursor.tokens text cursor.tokens.size).toList :=
      Leaf.Fits.relink hfit (map_linkUse Token.alone (fun _ _ => rfl) _ _ _)
    have hemit : List.Forall₂ Leaf.Fits (leaves ++ [⟨text, role, cursor.current⟩])
        (cursor.emit text role).tokens.toList := by
      rw [emit_tokens, Array.toList_push]
      exact List.rel_append hlinked (.cons (cursor.fits_emit text role) .nil)
    have hlast := h.leaves_fit _ hemit
    rw [emit_current, size_emit_nodes, List.append_assoc] at hlast
    exact hlast

/-- A node that is passed over, and then the rest. -/
theorem skip {kind : Kind} {name signature : Option String} {children : Forest}
    (hkind : kind = .methodDeclaration ∨ kind.isTypeDeclaration = true)
    (h : cursor.Along rest last) :
    cursor.Along (.node kind name signature children rest) last := by
  have hprune : (Forest.node kind name signature children rest).prune = rest.prune := by
    rw [Forest.prune, if_pos hkind]
  refine ⟨h.path_eq, h.signature_eq, ?_, ?_⟩
  · rw [hprune]
    exact h.rows_eq
  · rw [hprune]
    exact h.leaves_fit

/-- A node with what it contains, and then the rest. -/
theorem node {kind : Kind} {name signature : Option String} {children : Forest}
    {builder : ClassBuilder} {deep up : Cursor}
    (hkind : ¬ (kind = .methodDeclaration ∨ kind.isTypeDeclaration = true))
    (hdeep : (Cursor.push { cursor with builder } kind signature).Along children deep)
    (hup : deep.ascend = .ok up) (h : up.Along rest last) :
    cursor.Along (.node kind name signature children rest) last := by
  have hprune : (Forest.node kind name signature children rest).prune =
      .node kind name signature children.prune rest.prune := by
    rw [Forest.prune, if_neg hkind]
  -- the way up leads back to where the node has been entered
  obtain ⟨node, path, hpath, hup⟩ := deep.ascend_eq_ok hup
  have hdeepPath := hdeep.path_eq
  rw [hpath, push_path, List.cons.injEq] at hdeepPath
  obtain ⟨-, rfl⟩ := hdeepPath
  have hdeepSize : deep.nodes.size = cursor.nodes.size + 1 + children.prune.nodeCount := by
    rw [hdeep.size_eq, size_push_nodes]
  have hcurrent : up.current = cursor.current := by
    rw [hup]
    rfl
  have hsize : up.nodes.size = cursor.nodes.size + 1 + children.prune.nodeCount := by
    rw [hup]
    exact hdeepSize
  refine ⟨?_, ?_, ?_, fun leaves hfit => ?_⟩
  · rw [h.path_eq, hup]
  · rw [h.signature_eq, hup]
    show deep.signature = _
    rw [hdeep.signature_eq, push_signature]
  · have hrows : up.method.rows = deep.method.rows := by
      rw [hup]
      rfl
    rw [h.rows_eq, hrows, hdeep.rows_eq, rows_push, push_current, size_push_nodes, hcurrent, hsize,
      hprune, List.append_assoc, List.append_assoc]
    rfl
  · -- a new node may be noted as the value of a token, which is still made from its leaf
    have hpush : List.Forall₂ Leaf.Fits leaves
        (Cursor.push { cursor with builder } kind signature).tokens.toList := by
      rw [push_tokens]
      exact Leaf.Fits.relink hfit (map_settledTokens Token.alone (fun _ _ => rfl) _ _ _)
    have hup' : List.Forall₂ Leaf.Fits
        (leaves ++ children.prune.leaves cursor.nodes.size (cursor.nodes.size + 1))
        up.tokens.toList := by
      have hdeepFit := hdeep.leaves_fit leaves hpush
      rw [push_current, size_push_nodes] at hdeepFit
      rw [hup]
      exact hdeepFit
    have hlast := h.leaves_fit _ hup'
    rw [hcurrent, hsize, List.append_assoc] at hlast
    rw [hprune]
    exact hlast

/-- What is claimed of a forest: its script, if it refuses nothing, leads along it. -/
def Holds (forest : Forest) : Prop :=
  ∀ {cursor last : Cursor}, (∀ kind, Action.refuse kind ∉ forest.script) →
    (Action.moves forest.script).foldlM Cursor.move cursor = .ok last → cursor.Along forest last

/-- The script of a node goes down, through its children, up, and on. -/
theorem ofBody {kind : Kind} {name signature : Option String} {children : Forest}
    {builder : ClassBuilder} {m : Move} {body : List Action}
    (hkind : ¬ (kind = .methodDeclaration ∨ kind.isTypeDeclaration = true))
    (hchildren : Holds children) (hrest : Holds rest)
    (hbody : body = .move m :: (children.script ++ .move .ascend :: rest.script))
    (hmove : cursor.move m = .ok (Cursor.push { cursor with builder } kind signature))
    (hclear : ∀ kind, Action.refuse kind ∉ body)
    (h : (Action.moves body).foldlM Cursor.move cursor = .ok last) :
    cursor.Along (.node kind name signature children rest) last := by
  subst hbody
  have hmoves : Action.moves (.move m :: (children.script ++ .move .ascend :: rest.script)) =
      m :: (Action.moves children.script ++ .ascend :: Action.moves rest.script) := by
    rw [Action.moves, List.filterMap_cons, List.filterMap_append]
    rfl
  simp only [List.mem_cons, List.mem_append, not_or] at hclear
  -- the run is cut at the two places where the cursor enters and leaves the node
  rw [hmoves] at h
  obtain ⟨start, hstart, hinside⟩ := exists_of_foldlM_cons h
  obtain ⟨deep, hdeep, hbehind⟩ := exists_of_foldlM_append hinside
  obtain ⟨up, hup, hlast⟩ := exists_of_foldlM_cons hbehind
  obtain rfl := Except.ok.inj (hmove.symm.trans hstart)
  exact node hkind (hchildren (fun kind => (hclear kind).2.1) hdeep) hup
    (hrest (fun kind => (hclear kind).2.2.2) hlast)

/-- **The script of a forest makes its nodes and tokens in document order.** -/
theorem ofScript (forest : Forest) : Holds forest := by
  induction forest with
  | nil =>
    intro cursor last _ h
    cases h
    exact nil cursor
  | token text role rest ih =>
    intro cursor last hclear h
    exact (ih (fun kind hmem => hclear kind (List.mem_cons_of_mem _ hmem)) h).emit
  | node kind name signature children rest ihChildren ihRest =>
    intro cursor last hclear h
    have hplans := Forest.plans_script kind name signature children rest
    have hlater (action : Action) (hnone : ∀ kind, Action.refuse kind ∉ action :: rest.script) :
        ∀ kind, Action.refuse kind ∉ rest.script :=
      fun kind hmem => hnone kind (List.mem_cons_of_mem action hmem)
    generalize (Forest.node kind name signature children rest).script = script at hplans hclear h
    cases hplans with
    | defer hkind => exact (ihRest (hlater _ hclear) h).skip (Or.inl hkind)
    | passOver _ hkind => exact (ihRest (hlater _ hclear) h).skip (Or.inr hkind)
    | refuse => exact absurd List.mem_cons_self (hclear kind)
    | enter hmethod htype _ m hmove =>
      obtain ⟨builder, hmove⟩ := hmove cursor
      have hkind : ¬ (kind = .methodDeclaration ∨ kind.isTypeDeclaration = true) := by
        rw [not_or, htype]
        exact ⟨hmethod, Bool.false_ne_true⟩
      exact ofBody hkind ihChildren ihRest rfl hmove hclear h

end Along

end Cursor

end CodeGraph
