/-
# Moves that check every number

A cursor refers to nodes and tokens by number.  A checked cursor makes the same moves, but it stops
when it looks up a number that is that of nothing, and it does not search for the latest token of a
text: it keeps the numbers of these tokens in a table and trusts the table.  A checked cursor never
stops and always stands where the cursor does (`CheckedCursor.Ready.exists_tryMoves?`), so no
move reaches beyond the nodes and tokens there are.
-/
import CodeGraph.Proofs.Build.Links

namespace CodeGraph

/-- Changes the member of the given number, which has to be there. -/
def modify? {α : Type} (xs : Array α) (i : Nat) (f : α → α) : Option (Array α) :=
  if i < xs.size then some (xs.modify i f) else none

theorem modify?_eq_some {α : Type} {xs : Array α} {i : Nat} (hi : i < xs.size) (f : α → α) :
    modify? xs i f = some (xs.modify i f) :=
  if_pos hi

/-! ## Moves -/

namespace Cursor

/-- Takes a new node as the value that is awaited. The token that awaits it has to be there. -/
def settleValue? (cursor : Cursor) (node : Nat) : Option Cursor :=
  match cursor.awaited with
  | .value target => do
    let tokens ← modify? cursor.tokens target fun token =>
      { token with assignedFrom := some node }
    return { cursor with tokens, awaited := .nothing }
  | _ => some cursor

/-- Makes a node and goes down into it. Its parent has to be there. -/
def push? (cursor : Cursor) (kind : Kind) (callee : Option String) : Option Cursor := do
  let cursor := cursor.startAssignment kind
  let parent := cursor.current
  let v := cursor.nodes.size
  let nodes ← modify? (cursor.nodes.push { kind, parent := some parent, callee }) parent
    fun node => { node with children := node.children ++ [v] }
  { cursor with nodes, path := v :: cursor.path }.settleValue? v

/-- Goes up to the parent of the node at hand, which has to be there. At the root nothing
happens. -/
def ascend? (cursor : Cursor) : Option Cursor :=
  match cursor.path with
  | [] => some cursor
  | v :: path => do
    let node ← cursor.nodes[v]?
    return { cursor with
      path
      awaited := if node.kind.isAssignment then .nothing else cursor.awaited }

/-- Adds a token to the node at hand. The node has to be there, and so has the previous token with
the same text, if there is said to be one. -/
def emit? (cursor : Cursor) (previous? : Option Nat) (text : String) (role : Role) :
    Option Cursor := do
  let owner := cursor.current
  let i := cursor.tokens.size
  let (cursor, vocabulary) := cursor.noteWords text role
  let (cursor, symbol) := cursor.noteName text role
  let tokens ← match previous? with
    | some previous => modify? cursor.tokens previous fun token => { token with nextUse := some i }
    | none => some cursor.tokens
  let nodes ← modify? cursor.nodes owner fun node => { node with tokens := node.tokens ++ [i] }
  return { cursor with tokens := tokens.push { text, owner, symbol, vocabulary }, nodes }

end Cursor

/-- A cursor and, for each text, the number of the latest token with that text. -/
structure CheckedCursor where
  cursor : Cursor
  latest : String → Option Nat

namespace CheckedCursor

/-- Begins a method. -/
def openMethod (builder : ClassBuilder) (signature : String) : CheckedCursor :=
  ⟨builder.openMethod signature, fun _ => none⟩

/-- Makes a move if it can be made, or stops at a number of nothing. -/
def tryMove? (checked : CheckedCursor) : Cursor.Move → Option CheckedCursor
  | .descend kind => do
    let cursor ← checked.cursor.push? kind none
    return { checked with cursor }
  | .descendCall kind callee => do
    let builder := checked.cursor.builder.noteCall checked.cursor.signature callee
    let cursor ← { checked.cursor with builder }.push? kind (some callee)
    return { checked with cursor }
  | .ascend => do
    let cursor ← checked.cursor.ascend?
    return { checked with cursor }
  | .emit text role => do
    let cursor ← checked.cursor.emit? (checked.latest text) text role
    return ⟨cursor, Function.update checked.latest text (some checked.cursor.tokens.size)⟩

/-- Makes all the moves that can be made, or stops at a number of nothing. -/
def tryMoves? (checked : CheckedCursor) (moves : List Cursor.Move) : Option CheckedCursor :=
  moves.foldlM tryMove? checked

end CheckedCursor

/-! ## The table of latest tokens -/

/-- The texts of tokens, each with the next use of its token. -/
def usesOf (tokens : Array Token) : List (String × Option Nat) :=
  tokens.toList.map fun token => (token.text, token.nextUse)

/-- The uses are those of the tokens, one by one. -/
theorem getElem?_usesOf (tokens : Array Token) (i : Nat) :
    (usesOf tokens)[i]? = tokens[i]?.map fun token => (token.text, token.nextUse) := by
  rw [usesOf, List.getElem?_map, Array.getElem?_toList]

/-- The latest token of a text is the one that has no next use. -/
def Tracks (latest : String → Option Nat) (tokens : Array Token) : Prop :=
  ∀ (text : String) (i : Nat), latest text = some i ↔ (usesOf tokens)[i]? = some (text, none)

namespace Tracks

variable {latest : String → Option Nat} {tokens : Array Token}

/-- Nothing is tracked where there are no tokens. -/
theorem empty : Tracks (fun _ => none) #[] := by
  intro text i
  simp [usesOf]

/-- The latest token is one of the tokens. -/
theorem lt_size (h : Tracks latest tokens) {text : String} {i : Nat}
    (hi : latest text = some i) : i < tokens.size := by
  have huse := (h text i).mp hi
  rw [getElem?_usesOf, Option.map_eq_some_iff] at huse
  obtain ⟨token, htoken, -⟩ := huse
  exact (Array.getElem?_eq_some_iff.mp htoken).1

/-- Only texts and next uses matter. -/
theorem congr (h : Tracks latest tokens) {more : Array Token}
    (huses : usesOf more = usesOf tokens) : Tracks latest more := by
  intro text i
  rw [huses]
  exact h text i

/-- The search for a token without a next use finds the latest token. -/
theorem findIdx?_eq (h : Tracks latest tokens) (text : String) :
    (tokens.findIdx? fun token => token.text == text && token.nextUse.isNone) = latest text := by
  have hopen : ∀ (i : Nat) (token : Token), tokens[i]? = some token →
      ((token.text == text && token.nextUse.isNone) = true ↔ latest text = some i) := by
    intro i token htoken
    rw [h text i, getElem?_usesOf, htoken, Bool.and_eq_true, beq_iff_eq, Option.isNone_iff_eq_none]
    simp
  cases hfound : tokens.findIdx? fun token => token.text == text && token.nextUse.isNone with
  | some i =>
    obtain ⟨hlt, hp, -⟩ := Array.findIdx?_eq_some_iff_getElem.mp hfound
    exact ((hopen i _ (Array.getElem?_eq_getElem hlt)).mp hp).symm
  | none =>
    rw [Array.findIdx?_eq_none_iff] at hfound
    cases hlatest : latest text with
    | none => rfl
    | some i =>
      have hlt := h.lt_size hlatest
      have hp := (hopen i _ (Array.getElem?_eq_getElem hlt)).mpr hlatest
      rw [hfound _ (Array.getElem_mem hlt)] at hp
      cases hp

/-- Linking a new use changes the token that the table gives. -/
theorem linkUse_eq (h : Tracks latest tokens) (text : String) (next : Nat) :
    Cursor.linkUse tokens text next = match latest text with
      | some i => tokens.modify i fun token => { token with nextUse := some next }
      | none => tokens := by
  have hfind := h.findIdx?_eq text
  cases hlatest : latest text with
  | none =>
    rw [hlatest] at hfind
    simp only [Cursor.linkUse, hfind]
  | some i =>
    rw [hlatest] at hfind
    simp only [Cursor.linkUse, hfind]

/-- After a new use has been linked, the tokens without a next use are those of other texts. -/
theorem usesOf_linkUse (h : Tracks latest tokens) (text other : String) (next i : Nat) :
    (usesOf (Cursor.linkUse tokens text next))[i]? = some (other, none) ↔
      (usesOf tokens)[i]? = some (other, none) ∧ other ≠ text := by
  have hlatest := h text
  rw [h.linkUse_eq, getElem?_usesOf]
  cases hfound : latest text with
  | none =>
    simp only [hfound] at hlatest ⊢
    rw [← getElem?_usesOf]
    constructor
    · intro huse
      refine ⟨huse, ?_⟩
      rintro rfl
      cases (hlatest i).mpr huse
    · exact And.left
  | some k =>
    simp only [hfound, Option.some.injEq] at hlatest ⊢
    rw [Array.getElem?_modify]
    by_cases hki : k = i
    · -- the token that has been linked is the only one of its text
      have huse := (hlatest i).mp hki
      rw [if_pos hki, Option.map_map, huse]
      rw [getElem?_usesOf, Option.map_eq_some_iff] at huse
      obtain ⟨token, htoken, -⟩ := huse
      rw [htoken]
      simp only [Option.map_some, Function.comp_apply, Option.some.injEq, Prod.mk.injEq]
      constructor
      · rintro ⟨-, hnone⟩
        cases hnone
      · rintro ⟨⟨rfl, -⟩, hne⟩
        exact absurd rfl hne
    · rw [if_neg hki, ← getElem?_usesOf]
      constructor
      · intro huse
        refine ⟨huse, ?_⟩
        rintro rfl
        exact hki ((hlatest i).mpr huse)
      · exact And.left

/-- A new token is the latest of its text. -/
theorem emit (h : Tracks latest tokens) (token : Token) (hnext : token.nextUse = none) :
    Tracks (Function.update latest token.text (some tokens.size))
      ((Cursor.linkUse tokens token.text tokens.size).push token) := by
  intro other i
  have hget : (usesOf ((Cursor.linkUse tokens token.text tokens.size).push token))[i]? =
      if i = tokens.size then some (token.text, none)
      else (usesOf (Cursor.linkUse tokens token.text tokens.size))[i]? := by
    rw [getElem?_usesOf, Array.getElem?_push, Cursor.size_linkUse]
    split
    · rw [Option.map_some, hnext]
    · rw [getElem?_usesOf]
  rw [hget]
  by_cases hother : other = token.text
  · subst hother
    rw [Function.update_self, Option.some.injEq]
    by_cases hi : i = tokens.size
    · simp [hi]
    · rw [if_neg hi, h.usesOf_linkUse]
      simp [Ne.symm hi]
  · rw [Function.update_of_ne hother, h other i]
    by_cases hi : i = tokens.size
    · -- the latest token of another text is not the new one
      rw [if_pos hi, hi, ← h other tokens.size]
      constructor
      · intro hlatest
        exact absurd (h.lt_size hlatest) (Nat.lt_irrefl _)
      · intro heq
        cases heq
        exact absurd rfl hother
    · rw [if_neg hi, h.usesOf_linkUse]
      simp [hother]

end Tracks

/-! ## Checked moves never stop -/

namespace Cursor

variable {cursor : Cursor}

theorem settleValue?_eq (h : ∀ target, cursor.awaited = .value target → target < cursor.tokens.size)
    (node : Nat) : cursor.settleValue? node = some (cursor.settleValue node) := by
  rw [settleValue?, settleValue]
  cases hawaited : cursor.awaited with
  | nothing => rfl
  | target => rfl
  | value target =>
    simp only [modify?_eq_some (h target hawaited)]
    rfl

/-- The start of an assignment awaits no value. -/
theorem awaited_lt_startAssignment (h : cursor.Linked) (kind : Kind) {target : Nat}
    (htarget : (cursor.startAssignment kind).awaited = .value target) :
    target < cursor.tokens.size := by
  apply h.awaited_lt target
  rw [startAssignment_eq] at htarget
  cases hawaited : cursor.awaited with
  | nothing =>
    simp only [hawaited, awaitedIn] at htarget
    split at htarget <;> cases htarget
  | target =>
    simp only [hawaited] at htarget
    cases htarget
  | value i =>
    simp only [hawaited] at htarget
    exact htarget

theorem push?_eq (hplaced : cursor.Placed) (hlinked : cursor.Linked) (kind : Kind)
    (callee : Option String) : cursor.push? kind callee = some (cursor.push kind callee) := by
  have hstarted := cursor.startAssignment_eq kind
  have hnodes : (cursor.startAssignment kind).nodes = cursor.nodes := by rw [hstarted]
  have htokens : (cursor.startAssignment kind).tokens = cursor.tokens := by rw [hstarted]
  have hcurrent : (cursor.startAssignment kind).current = cursor.current := by rw [hstarted]; rfl
  rw [push?, push, modify?_eq_some]
  · apply settleValue?_eq
    intro target htarget
    rw [htokens]
    exact awaited_lt_startAssignment hlinked kind htarget
  · rw [hcurrent, hnodes, Array.size_push]
    exact Nat.lt_succ_of_lt (current_lt hplaced)

theorem ascend?_eq (hplaced : cursor.Placed) : cursor.ascend? = some (cursor.tryMove .ascend) := by
  rw [ascend?, tryMove, move, ascend]
  cases hpath : cursor.path with
  | nil => rfl
  | cons v path =>
    have hlt := hplaced.ascends.lt_length (v := v) (by rw [hpath]; exact List.mem_cons_self)
    rw [length_parents] at hlt
    simp only [isAssignmentAt, Array.getElem?_eq_getElem hlt]
    rfl

theorem emit?_eq (hplaced : cursor.Placed) {latest : String → Option Nat}
    (htracks : Tracks latest cursor.tokens) (text : String) (role : Role) :
    cursor.emit? (latest text) text role = some (cursor.emit text role) := by
  have hlinkUse := htracks.linkUse_eq text cursor.tokens.size
  rw [emit?, emit_eq, noteWords_eq, hlinkUse]
  simp only [noteName_eq]
  cases hlatest : latest text with
  | none =>
    simp only [modify?_eq_some (current_lt hplaced)]
    rfl
  | some previous =>
    simp only [modify?_eq_some (htracks.lt_size hlatest), modify?_eq_some (current_lt hplaced)]
    rfl

end Cursor

namespace CheckedCursor

/-- What a checked cursor needs for its next move. -/
structure Ready (checked : CheckedCursor) : Prop where
  placed : checked.cursor.Placed
  linked : checked.cursor.Linked
  tracks : Tracks checked.latest checked.cursor.tokens

variable {checked : CheckedCursor}

theorem Ready.openMethod (builder : ClassBuilder) (signature : String) :
    (openMethod builder signature).Ready :=
  ⟨Cursor.Placed.openMethod builder signature, Cursor.Linked.openMethod builder signature,
    Tracks.empty⟩

/-- A new node changes neither texts nor next uses. -/
theorem Ready.push (h : checked.Ready) (kind : Kind) (callee : Option String) :
    Ready ⟨checked.cursor.push kind callee, checked.latest⟩ where
  placed := h.placed.push kind callee
  linked := h.linked.push kind callee
  tracks := by
    apply h.tracks.congr
    rw [Cursor.push_tokens]
    exact Cursor.map_settledTokens _ (fun _ _ => rfl) _ _ _

/-- **A checked move does not stop, and does what the move does.** -/
theorem Ready.exists_tryMove? (h : checked.Ready) (m : Cursor.Move) :
    ∃ latest, checked.tryMove? m = some ⟨checked.cursor.tryMove m, latest⟩ ∧
      Ready ⟨checked.cursor.tryMove m, latest⟩ := by
  obtain ⟨cursor, latest⟩ := checked
  have hplaced : cursor.Placed := h.placed
  have hlinked : cursor.Linked := h.linked
  have htracks : Tracks latest cursor.tokens := h.tracks
  cases m with
  | descend kind =>
    refine ⟨latest, ?_, h.push kind none⟩
    simp only [tryMove?, Cursor.push?_eq hplaced hlinked kind none]
    rfl
  | descendCall kind callee =>
    -- the call is noted with the class before the node is made
    have hnoted : Ready ⟨{ cursor with
        builder := cursor.builder.noteCall cursor.signature callee }, latest⟩ :=
      ⟨⟨h.placed.shaped, h.placed.ascends, h.placed.below⟩,
        ⟨h.linked.sound, h.linked.unlinked, h.linked.awaited_lt⟩, h.tracks⟩
    refine ⟨latest, ?_, hnoted.push kind (some callee)⟩
    simp only [tryMove?, Cursor.push?_eq hnoted.placed hnoted.linked kind (some callee)]
    rfl
  | ascend =>
    refine ⟨latest, ?_, ?_⟩
    · simp only [tryMove?, Cursor.ascend?_eq hplaced]
      rfl
    · refine ⟨Cursor.tryMove_of_move (fun _ => hplaced.move) hplaced,
        Cursor.tryMove_of_move (fun _ => hlinked.move) hlinked, ?_⟩
      apply Cursor.tryMove_of_move (p := fun next => Tracks latest next.tokens) _ htracks
      intro next hnext
      obtain ⟨v, path, -, rfl⟩ := cursor.ascend_eq_ok hnext
      exact htracks
  | emit text role =>
    refine ⟨Function.update latest text (some cursor.tokens.size), ?_, hplaced.emit text role,
      hlinked.emit text role, ?_⟩
    · simp only [tryMove?, Cursor.emit?_eq hplaced htracks text role]
      rfl
    · show Tracks _ (cursor.emit text role).tokens
      rw [Cursor.emit_tokens]
      exact htracks.emit ⟨text, _, _, none, none, [], _⟩ rfl

/-- **Checked moves never stop, and stand where the moves lead.** -/
theorem Ready.exists_tryMoves? (h : checked.Ready) (moves : List Cursor.Move) :
    ∃ latest, checked.tryMoves? moves = some ⟨checked.cursor.tryMoves moves, latest⟩ := by
  induction moves generalizing checked with
  | nil => exact ⟨checked.latest, rfl⟩
  | cons m moves ih =>
    obtain ⟨latest, hmove, hready⟩ := h.exists_tryMove? m
    obtain ⟨last, hmoves⟩ := ih hready
    refine ⟨last, ?_⟩
    rw [tryMoves?, List.foldlM_cons, hmove]
    exact hmoves

end CheckedCursor

end CodeGraph
