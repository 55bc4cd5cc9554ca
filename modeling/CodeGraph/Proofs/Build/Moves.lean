/-
# What the moves of a cursor change

Each field of a cursor after each move, as a function of the fields before it.  Nothing later opens
a move again.
-/
import Mathlib
import CodeGraph.Build.Cursor

namespace CodeGraph

/-- A change that keeps a view of every member keeps the list of views. -/
theorem map_toList_modify {α β : Type} {f : α → α} (g : α → β) (hf : ∀ a, g (f a) = g a)
    (xs : Array α) (i : Nat) : (xs.modify i f).toList.map g = xs.toList.map g := by
  refine List.ext_getElem? fun j => ?_
  rw [List.getElem?_map, List.getElem?_map, Array.getElem?_toList, Array.getElem?_toList,
    Array.getElem?_modify]
  split
  · rw [Option.map_map]
    congr 1
    funext a
    exact hf a
  · rfl

namespace Cursor

variable (cursor : Cursor)

/-! ## The start of a method -/

@[simp] theorem openMethod_signature (builder : ClassBuilder) (signature : String) :
    (builder.openMethod signature).signature = signature := rfl

/-! ## The way down -/

/-- What is awaited inside a new node of the given kind, the value of an earlier assignment first. -/
def awaitedIn (awaited : Awaited) (kind : Kind) : Awaited :=
  match awaited with
  | .nothing => if kind.isAssignment then .target else .nothing
  | awaited => awaited

/-- The tokens when a new node is there: the one that awaits a value has it. -/
def settledTokens (awaited : Awaited) (tokens : Array Token) (node : Nat) : Array Token :=
  match awaited with
  | .value target => tokens.modify target fun token => { token with assignedFrom := some node }
  | _ => tokens

/-- A view of tokens that does not show what they are assigned stays. -/
theorem map_settledTokens {β : Type} (g : Token → β)
    (hg : ∀ (token : Token) node, g { token with assignedFrom := node } = g token)
    (awaited : Awaited) (tokens : Array Token) (node : Nat) :
    (settledTokens awaited tokens node).toList.map g = tokens.toList.map g := by
  cases awaited with
  | nothing => rfl
  | target => rfl
  | value target => exact map_toList_modify g (fun token => hg token _) _ _

/-- What is awaited when a new node is there. -/
def settledAwaited : Awaited → Awaited
  | .value _ => .nothing
  | awaited => awaited

/-- An assignment changes nothing but what is awaited. -/
theorem startAssignment_eq (kind : Kind) :
    cursor.startAssignment kind = { cursor with awaited := awaitedIn cursor.awaited kind } := by
  obtain ⟨builder, signature, nodes, tokens, symbols, path, awaited⟩ := cursor
  cases awaited with
  | nothing =>
    simp only [startAssignment, awaitedIn]
    split <;> rfl
  | target => rfl
  | value target => rfl

/-- A value that is awaited is noted at its target, and is not awaited any more. -/
theorem settleValue_eq (node : Nat) :
    cursor.settleValue node =
      { cursor with
        tokens := settledTokens cursor.awaited cursor.tokens node
        awaited := settledAwaited cursor.awaited } := by
  obtain ⟨builder, signature, nodes, tokens, symbols, path, awaited⟩ := cursor
  cases awaited <;> rfl

/-- What a push changes: the nodes, the path, what is awaited, and the target whose value it is. -/
theorem push_eq (kind : Kind) (callee : Option String) :
    cursor.push kind callee =
      { cursor with
        nodes := adopt (cursor.nodes.push { kind, parent := some cursor.current, callee })
          cursor.current cursor.nodes.size
        tokens := settledTokens (awaitedIn cursor.awaited kind) cursor.tokens cursor.nodes.size
        path := cursor.nodes.size :: cursor.path
        awaited := settledAwaited (awaitedIn cursor.awaited kind) } := by
  rw [push, settleValue_eq, startAssignment_eq]
  rfl

@[simp] theorem push_nodes (kind : Kind) (callee : Option String) :
    (cursor.push kind callee).nodes =
      adopt (cursor.nodes.push { kind, parent := some cursor.current, callee })
        cursor.current cursor.nodes.size := by
  rw [push_eq]

/-- A push leaves the tokens alone, except for a target that awaits its value. -/
@[simp] theorem push_tokens (kind : Kind) (callee : Option String) :
    (cursor.push kind callee).tokens =
      settledTokens (awaitedIn cursor.awaited kind) cursor.tokens cursor.nodes.size := by
  rw [push_eq]

@[simp] theorem push_symbols (kind : Kind) (callee : Option String) :
    (cursor.push kind callee).symbols = cursor.symbols := by
  rw [push_eq]

@[simp] theorem push_path (kind : Kind) (callee : Option String) :
    (cursor.push kind callee).path = cursor.nodes.size :: cursor.path := by
  rw [push_eq]

/-- Inside a new assignment a target is awaited, unless it is itself the value that was awaited. -/
@[simp] theorem push_awaited (kind : Kind) (callee : Option String) :
    (cursor.push kind callee).awaited = settledAwaited (awaitedIn cursor.awaited kind) := by
  rw [push_eq]

@[simp] theorem push_builder (kind : Kind) (callee : Option String) :
    (cursor.push kind callee).builder = cursor.builder := by
  rw [push_eq]

@[simp] theorem push_signature (kind : Kind) (callee : Option String) :
    (cursor.push kind callee).signature = cursor.signature := by
  rw [push_eq]

/-- The new node is the one at hand. -/
@[simp] theorem push_current (kind : Kind) (callee : Option String) :
    (cursor.push kind callee).current = cursor.nodes.size := by
  rw [current, push_path]
  rfl

/-! ## The way up -/

/-- An ascent that can be made drops the innermost open node. -/
theorem ascend_eq_ok {next : Cursor} (h : cursor.ascend = .ok next) :
    ∃ node path, cursor.path = node :: path ∧
      next = { cursor with
        path
        awaited := if cursor.isAssignmentAt node then .nothing else cursor.awaited } := by
  rw [ascend] at h
  split at h
  · cases h
  · next node path hpath =>
    cases h
    exact ⟨node, path, hpath, rfl⟩

/-! ## Tokens -/

/-- The words met in a text of the given role, and their numbers. -/
def wordsOf (builder : ClassBuilder) (text : String) (role : Role) : ClassBuilder × List Nat :=
  if role.hasWords then builder.noteWords text else (builder, [])

/-- The symbols when a token of the given role has been met, and the symbol of the token. -/
def symbolOf (symbols : Array String) (text : String) (role : Role) :
    Array String × Option Nat :=
  if role = .identifier then ((noteSymbol symbols text).1, some (noteSymbol symbols text).2)
  else (symbols, none)

/-- What is awaited after token number `i` of the given role. -/
def awaitedAfter (awaited : Awaited) (role : Role) (i : Nat) : Awaited :=
  match awaited with
  | .target => if role = .identifier then .value i else .target
  | awaited => awaited

/-- A view of tokens that does not show their next uses stays. -/
theorem map_linkUse {β : Type} (g : Token → β)
    (hg : ∀ (token : Token) next, g { token with nextUse := next } = g token)
    (tokens : Array Token) (text : String) (next : Nat) :
    (linkUse tokens text next).toList.map g = tokens.toList.map g := by
  rw [linkUse]
  split
  · exact map_toList_modify g (fun token => hg token _) _ _
  · rfl

/-- The words of a text go to the class. -/
theorem noteWords_eq (text : String) (role : Role) :
    cursor.noteWords text role =
      ({ cursor with builder := (wordsOf cursor.builder text role).1 },
        (wordsOf cursor.builder text role).2) := by
  rw [noteWords, wordsOf]
  split <;> rfl

/-- The name of an identifier goes to the symbols of the method. -/
theorem noteName_eq (text : String) (role : Role) :
    cursor.noteName text role =
      ({ cursor with
          symbols := (symbolOf cursor.symbols text role).1
          awaited := awaitedAfter cursor.awaited role cursor.tokens.size },
        (symbolOf cursor.symbols text role).2) := by
  obtain ⟨builder, signature, nodes, tokens, symbols, path, awaited⟩ := cursor
  simp only [noteName, symbolOf, awaitedAfter]
  split
  · cases awaited <;> rfl
  · cases awaited <;> rfl

/-- What a token changes: the words of the class, the symbols, the owner, the tokens and what is
awaited. -/
theorem emit_eq (text : String) (role : Role) :
    cursor.emit text role =
      { cursor with
        builder := (wordsOf cursor.builder text role).1
        tokens := (linkUse cursor.tokens text cursor.tokens.size).push
          { text, owner := cursor.current, symbol := (symbolOf cursor.symbols text role).2
            vocabulary := (wordsOf cursor.builder text role).2 }
        symbols := (symbolOf cursor.symbols text role).1
        nodes := cursor.nodes.modify cursor.current fun node =>
          { node with tokens := node.tokens ++ [cursor.tokens.size] }
        awaited := awaitedAfter cursor.awaited role cursor.tokens.size } := by
  simp only [emit, noteWords_eq, noteName_eq]

/-- A token is noted at the node that is open. -/
@[simp] theorem emit_nodes (text : String) (role : Role) :
    (cursor.emit text role).nodes = cursor.nodes.modify cursor.current fun node =>
      { node with tokens := node.tokens ++ [cursor.tokens.size] } := by
  rw [emit_eq]

/-- A token comes last, and the last one with its text links to it. -/
@[simp] theorem emit_tokens (text : String) (role : Role) :
    (cursor.emit text role).tokens = (linkUse cursor.tokens text cursor.tokens.size).push
      { text, owner := cursor.current, symbol := (symbolOf cursor.symbols text role).2
        vocabulary := (wordsOf cursor.builder text role).2 } := by
  rw [emit_eq]

@[simp] theorem emit_symbols (text : String) (role : Role) :
    (cursor.emit text role).symbols = (symbolOf cursor.symbols text role).1 := by
  rw [emit_eq]

@[simp] theorem emit_path (text : String) (role : Role) :
    (cursor.emit text role).path = cursor.path := by
  rw [emit_eq]

/-- An identifier is the target that is awaited, and from then on a value is awaited for it. -/
@[simp] theorem emit_awaited (text : String) (role : Role) :
    (cursor.emit text role).awaited =
      awaitedAfter cursor.awaited role cursor.tokens.size := by
  rw [emit_eq]

/-- A token adds its words to the class and nothing else. -/
@[simp] theorem emit_builder (text : String) (role : Role) :
    (cursor.emit text role).builder = (wordsOf cursor.builder text role).1 := by
  rw [emit_eq]

@[simp] theorem emit_signature (text : String) (role : Role) :
    (cursor.emit text role).signature = cursor.signature := by
  rw [emit_eq]

@[simp] theorem emit_current (text : String) (role : Role) :
    (cursor.emit text role).current = cursor.current := by
  rw [current, emit_path, current]

/-! ## All moves -/

/-- What a move that can be made does, one case for each move. -/
theorem move_cases {cursor next : Cursor} {m : Move} (h : cursor.move m = .ok next) :
    (∃ kind, m = .descend kind ∧ next = cursor.push kind none) ∨
    (∃ kind callee, m = .descendCall kind callee ∧
      next = { cursor with builder := cursor.builder.noteCall cursor.signature callee }.push
        kind (some callee)) ∨
    (m = .ascend ∧ ∃ node path, cursor.path = node :: path ∧
      next = { cursor with
        path
        awaited := if cursor.isAssignmentAt node then .nothing else cursor.awaited }) ∨
    (∃ text role, m = .emit text role ∧ next = cursor.emit text role) := by
  cases m with
  | descend kind =>
    cases h
    exact Or.inl ⟨kind, rfl, rfl⟩
  | descendCall kind callee =>
    cases h
    exact Or.inr (Or.inl ⟨kind, callee, rfl, rfl⟩)
  | ascend => exact Or.inr (Or.inr (Or.inl ⟨rfl, cursor.ascend_eq_ok h⟩))
  | emit text role =>
    cases h
    exact Or.inr (Or.inr (Or.inr ⟨text, role, rfl, rfl⟩))

/-- What every move that can be made keeps, every move keeps. -/
theorem tryMove_of_move {p : Cursor → Prop} {cursor : Cursor} {m : Move}
    (hmove : ∀ next, cursor.move m = .ok next → p next) (h : p cursor) : p (cursor.tryMove m) := by
  rw [tryMove]
  split
  · next next hm => exact hmove next hm
  · exact h

/-- What every move that can be made keeps, every sequence of moves keeps. -/
theorem tryMoves_of_move {p : Cursor → Prop}
    (hmove : ∀ (cursor : Cursor) (m : Move) (next : Cursor), p cursor → cursor.move m = .ok next →
      p next) {cursor : Cursor} (h : p cursor) (moves : List Move) : p (cursor.tryMoves moves) := by
  induction moves generalizing cursor with
  | nil => exact h
  | cons m moves ih => exact ih (tryMove_of_move (fun next => hmove cursor m next h) h)

end Cursor

end CodeGraph
