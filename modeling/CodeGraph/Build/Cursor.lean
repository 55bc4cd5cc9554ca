/-
# Building a method

A cursor builds the graph of one method while somebody walks its syntax tree: down into a node, up
again, and over the tokens in between. The cursor holds the class it adds words and calls to, and
hands it back when the method is closed or abandoned.

The value of an assignment is recognised by order alone: in an assignment, the first name is the
target, and the first node after it is the value.
-/
import CodeGraph.Build.ClassBuilder

namespace CodeGraph

/-! ## State -/

/-- What is awaited of the assignment at hand. -/
inductive Awaited
  /-- There is no assignment at hand, or its parts have been found. -/
  | nothing
  /-- The name that is given a value. -/
  | target
  /-- The node of the value that is given to a token. -/
  | value (target : Nat)
  deriving DecidableEq, Repr

/-- A method under construction. -/
structure Cursor where
  /-- The class that the method belongs to. -/
  builder : ClassBuilder
  signature : String
  nodes : Array NonTerminal := #[{ kind := .methodDeclaration }]
  tokens : Array Token := #[]
  symbols : Array String := #[]
  /-- The open nodes below the root, innermost first. -/
  path : List Nat := []
  awaited : Awaited := .nothing
  deriving DecidableEq, Repr

/-- Begins a method. The cursor stands at its root. -/
def ClassBuilder.openMethod (builder : ClassBuilder) (signature : String) : Cursor :=
  { builder := builder.noteMethod signature, signature }

namespace Cursor

/-- The node that the cursor stands at. -/
def current (cursor : Cursor) : Nat := cursor.path.head?.getD 0

/-- How many nodes are open below the root. -/
def depth (cursor : Cursor) : Nat := cursor.path.length

/-! ## Nodes -/

/-- Lists a node among the children of the node `parent`. -/
def adopt (nodes : Array NonTerminal) (parent child : Nat) : Array NonTerminal :=
  nodes.modify parent fun node => { node with children := node.children ++ [child] }

/-- Takes a new node as the value of an assignment that awaits one. -/
def settleValue (cursor : Cursor) (node : Nat) : Cursor :=
  match cursor.awaited with
  | .value target =>
    { cursor with
      tokens := cursor.tokens.modify target fun token => { token with assignedFrom := some node }
      awaited := .nothing }
  | _ => cursor

/-- A node that starts an assignment awaits its target, unless a value is awaited still. -/
def startAssignment (cursor : Cursor) (kind : Kind) : Cursor :=
  match cursor.awaited with
  | .nothing => if kind.isAssignment then { cursor with awaited := .target } else cursor
  | _ => cursor

/-- Makes a node below the one at hand and goes down into it. -/
def push (cursor : Cursor) (kind : Kind) (callee : Option String) : Cursor :=
  let cursor := cursor.startAssignment kind
  let parent := cursor.current
  let node := cursor.nodes.size
  let nodes := adopt (cursor.nodes.push { kind, parent := some parent, callee }) parent node
  { cursor with nodes, path := node :: cursor.path }.settleValue node

/-- Goes down into a new node. -/
def descend (cursor : Cursor) (kind : Kind) : Cursor := cursor.push kind none

/-- Goes down into a new call site. -/
def descendCall (cursor : Cursor) (kind : Kind) (callee : String) : Cursor :=
  { cursor with builder := cursor.builder.noteCall cursor.signature callee }.push kind (some callee)

/-- The node starts an assignment. -/
def isAssignmentAt (cursor : Cursor) (node : Nat) : Bool :=
  match cursor.nodes[node]? with
  | some node => node.kind.isAssignment
  | none => false

/-- Goes up to the parent of the node at hand. The root has none. Leaving an assignment ends the
wait for its parts. -/
def ascend (cursor : Cursor) : Except Fault Cursor :=
  match cursor.path with
  | [] => .error (.ascendPastRoot cursor.signature)
  | node :: path =>
    let awaited := if cursor.isAssignmentAt node then .nothing else cursor.awaited
    .ok { cursor with path, awaited }

/-! ## Tokens -/

/-- Links the latest token of the same text to a new one. -/
def linkUse (tokens : Array Token) (text : String) (next : Nat) : Array Token :=
  match tokens.findIdx? fun token => token.text == text && token.nextUse.isNone with
  | some i => tokens.modify i fun token => { token with nextUse := some next }
  | none => tokens

/-- Meets the words of a text, if the role has any. -/
def noteWords (cursor : Cursor) (text : String) (role : Role) : Cursor × List Nat :=
  if role.hasWords then
    let (builder, vocabulary) := cursor.builder.noteWords text
    ({ cursor with builder }, vocabulary)
  else (cursor, [])

/-- The symbol of a name, and the symbols with it among them. -/
def noteSymbol (symbols : Array String) (name : String) : Array String × Nat :=
  match symbols.findIdx? (· == name) with
  | some i => (symbols, i)
  | none => (symbols.push name, symbols.size)

/-- Meets the symbol that a token stands for, if the role has one. -/
def noteName (cursor : Cursor) (text : String) (role : Role) : Cursor × Option Nat :=
  if role = .identifier then
    let (symbols, symbol) := noteSymbol cursor.symbols text
    let awaited :=
      match cursor.awaited with
      | .target => .value cursor.tokens.size
      | awaited => awaited
    ({ cursor with symbols, awaited }, some symbol)
  else (cursor, none)

/-- Adds a token to the node at hand. -/
def emit (cursor : Cursor) (text : String) (role : Role) : Cursor :=
  let owner := cursor.current
  let i := cursor.tokens.size
  let (cursor, vocabulary) := cursor.noteWords text role
  let (cursor, symbol) := cursor.noteName text role
  { cursor with
    tokens := (linkUse cursor.tokens text i).push { text, owner, symbol, vocabulary }
    nodes := cursor.nodes.modify owner fun node => { node with tokens := node.tokens ++ [i] } }

/-! ## Ending a method -/

/-- The method as it stands. -/
def method (cursor : Cursor) : MethodGraph :=
  { signature := cursor.signature, nodes := cursor.nodes, tokens := cursor.tokens
    symbols := cursor.symbols }

/-- Ends the method. Nothing but the root may be open. -/
def close (cursor : Cursor) : Except Fault MethodGraph :=
  if cursor.depth = 0 then .ok cursor.method
  else .error (.unbalancedTraversal cursor.signature cursor.depth)

/-- What the log says when a method is closed. -/
def closeLine (method : MethodGraph) : LogLine :=
  .debug .method ("method " ++ method.signature ++ " closed: " ++
    toString method.nodes.size ++ " non-terminals, " ++
    toString method.tokens.size ++ " tokens, " ++
    toString method.symbols.size ++ " symbols")

/-! ## Walks -/

/-- One move of a walk over the syntax tree of a method. -/
inductive Move
  | descend (kind : Kind)
  | descendCall (kind : Kind) (callee : String)
  | ascend
  | emit (text : String) (role : Role)
  deriving DecidableEq, Repr

/-- Makes a move. -/
def move (cursor : Cursor) : Move → Except Fault Cursor
  | .descend kind => .ok (cursor.descend kind)
  | .descendCall kind callee => .ok (cursor.descendCall kind callee)
  | .ascend => cursor.ascend
  | .emit text role => .ok (cursor.emit text role)

/-- Makes a move if it can be made. -/
def tryMove (cursor : Cursor) (m : Move) : Cursor :=
  match cursor.move m with
  | .ok next => next
  | .error _ => cursor

/-- Makes all the moves that can be made. -/
def tryMoves (cursor : Cursor) (moves : List Move) : Cursor := moves.foldl tryMove cursor

end Cursor

end CodeGraph
