/-
# Walking a class

`ClassGraph.walk` lists the events of a walk. All methods get their numbers before the first event,
since calls lead from one method to another. Within a method come its nodes from the root, its
tokens, its symbols and the words of the class, and then its edges, kind by kind.
-/
import CodeGraph.Log
import CodeGraph.Walk.Event
import CodeGraph.Walk.Layout

namespace CodeGraph

/-- What can stop a walk. -/
inductive WalkFault
  /-- There are not enough numbers left. -/
  | idsExhausted
  /-- A method refers to something that is not there. -/
  | danglingReference
  deriving DecidableEq, Repr

/-! ## References -/

namespace MethodGraph

/-- The references of a node stay inside its method. -/
def resolvesNode (method : MethodGraph) (node : NonTerminal) : Bool :=
  node.parent.all (· < method.nodes.size) &&
    node.children.all (· < method.nodes.size) &&
    node.tokens.all (· < method.tokens.size)

/-- The references of a token stay inside its class. -/
def resolvesToken (method : MethodGraph) (graph : ClassGraph) (token : Token) : Bool :=
  token.symbol.all (· < method.symbols.size) &&
    token.nextUse.all (· < method.tokens.size) &&
    token.assignedFrom.all (· < method.nodes.size) &&
    token.returnsTo.all (fun site => (graph.callSite? site).isSome) &&
    token.vocabulary.all (· < graph.vocabulary.size)

/-- The method has a root, and all its references stay inside its class. -/
def resolves (method : MethodGraph) (graph : ClassGraph) : Bool :=
  0 < method.nodes.size && method.nodes.all method.resolvesNode &&
    method.tokens.all (method.resolvesToken graph)

end MethodGraph

/-! ## The events of a method -/

/-- A method that is walked: its class, the layouts of all its methods, and its own. -/
structure Walker where
  graph : ClassGraph
  layouts : Array Layout
  method : MethodGraph
  layout : Layout

namespace Walker

/-- A visit to a node of the method. -/
def node (walker : Walker) (i : Nat) : Visit :=
  ⟨walker.layout.nodeId i, ((walker.method.nodes[i]?).map NonTerminal.label).getD ""⟩

/-- A visit to a token of the method. -/
def token (walker : Walker) (i : Nat) : Visit :=
  ⟨walker.layout.tokenId i, ((walker.method.tokens[i]?).map Token.text).getD ""⟩

/-- A visit to a symbol of the method. -/
def symbol (walker : Walker) (i : Nat) : Visit :=
  ⟨walker.layout.symbolId i, (walker.method.symbols[i]?).getD ""⟩

/-- A visit to a word of the class. -/
def word (walker : Walker) (i : Nat) : Visit :=
  ⟨walker.layout.wordId i, (walker.graph.vocabulary[i]?).getD ""⟩

/-- A visit to a call site of the class. -/
def callSite (walker : Walker) (site : CallSite) : Visit :=
  { id := ((walker.layouts[site.method]?).map fun layout => layout.nodeId site.node).getD 0
    label := ((walker.graph.callSite? site).map NonTerminal.label).getD "" }

/-- The things in the method. -/
def entities (walker : Walker) : List Event :=
  walker.layout.order.map (fun i => .entity .node (walker.node i)) ++
    (List.range walker.method.tokens.size).map (fun i => .entity .token (walker.token i)) ++
    (List.range walker.method.symbols.size).map (fun i => .entity .symbol (walker.symbol i)) ++
    (List.range walker.graph.vocabulary.size).map (fun i => .entity .word (walker.word i))

/-- The edges that a node of the method starts. -/
def tokensOfNode (walker : Walker) (i : Nat) : List Event :=
  match walker.method.nodes[i]? with
  | some node => node.tokens.map fun t => .edge .childToken (walker.node i) (walker.token t)
  | none => []

/-- The edge from the parent of a node. -/
def parentOfNode (walker : Walker) (i : Nat) : Option Event := do
  let parent ← (← walker.method.nodes[i]?).parent
  return .edge .child (walker.node parent) (walker.node i)

/-- The edges of one relation between tokens and something else that `links` gives. -/
def tokenEdges (walker : Walker) (links : Nat → Token → List Event) : List Event :=
  walker.method.tokens.toList.zipIdx.flatMap fun (token, i) => links i token

/-- The edges of the method, kind by kind. -/
def edges (walker : Walker) : List Event :=
  (List.range (walker.method.tokens.size - 1)).map
      (fun i => .edge .nextToken (walker.token i) (walker.token (i + 1))) ++
    walker.layout.order.flatMap walker.tokensOfNode ++
    (walker.layout.order.drop 1).filterMap walker.parentOfNode ++
    walker.tokenEdges (fun i token =>
      token.symbol.toList.map fun s => .edge .occurrenceOf (walker.token i) (walker.symbol s)) ++
    walker.tokenEdges (fun i token =>
      token.vocabulary.map fun w => .edge .subtokenOf (walker.word w) (walker.token i)) ++
    walker.tokenEdges (fun i token =>
      token.nextUse.toList.map fun j =>
        .edge .nextLexicalUse (walker.token i) (walker.token j)) ++
    walker.tokenEdges (fun i token =>
      token.assignedFrom.toList.map fun n =>
        .edge .assignedFrom (walker.token i) (walker.node n)) ++
    walker.tokenEdges (fun i token =>
      if token.isReturn then
        token.returnsTo.map fun site =>
          .edge .returnsTo (walker.callSite site) (walker.token i)
      else [])

/-- The events of the method. -/
def events (walker : Walker) : List Event :=
  let root := walker.node 0
  .methodStart walker.method.signature root ::
    (walker.entities ++ walker.edges ++ [.methodEnd walker.method.signature root])

end Walker

/-! ## The events of a class -/

namespace ClassGraph

/-- The events of a walk with the given layouts of the methods. -/
def eventsWith (graph : ClassGraph) (layouts : List Layout) : List Event :=
  let all := layouts.toArray
  .classStart graph.name ::
    ((graph.methods.zip layouts).flatMap (fun (method, layout) =>
        Walker.events { graph, layouts := all, method, layout }) ++
      [.classEnd graph.name])

/-- All references in the class lead somewhere. -/
def resolves (graph : ClassGraph) : Bool := graph.methods.all (·.resolves graph)

/-- Walks a class: its events, and the numbers that are left. -/
def walk (graph : ClassGraph) (ids : IdSequence) : Except WalkFault (List Event × IdSequence) :=
  match Layout.ofMethods? graph.vocabulary.size graph.methods ids with
  | none => .error .idsExhausted
  | some (layouts, rest) =>
    if graph.resolves then .ok (graph.eventsWith layouts, rest)
    else .error .danglingReference

/-- The methods that a walk comes to: all, or those up to the first that it cannot walk. -/
def walked (graph : ClassGraph) : List MethodGraph → List MethodGraph
  | [] => []
  | method :: methods =>
    method :: if method.resolves graph then graph.walked methods else []

/-- What the log says of a walk. -/
def walkLines (graph : ClassGraph) (ids : IdSequence) : List LogLine :=
  match Layout.ofMethods? graph.vocabulary.size graph.methods ids with
  | none => []
  | some _ =>
    (graph.walked graph.methods).map fun method =>
      .trace .walker ("walking method " ++ method.signature)

end ClassGraph

end CodeGraph
