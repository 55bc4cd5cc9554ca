/-
# Program graphs

The graph of a method has nodes, tokens and symbols, each numbered from zero in the order in which
they came up, and refers to them by number. The graph of a class has its methods and the words that
their names and literals are made of, shared by all of them.
-/
import CodeGraph.Graph.Invocations
import CodeGraph.Tree.Kind

namespace CodeGraph

/-! ## Nodes and tokens -/

/-- A call site: a node of one of the methods of the class. -/
structure CallSite where
  method : Nat
  node : Nat
  deriving DecidableEq, Repr

/-- A node of the syntax tree. -/
structure NonTerminal where
  kind : Kind
  parent : Option Nat := none
  children : List Nat := []
  tokens : List Nat := []
  /-- The signature of the method called; only call sites have one. -/
  callee : Option String := none
  deriving DecidableEq, Repr

/-- A token and its links. -/
structure Token where
  text : String
  /-- The node that directly contains the token. -/
  owner : Nat
  symbol : Option Nat := none
  /-- The next token with the same text. -/
  nextUse : Option Nat := none
  /-- The node of the value that the token is given. -/
  assignedFrom : Option Nat := none
  /-- The call sites to which a `return` goes back. -/
  returnsTo : List CallSite := []
  /-- The words that the text is made of. -/
  vocabulary : List Nat := []
  deriving DecidableEq, Repr

namespace NonTerminal

/-- A node that calls a method. -/
def isCallSite (node : NonTerminal) : Bool := node.callee.isSome

/-- What a node is called in every output. -/
def label (node : NonTerminal) : String :=
  match node.callee with
  | some callee => node.kind.name ++ ":" ++ callee
  | none => node.kind.name

end NonTerminal

/-- A token that leaves the method. -/
def Token.isReturn (token : Token) : Bool := token.text == "return"

/-! ## Methods -/

/-- The graph of a method. Its root is node zero. -/
structure MethodGraph where
  signature : String
  nodes : Array NonTerminal
  tokens : Array Token
  symbols : Array String
  deriving DecidableEq, Repr

namespace MethodGraph

/-- The children of a node. -/
def childrenOf (method : MethodGraph) (node : Nat) : List Nat :=
  match method.nodes[node]? with
  | some node => node.children
  | none => []

/-- Visits the nodes that wait, and everything below them, children first to last. No more nodes are
visited than the first number says. -/
def visit (method : MethodGraph) : Nat → List Nat → List Nat
  | 0, _ => []
  | _ + 1, [] => []
  | n + 1, node :: waiting => node :: method.visit n (method.childrenOf node ++ waiting)

/-- The nodes in the order of a walk from the root, parents before children. -/
def preorder (method : MethodGraph) : List Nat := method.visit method.nodes.size [0]

/-- The call sites in the order of the walk, with what they call. -/
def callSites (method : MethodGraph) : List (Nat × String) :=
  method.preorder.filterMap fun node => do
    let callee ← (← method.nodes[node]?).callee
    return (node, callee)

/-- The tokens that leave the method, with their numbers. -/
def returnTokens (method : MethodGraph) : List (Nat × Token) :=
  method.tokens.toList.zipIdx.filterMap fun (token, i) =>
    if token.isReturn then some (i, token) else none

/-- The number of the symbol of that name. -/
def findSymbol? (method : MethodGraph) (name : String) : Option Nat :=
  method.symbols.findIdx? (· == name)

/-- The numbers of the tokens with that text. -/
def tokensWithText (method : MethodGraph) (text : String) : List Nat :=
  method.tokens.toList.zipIdx.filterMap fun (token, i) =>
    if token.text = text then some i else none

end MethodGraph

/-! ## Classes -/

/-- The graph of a class. -/
structure ClassGraph where
  name : String
  methods : List MethodGraph
  vocabulary : Array String
  invocations : Invocations
  deriving DecidableEq, Repr

namespace ClassGraph

/-- The first method of that signature. -/
def method? (graph : ClassGraph) (signature : String) : Option MethodGraph :=
  graph.methods.find? (·.signature == signature)

/-- The node at a call site. -/
def callSite? (graph : ClassGraph) (site : CallSite) : Option NonTerminal := do
  (← graph.methods[site.method]?).nodes[site.node]?

end ClassGraph

end CodeGraph
