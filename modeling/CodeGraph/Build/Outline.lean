/-
# What is modelled of a tree

Before anything is built, a tree is reduced to what counts. `Forest.outline` finds the class, the
methods and what is passed over outside of them; `Tree.methods` puts a method and the methods nested
in it in the order in which they are built; `Forest.script` gives the moves through one method.
Types inside of methods, and the methods of other types, are passed over with all they contain.
-/
import CodeGraph.Build.Cursor
import CodeGraph.Tree.Basic

namespace CodeGraph

/-! ## The body of a method -/

/-- One action on the way through the body of a method. -/
inductive Action
  | move (m : Cursor.Move)
  /-- A nested method is left for later. -/
  | defer
  /-- A type is passed over. -/
  | passOver (kind : Kind)
  /-- A call says not which method it calls. -/
  | refuse (kind : Kind)
  deriving DecidableEq, Repr

namespace Forest

/-- The actions on the way through a forest, in document order. -/
def script : Forest → List Action
  | nil => []
  | token text role rest => .move (.emit text role) :: rest.script
  | node kind _ signature children rest =>
    if kind = .methodDeclaration then .defer :: rest.script
    else if kind.isTypeDeclaration then .passOver kind :: rest.script
    else
      match signature with
      | some callee =>
        .move (.descendCall kind callee) :: (children.script ++ .move .ascend :: rest.script)
      | none =>
        if kind = .methodInvocation then .refuse kind :: rest.script
        else .move (.descend kind) :: (children.script ++ .move .ascend :: rest.script)

/-- The methods nested in a forest, not below one another nor in a type. -/
def nested : Forest → List Tree
  | nil => []
  | token _ _ rest => rest.nested
  | node kind name signature children rest =>
    if kind = .methodDeclaration then { kind, name, signature, children } :: rest.nested
    else if kind.isTypeDeclaration then rest.nested
    else children.nested ++ rest.nested

end Forest

/-! ## Methods and nested methods -/

namespace Tree

/-- The methods of a level, then those nested in them, and so on for the given number of levels. -/
def levels : Nat → List Tree → List Tree
  | 0, _ => []
  | _ + 1, [] => []
  | n + 1, level => level ++ levels n (level.flatMap (·.children.nested))

/-- A method and the methods nested in it, level by level. There are no more levels than nodes. -/
def methods (declaration : Tree) : List Tree :=
  levels (declaration.children.nodeCount + 1) [declaration]

end Tree

/-! ## The class -/

/-- One finding outside of methods. -/
inductive Finding
  /-- The class to be modelled. -/
  | beginClass (name? : Option String)
  /-- A method of the class. -/
  | method (declaration : Tree)
  /-- A type that is passed over. -/
  | passOver (kind : Kind) (name? : Option String)
  /-- A method that is passed over since there is no class yet. -/
  | looseMethod
  deriving DecidableEq, Repr

/-- The findings in a forest outside of methods, in document order, and whether the class has begun.
The first type is the class; its members and those of compilation units are looked at, and no
others. -/
def Forest.outline (begun : Bool) : Forest → List Finding × Bool
  | .nil => ([], begun)
  | .token _ _ rest => rest.outline begun
  | .node kind name signature children rest =>
    let (here, begun) :=
      match kind with
      | .compilationUnit => children.outline begun
      | .typeDeclaration | .enumDeclaration =>
        if begun then ([Finding.passOver kind name], begun)
        else
          let (members, begun) := children.outline true
          (.beginClass name :: members, begun)
      | .anonymousClassDeclaration => ([.passOver kind name], begun)
      | .methodDeclaration =>
        if begun then ([.method { kind, name, signature, children }], begun)
        else ([.looseMethod], begun)
      | _ => ([], begun)
    let (later, begun) := rest.outline begun
    (here ++ later, begun)

end CodeGraph
