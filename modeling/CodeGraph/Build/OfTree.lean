/-
# From trees to graphs

`Tree.drive` builds the graph of the first type that a tree declares. It follows the outline of the
tree, and for each method the script of its body, with a cursor.
-/
import CodeGraph.Build.Linkage
import CodeGraph.Build.Outline

namespace CodeGraph

open Logged

/-! ## Methods -/

namespace Cursor

/-- Takes one action. -/
def follow (cursor : Cursor) : Action → Logged Cursor
  | .move m => ofExcept (cursor.move m)
  | .defer => do
    note (.trace .driver (cursor.signature ++ ": deferring nested method"))
    return cursor
  | .passOver kind => do
    note (.debug .driver (cursor.signature ++ ": skipping " ++ kind.name ++ " inside method"))
    return cursor
  | .refuse kind => throw (.missingSignature kind)

end Cursor

namespace ClassBuilder

/-- Builds one method and adds it. -/
def buildMethod (builder : ClassBuilder) (declaration : Tree) : Logged ClassBuilder := do
  match declaration.signature with
  | none => throw (.missingSignature declaration.kind)
  | some signature =>
    let cursor ← declaration.children.script.foldlM Cursor.follow (builder.openMethod signature)
    let method ← ofExcept cursor.close
    note (Cursor.closeLine method)
    note (cursor.builder.addLine method)
    return cursor.builder.add method

/-- Builds a method and the methods nested in it. -/
def buildMethods (builder : ClassBuilder) (declaration : Tree) : Logged ClassBuilder :=
  declaration.methods.foldlM buildMethod builder

end ClassBuilder

/-! ## Classes -/

/-- The class under construction, once it has begun, and how many types have been passed over. -/
structure Progress where
  builder? : Option ClassBuilder := none
  passedOver : Nat := 0
  deriving DecidableEq, Repr

namespace Progress

/-- Follows one finding. -/
def follow (progress : Progress) : Finding → Logged Progress
  | .beginClass none => throw .missingClassName
  | .beginClass (some name) => do
    note (.debug .driver ("building class " ++ name))
    return { progress with builder? := some { name } }
  | .method declaration =>
    match progress.builder? with
    | some builder => do
      let builder ← builder.buildMethods declaration
      return { progress with builder? := some builder }
    | none => return progress
  | .passOver kind name? => do
    note (.debug .driver ("skipping " ++ kind.name ++ " " ++ name?.getD "<anonymous>"))
    return { progress with passedOver := progress.passedOver + 1 }
  | .looseMethod => do
    note (.debug .driver "method outside of a type declaration skipped")
    return progress

/-- Finishes the class, if there is one. -/
def finish (progress : Progress) : Logged (Option ClassGraph) := do
  if 0 < progress.passedOver then
    note (.debug .driver
      ("skipped " ++ toString progress.passedOver ++ " nested or secondary type(s)"))
  match progress.builder? with
  | some builder =>
    notes builder.buildLines
    return some builder.build
  | none => return none

end Progress

namespace Tree

/-- Builds the graph of the first type that is declared in a tree, if there is one, and logs the
work. -/
def drive (tree : Tree) : Logged (Option ClassGraph) := do
  let progress ← (tree.toForest.outline false).1.foldlM Progress.follow {}
  progress.finish

/-- The graph of the first type that is declared in a tree, if there is one. -/
def classGraph? (tree : Tree) : Except Fault (Option ClassGraph) := tree.drive.result

end Tree

end CodeGraph
