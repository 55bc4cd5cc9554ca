/-
# Finishing a class

When all methods are there, every `return` of a method is linked to every call of that method in the
class. Of several methods with one signature only the first is called.
-/
import CodeGraph.Build.ClassBuilder

namespace CodeGraph

/-! ## Calls -/

/-- A call in the class, and the number of the method it calls. -/
structure Link where
  target : Nat
  site : CallSite
  deriving DecidableEq, Repr

namespace Linkage

/-- The number of the method that a call of the signature reaches. -/
def targetOf? (methods : List MethodGraph) (callee : String) : Option Nat :=
  methods.findIdx? (·.signature == callee)

/-- All calls of the class with their callers, methods in order and each walked from its root. -/
def calls (methods : List MethodGraph) : List (CallSite × String) :=
  methods.zipIdx.flatMap fun (method, caller) =>
    method.callSites.map fun (node, callee) => (⟨caller, node⟩, callee)

/-- The calls that reach a method of the class. -/
def links (methods : List MethodGraph) : List Link :=
  (calls methods).filterMap fun (site, callee) =>
    (targetOf? methods callee).map fun target => ⟨target, site⟩

/-- The call sites from which a method is reached. -/
def sitesOf (links : List Link) (target : Nat) : List CallSite :=
  links.filterMap fun link => if link.target = target then some link.site else none

/-- Sends every `return` of a method back to the given call sites. -/
def linkReturns (method : MethodGraph) (sites : List CallSite) : MethodGraph :=
  { method with
    tokens := method.tokens.map fun token =>
      if token.isReturn then { token with returnsTo := token.returnsTo ++ sites } else token }

/-- The methods with all their returns linked. -/
def linked (methods : List MethodGraph) : List MethodGraph :=
  let links := links methods
  methods.zipIdx.map fun (method, i) => linkReturns method (sitesOf links i)

end Linkage

/-! ## The graph -/

namespace ClassBuilder

/-- Finishes a class. -/
def build (builder : ClassBuilder) : ClassGraph :=
  { name := builder.name
    methods := Linkage.linked builder.methods
    vocabulary := builder.vocabulary
    invocations := builder.invocations }

/-- How many edges from returns to call sites the links make. -/
def linkCount (methods : List MethodGraph) : Nat :=
  let links := Linkage.links methods
  methods.zipIdx.foldl (fun count (method, i) =>
    count + (Linkage.sitesOf links i).length * method.returnTokens.length) 0

/-- What the log says when a class is finished: the calls that lead out of the class, then the
size of the graph. -/
def buildLines (builder : ClassBuilder) : List LogLine :=
  let missed := (Linkage.calls builder.methods).filterMap fun (site, callee) =>
    match Linkage.targetOf? builder.methods callee, builder.methods[site.method]? with
    | none, some caller =>
      some (LogLine.trace .builder
        (caller.signature ++ ": call to " ++ callee ++ " is not in the class"))
    | _, _ => none
  missed ++ [.debug .builder ("class " ++ builder.name ++ " built: " ++
    toString builder.methods.length ++ " methods, " ++
    toString builder.vocabulary.size ++ " vocabulary units, " ++
    toString (linkCount builder.methods) ++ " returns-to edges")]

end ClassBuilder

end CodeGraph
