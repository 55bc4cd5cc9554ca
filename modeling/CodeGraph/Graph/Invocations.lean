/-
# Which method calls which

The relation is kept as it grows, in the order of the events; `toList` is the view that is shown:
the callers in order, each with its callees in order, nothing twice.
-/

namespace CodeGraph

/-- The callers that have been seen, whether they call anything or not, and the calls. -/
structure Invocations where
  callers : List String := []
  calls : List (String × String) := []
  deriving DecidableEq, Repr

namespace Invocations

/-- A method has been seen. -/
def addCaller (invocations : Invocations) (caller : String) : Invocations :=
  { invocations with callers := caller :: invocations.callers }

/-- A method calls another. -/
def addCall (invocations : Invocations) (caller callee : String) : Invocations :=
  { callers := caller :: invocations.callers
    calls := (caller, callee) :: invocations.calls }

/-- What a method calls, latest first. -/
def calleesOf (invocations : Invocations) (caller : String) : List String :=
  invocations.calls.filterMap fun (c, callee) => if c = caller then some callee else none

/-- Puts a text into an ordered list that may hold it already. -/
def insertName (name : String) : List String → List String
  | [] => [name]
  | other :: rest =>
    if name = other then other :: rest
    else if name < other then name :: other :: rest
    else other :: insertName name rest

/-- The texts of a list in the order of their characters, each once. -/
def sortNames (names : List String) : List String := names.foldr insertName []

/-- The callers in order, each with its callees in order. -/
def toList (invocations : Invocations) : List (String × List String) :=
  (sortNames invocations.callers).map fun caller =>
    (caller, sortNames (invocations.calleesOf caller))

end Invocations

end CodeGraph
