/-
# Faults

Everything that can go wrong between a text and its graph or data set, with the words for it.
-/
import CodeGraph.Json.Failure
import CodeGraph.Tree.Kind

namespace CodeGraph

/-- What goes wrong with files and sinks. -/
inductive IoFault
  | notFound
  | accessDenied
  /-- A path leads on behind a file. -/
  | notDirectory
  | isDirectory
  | nameTooLong
  | notUtf8
  /-- The sink takes no more bytes. -/
  | sinkFull
  deriving DecidableEq, Repr

/-- The wording of a fault of a file or a sink. -/
def IoFault.message : IoFault → String
  | notFound => "No such file or directory (os error 2)"
  | accessDenied => "Permission denied (os error 13)"
  | notDirectory => "Not a directory (os error 20)"
  | isDirectory => "Is a directory (os error 21)"
  | nameTooLong => "File name too long (os error 36)"
  | notUtf8 => "stream did not contain valid UTF-8"
  | sinkFull => "failed to write whole buffer"

/-- What goes wrong with JSON: a text that is refused, with its place if it has one, or a sink that
is full. -/
inductive JsonFault
  | refused (cause : Json.Cause) (place? : Option Json.Place)
  | sinkFull

/-- The wording of a JSON fault without its place. -/
def JsonFault.message : JsonFault → String
  | refused cause _ => cause.message
  | sinkFull => IoFault.sinkFull.message

/-- The words for where a JSON fault is. -/
def JsonFault.placeMessage : JsonFault → String
  | refused _ (some place) =>
    " at line " ++ toString place.line ++ " column " ++ toString place.column
  | _ => ""

/-- The faults of the library. -/
inductive Fault
  /-- The cursor was at the root of its method. -/
  | ascendPastRoot (signature : String)
  /-- The method was closed with nodes open. -/
  | unbalancedTraversal (signature : String) (openNodes : Nat)
  | missingSignature (kind : Kind)
  | missingClassName
  | config (message : String)
  | io (fault : IoFault)
  | json (fault : JsonFault)

namespace Fault

/-- The wording of a fault, without the place of a JSON fault. -/
def message : Fault → String
  | ascendPastRoot signature => "Cannot ascend past the root of method " ++ signature
  | unbalancedTraversal signature openNodes =>
    "Method " ++ signature ++ " closed with " ++ toString openNodes ++ " unclosed non-terminal(s)"
  | missingSignature kind => "Node of kind " ++ kind.name ++ " requires a method signature"
  | missingClassName => "Type declaration has no name"
  | config message => "Invalid configuration: " ++ message
  | io fault => "IO error: " ++ fault.message
  | json fault => "JSON error: " ++ fault.message

/-- The wording of a fault and, where it is known, its place. -/
def fullMessage : Fault → String
  | json fault => message (json fault) ++ fault.placeMessage
  | fault => fault.message

/-- The fault of a text that is refused. -/
def ofFailure (text : List Char) (failure : Json.Failure) : Fault :=
  json (.refused failure.cause (failure.place? text))

end Fault

end CodeGraph
