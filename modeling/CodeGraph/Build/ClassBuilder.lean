/-
# Collecting a class

A class under construction: the methods finished so far, the words met so far, and who calls whom.
Words and calls are kept from the moment they are met, methods from the moment they are added. The
words that names and literals are made of are numbered in the order in which they come up, and a word
that comes up again keeps its number.
-/
import CodeGraph.Graph.Basic
import CodeGraph.Log
import CodeGraph.Text.Subword

namespace CodeGraph

/-! ## The words of a class -/

namespace Vocabulary

/-- The words with `word` among them, and its number. -/
def intern (words : Array String) (word : String) : Array String × Nat :=
  match words.findIdx? (· == word) with
  | some i => (words, i)
  | none => (words.push word, words.size)

/-- Interns one more word of a text; a number that the text has already is not repeated. -/
def internNext (state : Array String × List Nat) (word : String) : Array String × List Nat :=
  let (words, ids) := state
  let (words, i) := intern words word
  (words, if i ∈ ids then ids else ids ++ [i])

/-- The words with those of a text among them, and the numbers of the words of the text. -/
def internText (words : Array String) (text : String) : Array String × List Nat :=
  (Text.subwords text).foldl internNext (words, [])

end Vocabulary

/-! ## Classes under construction -/

/-- A class under construction. -/
structure ClassBuilder where
  name : String
  methods : List MethodGraph := []
  vocabulary : Array String := #[]
  invocations : Invocations := {}
  deriving DecidableEq, Repr

namespace ClassBuilder

/-- A method of that signature is about to be built. -/
def noteMethod (builder : ClassBuilder) (signature : String) : ClassBuilder :=
  { builder with invocations := builder.invocations.addCaller signature }

/-- One method calls another. -/
def noteCall (builder : ClassBuilder) (caller callee : String) : ClassBuilder :=
  { builder with invocations := builder.invocations.addCall caller callee }

/-- Meets the words of a text; their numbers come back. -/
def noteWords (builder : ClassBuilder) (text : String) : ClassBuilder × List Nat :=
  let (words, ids) := Vocabulary.internText builder.vocabulary text
  ({ builder with vocabulary := words }, ids)

/-- Adds a finished method. -/
def add (builder : ClassBuilder) (method : MethodGraph) : ClassBuilder :=
  { builder with methods := builder.methods ++ [method] }

/-- What the log says when a method is added. -/
def addLine (builder : ClassBuilder) (method : MethodGraph) : LogLine :=
  .debug .builder ("class " ++ builder.name ++ ": method " ++ method.signature ++ " (" ++
    toString method.nodes.size ++ " non-terminals, " ++
    toString method.tokens.size ++ " tokens)")

end ClassBuilder

end CodeGraph
