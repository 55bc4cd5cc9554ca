/-
# Vocabulary dumps

The words of a class, method by method: a blank line, then the tokens, the symbols, the words of the
class and the node labels, each list on a line of its own with spaces in between.
-/
import CodeGraph.Dataset.Sink
import CodeGraph.Graph.Basic

namespace CodeGraph

/-! ## Writing -/

/-- A line of words in the pieces in which it is written: the words with spaces in between, and the
line end. -/
def spacedLine (words : List String) : List (List Char) :=
  [[' '].intercalate (words.map String.toList), ['\n']]

namespace ClassGraph

/-- The lists that are dumped of a method. -/
def listsOf (graph : ClassGraph) (method : MethodGraph) : List (List String) :=
  [method.tokens.toList.map Token.text, method.symbols.toList, graph.vocabulary.toList,
    method.nodes.toList.map NonTerminal.label]

/-- What is written of a method, piece by piece. -/
def vocabularyOf (graph : ClassGraph) (method : MethodGraph) : List (List Char) :=
  ['\n'] :: (graph.listsOf method).flatMap spacedLine

/-- What is written of all methods, piece by piece. -/
def vocabularyPieces (graph : ClassGraph) : List (List Char) :=
  graph.methods.flatMap graph.vocabularyOf

/-- Writes the lists of all methods. -/
def writeVocabulary (graph : ClassGraph) (sink : Sink) : Sink × Except Fault Unit :=
  let (sink, whole) := sink.putAll (graph.vocabularyPieces.map Text.utf8)
  (sink, if whole then .ok () else .error (.io .sinkFull))

end ClassGraph

/-! ## The text of a dump -/

/-- A list with single spaces in between, and a line end. -/
def lineOf (words : List String) : List Char := (" ".intercalate words).toList ++ ['\n']

namespace ClassGraph

/-- The text of a dump: for each method a line end, and each list on a line. -/
def dump (graph : ClassGraph) : List Char :=
  graph.methods.flatMap fun method => '\n' :: (graph.listsOf method).flatMap lineOf

/-- The pieces of a line make up the line. -/
theorem flatten_spacedLine (words : List String) : (spacedLine words).flatten = lineOf words := by
  rw [lineOf, String.toList_intercalate]
  rfl

/-- The pieces that are written make up the text. -/
theorem flatten_vocabularyPieces (graph : ClassGraph) :
    graph.vocabularyPieces.flatten = graph.dump := by
  have hmethod (method : MethodGraph) : (graph.vocabularyOf method).flatten =
      '\n' :: (graph.listsOf method).flatMap lineOf := by
    rw [vocabularyOf, List.flatten_cons, List.flatMap_def, List.flatten_flatten, List.map_map]
    exact congrArg ('\n' :: ·) (congrArg List.flatten (List.map_congr_left fun words _ =>
      flatten_spacedLine words))
  rw [vocabularyPieces, dump, List.flatMap_def, List.flatten_flatten, List.map_map,
    List.flatMap_def]
  exact congrArg List.flatten (List.map_congr_left fun method _ => hmethod method)

end ClassGraph

end CodeGraph
