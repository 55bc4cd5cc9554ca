/-
# Graphs as DOT text

The text of a walk in the DOT language: a line for everything that is visited and a line for every
edge, in the order of the events.
-/
import CodeGraph.Walk.Basic

namespace CodeGraph.Dot

/-! ## Pieces of lines -/

/-- One character of a label. -/
def escapeChar (c : Char) : List Char :=
  match c with
  | '"' => ['\\', '"']
  | '\\' => ['\\', '\\']
  | '\n' => ['\\', 'n']
  | c => [c]

/-- A text in a label. -/
def escape (text : String) : List Char := text.toList.flatMap escapeChar

/-- A line of the graph. -/
def line (text : List Char) : List Char := '\t' :: (text ++ ['\n'])

/-- The letters before the numbers of a sort of things. -/
def mark : Entity → List Char
  | .node => ['N', 'T']
  | .token => ['T']
  | .symbol => ['S']
  | .word => ['V']

/-- The name of a thing. -/
def name (sort : Entity) (id : Nat) : List Char := mark sort ++ Nat.toDigits 10 id

/-- How a sort of things is drawn, besides its label. -/
def style : Entity → List Char
  | .node => []
  | .token => ",shape=box,color=blue".toList
  | .symbol => ",shape=box,color=grey".toList
  | .word => ",color=green".toList

/-- How a relation is drawn. -/
def edgeStyle : Relation → List Char
  | .nextToken => "color=blue,label=\"next token\"".toList
  | .childToken => "color=red,label=\"child\"".toList
  | .child => "color=red,label=\"child\"".toList
  | .occurrenceOf => "color=black,label=\"occurrence of\"".toList
  | .subtokenOf => "color=green,label=\"subtoken of\"".toList
  | .nextLexicalUse => "color=orange,label=\"next lexical use\",style=dashed".toList
  | .assignedFrom => "color=brown,label=\"assigned from\",style=dotted".toList
  | .returnsTo => "color=black,label=\"returns to\",style=dotted".toList

/-- The line that draws a thing. -/
def entityLine (sort : Entity) (visit : Visit) : List Char :=
  line (name sort visit.id ++ " [label=\"".toList ++ mark sort ++ ':' :: escape visit.label ++
    '"' :: style sort ++ "];".toList)

/-- The line that draws an edge between two names. -/
def arrow (source target attributes : List Char) : List Char :=
  line (source ++ " -> ".toList ++ target ++ " [".toList ++ attributes ++ "];".toList)

/-- The line that draws an edge. A return is drawn from the token back to the call site. -/
def edgeLine (relation : Relation) (source target : Nat) : List Char :=
  let source := name relation.source source
  let target := name relation.target target
  match relation with
  | .returnsTo => arrow target source (edgeStyle relation)
  | _ => arrow source target (edgeStyle relation)

/-! ## Events -/

/-- The lines of an event. -/
def eventText : Event → List Char
  | .classStart name =>
    "digraph \"".toList ++ escape name ++ "\" \x7b\n".toList ++
      line ("C [label=\"class ".toList ++ escape name ++ "\"];".toList)
  | .classEnd _ => "\x7d\n".toList
  | .methodStart signature root =>
    let method := 'M' :: Nat.toDigits 10 root.id
    '\n' :: line ("// begin method ".toList ++ escape signature) ++
      line (method ++ " [label=\"M:".toList ++ escape signature ++ "\"];".toList) ++
      line ("C -> ".toList ++ method ++ [';']) ++
      line (method ++ " -> ".toList ++ name .node root.id ++ [';'])
  | .methodEnd signature _ => line ("// end method ".toList ++ escape signature)
  | .entity sort visit => entityLine sort visit
  | .edge relation source target => edgeLine relation source.id target.id

/-- The text of a walk. -/
def render (events : List Event) : List Char := events.flatMap eventText

end CodeGraph.Dot
