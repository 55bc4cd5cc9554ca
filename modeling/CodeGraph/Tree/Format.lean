/-
# The JSON form of trees

A node is an object with its kind and, where there are any, its name, its signature and its
children; a child is an object whose one key tells nodes from tokens. Trees of any depth are read.
-/
import CodeGraph.Json.Write
import CodeGraph.Tree.Basic

namespace CodeGraph

/-! ## Tokens -/

/-- A token as far as it has been read. -/
structure TokenDraft where
  text? : Option String := none
  role? : Option Role := none

/-- How a token is read. A token is plain unless it says otherwise. -/
def tokenShape : Json.Shape TokenDraft Item where
  title := "struct SyntaxToken"
  fields := [
    { name := "text"
      isGiven := fun draft => draft.text?.isSome
      read := fun draft cs => do
        let (text, rest) ← Json.readText cs
        return ({ draft with text? := some text }, rest) },
    { name := "role"
      isGiven := fun draft => draft.role?.isSome
      read := fun draft cs => do
        let (role, rest) ← Role.read cs
        return ({ draft with role? := some role }, rest) }]
  blank := {}
  finish draft :=
    match draft.text? with
    | some text => .ok (.token text (draft.role?.getD .plain))
    | none => .error "text"

/-! ## Nodes -/

/-- A node as far as it has been read. Of a field that may be null, `some none` is a null read. -/
structure TreeDraft where
  kind? : Option Kind := none
  name? : Option (Option String) := none
  signature? : Option (Option String) := none
  children? : Option Forest := none

/-- How a node is read, given how its children are. -/
def treeShape (readChildren : Json.Reader Forest) : Json.Shape TreeDraft Tree where
  title := "struct SyntaxNode"
  fields := [
    { name := "kind"
      isGiven := fun draft => draft.kind?.isSome
      read := fun draft cs => do
        let (kind, rest) ← Kind.read cs
        return ({ draft with kind? := some kind }, rest) },
    { name := "name"
      isGiven := fun draft => draft.name?.isSome
      read := fun draft cs => do
        let (name, rest) ← Json.readOptional Json.readText cs
        return ({ draft with name? := some name }, rest) },
    { name := "signature"
      isGiven := fun draft => draft.signature?.isSome
      read := fun draft cs => do
        let (signature, rest) ← Json.readOptional Json.readText cs
        return ({ draft with signature? := some signature }, rest) },
    { name := "children"
      isGiven := fun draft => draft.children?.isSome
      read := fun draft cs => do
        let (children, rest) ← readChildren cs
        return ({ draft with children? := some children }, rest) }]
  blank := {}
  finish draft :=
    match draft.kind? with
    | some kind =>
      .ok {
        kind
        name := draft.name?.join
        signature := draft.signature?.join
        children := draft.children?.getD .nil }
    | none => .error "kind"

/-- How a child is read, given how nodes are. -/
def itemAlternatives (fuel : Nat) (readTree : Json.Reader Tree) : List (Json.Alternative Item) := [
  { name := "node"
    bare? := none
    read := fun cs => (readTree cs).map fun (tree, rest) => (.node tree, rest) },
  { name := "token"
    bare? := none
    read := tokenShape.read fuel }]

/-- Reads the children of a node, given how nodes are read. -/
def readForest (fuel : Nat) (readTree : Json.Reader Tree) : Json.Reader Forest := fun cs =>
  (Json.readList fuel (Json.readChoice (itemAlternatives fuel readTree)) cs).map
    fun (items, rest) => (.ofList items, rest)

/-- Reads a node that is nested less deeply than the second number. -/
def readTree (fuel : Nat) : Nat → Json.Reader Tree
  | 0, cs => Json.refuseBefore .tooDeep cs
  | depth + 1, cs => (treeShape (readForest fuel (readTree fuel depth))).read fuel cs

/-- Reads a text that holds a tree. -/
def Tree.ofJson (cs : List Char) : Except Json.Failure Tree :=
  Json.readWhole (fun fuel => readTree fuel fuel) cs

/-! ## Writing -/

/-- Writes a key, the value behind it and `rest`. -/
def writeMember (key : String) (value rest : List Char) : List Char :=
  Json.encodeText key ++ ':' :: (value ++ rest)

/-- Writes a member only if there is a text to write. -/
def writeOptional (key : String) (text? : Option String) (rest : List Char) : List Char :=
  match text? with
  | some text => ',' :: writeMember key (Json.encodeText text) rest
  | none => rest

/-- Writes the members of a node before its children, then `rest`. -/
def writeHead (kind : Kind) (name signature : Option String) (rest : List Char) : List Char :=
  writeMember "kind" (Json.encodeText kind.name)
    (writeOptional "name" name (writeOptional "signature" signature rest))

/-- Writes the items of a forest, each behind a comma unless it is the `first`, then `rest`. -/
def Forest.write (first : Bool) : Forest → List Char → List Char
  | .nil, rest => rest
  | .token text role tail, rest =>
    let separator := if first then [] else [',']
    separator ++ "\x7b\"token\":\x7b".toList ++
      writeMember "text" (Json.encodeText text)
        (',' :: writeMember "role" (Json.encodeText role.name)
          ('}' :: '}' :: tail.write false rest))
  | .node kind name signature children tail, rest =>
    let separator := if first then [] else [',']
    let after := '}' :: '}' :: tail.write false rest
    separator ++ "\x7b\"node\":\x7b".toList ++
      writeHead kind name signature (
        match children with
        | .nil => after
        | children => ",\"children\":[".toList ++ children.write true (']' :: after))

/-- The compact JSON form of a tree. -/
def Tree.toJson (tree : Tree) : List Char :=
  '{' :: writeHead tree.kind tree.name tree.signature (
    match tree.children with
    | .nil => ['}']
    | children => ",\"children\":[".toList ++ children.write true [']', '}'])

end CodeGraph
