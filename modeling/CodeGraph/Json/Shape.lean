/-
# JSON lists, records and choices

Readers for composite values. A list reads its elements with one reader. A record is read from an
object, whose members come in any order and may be strange, or from an array of its fields in
order; fields land in a draft, and what the draft lacks at the end is filled or missed. A choice is
a name, or an object with that name as its only key.

The number `fuel` bounds the members of one bracket; twice the length of the text is enough.
-/
import CodeGraph.Json.Value

namespace CodeGraph.Json

/-! ## Brackets -/

/-- Goes to the next element of a list: the text from it on, or `none` at the end, which is left in
place. -/
def nextElement? (first : Bool) (cs : List Char) : Except Failure (Option (List Char)) :=
  match skipBlank cs with
  | [] => refuseAt .endOfList []
  | ']' :: _ => .ok none
  | c :: rest =>
    if first then .ok (some (c :: rest))
    else if c = ',' then
      match skipBlank rest with
      | ']' :: after => refuseAt .trailingComma (']' :: after)
      | after => .ok (some after)
    else refuseAt .expectedListComma (c :: rest)

/-- Goes to the next member of an object: the text behind the opening quote of its key, or `none` at
the end, which is left in place. -/
def nextKey? (first : Bool) (cs : List Char) : Except Failure (Option (List Char)) :=
  match skipBlank cs with
  | [] => refuseAt .endOfObject []
  | '}' :: _ => .ok none
  | c :: rest =>
    if first then
      if c = '"' then .ok (some rest) else refuseAt .keyNotText (c :: rest)
    else if c = ',' then
      match skipBlank rest with
      | [] => refuseAt .endOfValue []
      | '"' :: after => .ok (some after)
      | '}' :: after => refuseAt .trailingComma ('}' :: after)
      | after => refuseAt .keyNotText after
    else refuseAt .expectedObjectComma (c :: rest)

/-- What is left of a list that is given up. -/
def leaveList (cs : List Char) : List Char :=
  match skipBlank cs with
  | ']' :: rest => rest
  | ',' :: rest => skipBlank rest
  | rest => rest

/-- What is left of an object that is given up. -/
def leaveObject (cs : List Char) : List Char :=
  match skipBlank cs with
  | '}' :: rest => rest
  | rest => rest

/-- Takes the end of a list that can have no more elements. -/
def closeList (cs : List Char) : Except Failure (List Char) :=
  match skipBlank cs with
  | [] => refuseAt .endOfList []
  | ']' :: rest => .ok rest
  | ',' :: rest =>
    match skipBlank rest with
    | ']' :: after => refuseAt .trailingComma (']' :: after)
    | after => refuseAt .trailingCharacters after
  | rest => refuseAt .trailingCharacters rest

/-! ## Lists -/

/-- Reads the remaining elements of a list and its end; `done` has the elements so far, latest
first. -/
def readElements {α : Type} (read : Reader α) (done : List α) (first : Bool) :
    Nat → Reader (List α)
  | 0, cs => refuseBefore .tooDeep cs
  | n + 1, cs =>
    match nextElement? first cs with
    | .error failure => .error failure
    | .ok none => (closeList cs).map (done.reverse, ·)
    | .ok (some element) =>
      match read element with
      | .error failure => .error failure
      | .ok (a, rest) => readElements read (a :: done) false n rest

/-- Reads a list. -/
def readList {α : Type} (fuel : Nat) (read : Reader α) : Reader (List α) := fun cs =>
  match skipBlank cs with
  | [] => refuseAt .endOfValue []
  | '[' :: rest => (readElements read [] true fuel rest).mapError (·.settle leaveList)
  | cs => refuseValue "a sequence" cs

/-! ## Records -/

/-- A field of a record that is drafted in `δ`. -/
structure Field (δ : Type) where
  name : String
  /-- The draft has the field already. -/
  isGiven : δ → Bool
  /-- Reads the field's value into the draft. -/
  read : δ → Reader δ

/-- How a record is read: its title in messages, its fields in order, the draft to start from, and
how a draft becomes the record or fails for the want of a field. -/
structure Shape (δ α : Type) where
  title : String
  fields : List (Field δ)
  blank : δ
  finish : δ → Except String α

namespace Shape

variable {δ α : Type} (shape : Shape δ α)

/-- Reads the value of the member `key`, which no draft may have twice; a strange one is skipped. -/
def readMember (fuel : Nat) (draft : δ) (key : String) (cs : List Char) :
    Except Failure (δ × List Char) :=
  match shape.fields.find? (·.name == key) with
  | some field =>
    if field.isGiven draft then refuseAround (.repeatedField key) cs
    else scanColon cs >>= field.read draft
  | none => do
    let rest ← scanColon cs
    let rest ← skipValue fuel rest
    return (draft, rest)

/-- Reads the remaining members of an object and its end. -/
def readMembers (fuel : Nat) (draft : δ) (first : Bool) : Nat → Reader α
  | 0, cs => refuseBefore .tooDeep cs
  | n + 1, cs =>
    match nextKey? first cs with
    | .error failure => .error failure
    | .ok none =>
      match shape.finish draft with
      | .ok a => .ok (a, leaveObject cs)
      | .error name => refuseAround (.missingField name) cs
    | .ok (some key) =>
      match scanString [] key with
      | .error failure => .error failure
      | .ok (key, rest) =>
        match shape.readMember fuel draft key rest with
        | .error failure => .error failure
        | .ok (draft, rest) => readMembers fuel draft false n rest

/-- Reads the remaining fields of an array, up to its end. -/
def readFields (draft : δ) (first : Bool) : List (Field δ) → Reader δ
  | [], cs => .ok (draft, cs)
  | field :: fields, cs =>
    match nextElement? first cs with
    | .error failure => .error failure
    | .ok none => .ok (draft, cs)
    | .ok (some element) =>
      match field.read draft element with
      | .error failure => .error failure
      | .ok (draft, rest) => readFields draft false fields rest

/-- The number of the field of that name. -/
def fieldIndex (name : String) : Nat := shape.fields.findIdx (·.name == name)

/-- Reads the fields of an array and its end. A field that is missed is reported as an array that
is too short. -/
def readArray : Reader α := fun cs =>
  match readFields shape.blank true shape.fields cs with
  | .error failure => .error failure
  | .ok (draft, rest) =>
    match shape.finish draft with
    | .ok a => (closeList rest).map (a, ·)
    | .error name =>
      let wanted := shape.title ++ " with " ++ toString shape.fields.length ++ " elements"
      refuseAround (.wrongLength (shape.fieldIndex name) wanted) rest

/-- Reads a record from an object or from an array. -/
def read (fuel : Nat) : Reader α := fun cs =>
  match skipBlank cs with
  | [] => refuseAt .endOfValue []
  | '[' :: rest => (shape.readArray rest).mapError (·.settle leaveList)
  | '{' :: rest =>
    (shape.readMembers fuel shape.blank true fuel rest).mapError (·.settle leaveObject)
  | cs => refuseValue shape.title cs

/-- Reads a record from an array only. -/
def readTuple : Reader α := fun cs =>
  match skipBlank cs with
  | [] => refuseAt .endOfValue []
  | '[' :: rest => (shape.readArray rest).mapError (·.settle leaveList)
  | cs => refuseValue shape.title cs

end Shape

/-! ## Choices -/

/-- One of the values a choice may take. -/
structure Alternative (α : Type) where
  name : String
  /-- What the name alone stands for, if it stands for anything. -/
  bare? : Option α
  /-- Reads what goes with the name. -/
  read : Reader α

/-- The alternative that is a name and no more; a null may go with it. -/
def Alternative.named {α : Type} (name : String) (a : α) : Alternative α where
  name := name
  bare? := some a
  read cs := (readNull cs).map fun (_, rest) => (a, rest)

/-- The alternative of that name; `rest` is the text behind the name. -/
def pick {α : Type} (alternatives : List (Alternative α)) (name : String) (rest : List Char) :
    Except Failure (Alternative α) :=
  match alternatives.find? (·.name == name) with
  | some alternative => .ok alternative
  | none => refuseBefore (.unknownChoice name (alternatives.map (·.name))) rest

/-- Reads a choice in its object form, behind the opening brace. -/
def readKeyedChoice {α : Type} (alternatives : List (Alternative α)) : Reader α := fun cs =>
  match skipBlank cs with
  | [] => refuseAt .endOfObject []
  | '}' :: rest => refuseAt .expectedValue ('}' :: rest)
  | '"' :: rest => do
    let (name, rest) ← scanString [] rest
    let alternative ← pick alternatives name rest
    let rest ← scanColon rest
    let (a, rest) ← alternative.read rest
    match skipBlank rest with
    | [] => refuseBefore .endOfObject []
    | '}' :: rest => return (a, rest)
    | rest => refuseBefore .expectedValue rest
  | rest => refuseAt .keyNotText rest

/-- Reads a choice. -/
def readChoice {α : Type} (alternatives : List (Alternative α)) : Reader α := fun cs =>
  match skipBlank cs with
  | [] => refuseAt .endOfValue []
  | '{' :: rest => readKeyedChoice alternatives rest
  | '"' :: rest => do
    let (name, rest) ← scanString [] rest
    let alternative ← pick alternatives name rest
    match alternative.bare? with
    | some a => return (a, rest)
    | none => refuseAround (.wrongType .bareName "newtype variant") rest
  | rest => refuseAt .expectedValue rest

/-! ## Whole texts -/

/-- Enough fuel to read a text: twice its length, and the ends. -/
def enoughFuel (cs : List Char) : Nat := 2 * cs.length + 2

/-- Reads a text that holds one value and nothing else but blanks. -/
def readWhole {α : Type} (read : Nat → Reader α) (cs : List Char) : Except Failure α := do
  let (a, rest) ← read (enoughFuel cs) cs
  match skipBlank rest with
  | [] => return a
  | rest => refuseAt .trailingCharacters rest

end CodeGraph.Json
