/-
# JSON scalars and skipped values

Readers for the scalar kinds a field may have, the refusal of a value of another kind, and
`skipValue`, which passes over a value nobody asked for. A value of the wrong kind is read to its
end before it is refused, so that its own faults come first; lists and objects are not looked into.
-/
import CodeGraph.Json.Number

namespace CodeGraph.Json

/-! ## Values of another kind -/

/-- Refuses the value at the head of `cs`, which is not of the expected kind. -/
def refuseValue {α : Type} (expected : String) (cs : List Char) : Except Failure α :=
  match cs with
  | 'n' :: rest => do
    let rest ← scanWord "ull".toList rest
    refuseBefore (.wrongType .null expected) rest
  | 't' :: rest => do
    let rest ← scanWord "rue".toList rest
    refuseBefore (.wrongType (.boolean true) expected) rest
  | 'f' :: rest => do
    let rest ← scanWord "alse".toList rest
    refuseBefore (.wrongType (.boolean false) expected) rest
  | '"' :: rest => do
    let (text, rest) ← scanString [] rest
    refuseBefore (.wrongType (.text text) expected) rest
  | '-' :: rest => do
    let (number, rest) ← scanNumber true rest
    refuseBefore (.wrongType number.found expected) rest
  | '[' :: _ => refuseBefore (.wrongType .list expected) cs
  | '{' :: _ => refuseBefore (.wrongType .object expected) cs
  | _ =>
    if startsWithDigit cs then do
      let (number, rest) ← scanNumber false cs
      refuseBefore (.wrongType number.found expected) rest
    else refuseAt .expectedValue cs

/-! ## Scalars -/

/-- Reads a string. -/
def readText : Reader String := fun cs =>
  match skipBlank cs with
  | [] => refuseAt .endOfValue []
  | '"' :: rest => scanString [] rest
  | cs => refuseValue "a string" cs

/-- Reads a boolean. -/
def readBool : Reader Bool := fun cs =>
  match skipBlank cs with
  | [] => refuseAt .endOfValue []
  | 't' :: rest => (scanWord "rue".toList rest).map (true, ·)
  | 'f' :: rest => (scanWord "alse".toList rest).map (false, ·)
  | cs => refuseValue "a boolean" cs

/-- Accepts a number that is a natural below the bound. -/
def acceptNatural (expected : String) (bound : Nat) (number : Number) (rest : List Char) :
    Except Failure (Nat × List Char) :=
  match number with
  | .natural value =>
    if value < bound then .ok (value, rest)
    else refuseBefore (.wrongValue number.found expected) rest
  | .negative _ => refuseBefore (.wrongValue number.found expected) rest
  | .float _ => refuseBefore (.wrongType number.found expected) rest

/-- Reads a natural number below the bound; `expected` names the kind of number. -/
def readNatural (expected : String) (bound : Nat) : Reader Nat := fun cs =>
  match skipBlank cs with
  | [] => refuseAt .endOfValue []
  | '-' :: rest => do
    let (number, rest) ← scanNumber true rest
    acceptNatural expected bound number rest
  | cs =>
    if startsWithDigit cs then do
      let (number, rest) ← scanNumber false cs
      acceptNatural expected bound number rest
    else refuseValue expected cs

/-- Reads a null. -/
def readNull : Reader Unit := fun cs =>
  match skipBlank cs with
  | [] => refuseAt .endOfValue []
  | 'n' :: rest => (scanWord "ull".toList rest).map ((), ·)
  | cs => refuseValue "unit" cs

/-- Reads a value or null. -/
def readOptional {α : Type} (read : Reader α) : Reader (Option α) := fun cs =>
  match skipBlank cs with
  | 'n' :: rest => (scanWord "ull".toList rest).map (none, ·)
  | cs => (read cs).map fun (a, rest) => (some a, rest)

/-! ## Skipping -/

/-- What a value is inside of. -/
inductive Bracket
  | list
  | object

namespace Bracket

/-- The text ends inside the bracket. -/
def endCause : Bracket → Cause
  | list => .endOfList
  | object => .endOfObject

/-- A member of the bracket is followed by neither a comma nor the end. -/
def commaCause : Bracket → Cause
  | list => .expectedListComma
  | object => .expectedObjectComma

/-- The character that closes the bracket. -/
def closer : Bracket → Char
  | list => ']'
  | object => '}'

end Bracket

/-- What a skip expects next. -/
inductive Awaited
  /-- A value. -/
  | value
  /-- The first member of a bracket, or its end. -/
  | first
  /-- A comma and the next member of a bracket, or its end. -/
  | next

/-- Passes over the key of a member and its colon; members of lists have neither. -/
def skipKey (bracket : Bracket) (cs : List Char) : Except Failure (List Char) :=
  match bracket with
  | .list => .ok cs
  | .object =>
    match skipBlank cs with
    | [] => refuseAt .endOfObject []
    | '"' :: rest => skipString rest >>= scanColon
    | cs => refuseAt .keyNotText cs

/-- Passes over a value inside of the given open brackets, innermost first, and on to the end of
the outermost. Every step but the one into a first member takes a character, which bounds their
number by twice the length of the text. -/
def skipFrom : Nat → Awaited → List Bracket → List Char → Except Failure (List Char)
  | 0, _, _, cs => refuseBefore .tooDeep cs
  | n + 1, .value, brackets, cs =>
    match skipBlank cs with
    | [] => refuseAt .endOfValue []
    | '[' :: rest => skipFrom n .first (.list :: brackets) rest
    | '{' :: rest => skipFrom n .first (.object :: brackets) rest
    | '"' :: rest => skipString rest >>= skipFrom n .next brackets
    | 'n' :: rest => scanWord "ull".toList rest >>= skipFrom n .next brackets
    | 't' :: rest => scanWord "rue".toList rest >>= skipFrom n .next brackets
    | 'f' :: rest => scanWord "alse".toList rest >>= skipFrom n .next brackets
    | '-' :: rest => skipNumber rest >>= skipFrom n .next brackets
    | cs =>
      if startsWithDigit cs then skipNumber cs >>= skipFrom n .next brackets
      else refuseAt .expectedValue cs
  | _ + 1, _, [], cs => .ok cs
  | n + 1, .first, bracket :: brackets, cs =>
    match skipBlank cs with
    | [] => refuseAt bracket.endCause []
    | c :: rest =>
      if c = bracket.closer then skipFrom n .next brackets rest
      else skipKey bracket (c :: rest) >>= skipFrom n .value (bracket :: brackets)
  | n + 1, .next, bracket :: brackets, cs =>
    match skipBlank cs with
    | [] => refuseAt bracket.endCause []
    | c :: rest =>
      if c = bracket.closer then skipFrom n .next brackets rest
      else if c = ',' then skipKey bracket rest >>= skipFrom n .value (bracket :: brackets)
      else refuseAt bracket.commaCause (c :: rest)

/-- Passes over a value. -/
def skipValue (fuel : Nat) (cs : List Char) : Except Failure (List Char) :=
  skipFrom fuel .value [] cs

end CodeGraph.Json
