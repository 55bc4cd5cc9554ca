/-
# Why a JSON text is refused

A reader stops at the first thing that does not fit. `Cause` says what that was and words the
message; `Failure` adds where it was, as the text not yet passed.
-/
import CodeGraph.Decimal.Shortest
import CodeGraph.Text.Encoding

namespace CodeGraph.Json

/-! ## Values met in the wrong place -/

/-- What stands in the text where another kind of value is expected. -/
inductive Found
  | null
  | boolean (value : Bool)
  | integer (value : Int)
  | float (value : Float)
  | text (value : String)
  | list
  | object
  /-- The name of a choice without the value that goes with it. -/
  | bareName

/-- The digits of a decimal as a message shows them: positional from `10 ^ -5` to `10 ^ 16`, with at
least one decimal, and in scientific form beyond. -/
def pointText (point : Decimal.Point) : List Char :=
  let digits := Nat.toDigits 10 point.digits
  let lead := digits.length + point.exponent - 1
  if -5 ≤ lead && lead < 0 then
    "0.".toList ++ List.replicate (-lead - 1).toNat '0' ++ digits
  else if 0 ≤ lead && lead ≤ 15 then
    if 0 ≤ point.exponent then
      digits ++ List.replicate point.exponent.toNat '0' ++ ".0".toList
    else
      digits.take (lead.toNat + 1) ++ '.' :: digits.drop (lead.toNat + 1)
  else
    let decimals := if digits.length = 1 then [] else '.' :: digits.drop 1
    digits.take 1 ++ decimals ++ 'e' :: (if lead < 0 then '-' else '+') ::
      Nat.toDigits 10 lead.natAbs

/-- A double as a message shows it. -/
def floatText (value : Float) : String :=
  let bits := value.toBits.toNat
  let sign := if bits < UInt64.size / 2 then [] else ['-']
  let size := bits % (UInt64.size / 2)
  let shown := if size = 0 then "0.0".toList else pointText (Decimal.Binary.ofBits size).shortest
  String.ofList (sign ++ shown)

/-- The words for what was found. -/
def Found.describe : Found → String
  | null => "null"
  | boolean value => "boolean `" ++ (if value then "true" else "false") ++ "`"
  | integer value => "integer `" ++ toString value ++ "`"
  | float value => "floating point `" ++ floatText value ++ "`"
  | text value => "string " ++ Text.quoted value
  | list => "sequence"
  | object => "map"
  | bareName => "unit variant"

/-! ## Causes -/

/-- The reasons for which a text is refused. -/
inductive Cause
  | endOfValue
  | endOfObject
  | endOfList
  | endOfText
  | expectedValue
  | expectedWord
  | expectedColon
  | expectedListComma
  | expectedObjectComma
  | keyNotText
  | trailingComma
  | trailingCharacters
  | invalidNumber
  | numberOutOfRange
  | invalidEscape
  | controlCharacter
  | loneSurrogate
  | brokenSurrogatePair
  | tooDeep
  | wrongType (found : Found) (expected : String)
  | wrongValue (found : Found) (expected : String)
  | wrongLength (length : Nat) (expected : String)
  | unknownChoice (name : String) (known : List String)
  | missingField (name : String)
  | repeatedField (name : String)

/-- The names a choice may take, as a message lists them. -/
def listChoices (known : List String) : String :=
  let marked := known.map fun name => "`" ++ name ++ "`"
  match marked with
  | [] => "nothing"
  | [only] => only
  | [first, second] => first ++ " or " ++ second
  | _ => "one of " ++ ", ".intercalate marked

/-- The wording of a cause. -/
def Cause.message : Cause → String
  | endOfValue => "EOF while parsing a value"
  | endOfObject => "EOF while parsing an object"
  | endOfList => "EOF while parsing a list"
  | endOfText => "EOF while parsing a string"
  | expectedValue => "expected value"
  | expectedWord => "expected ident"
  | expectedColon => "expected `:`"
  | expectedListComma => "expected `,` or `]`"
  | expectedObjectComma => "expected `,` or `\x7d`"
  | keyNotText => "key must be a string"
  | trailingComma => "trailing comma"
  | trailingCharacters => "trailing characters"
  | invalidNumber => "invalid number"
  | numberOutOfRange => "number out of range"
  | invalidEscape => "invalid escape"
  | controlCharacter => "control character (\\u0000-\\u001F) found while parsing a string"
  | loneSurrogate => "lone leading surrogate in hex escape"
  | brokenSurrogatePair => "unexpected end of hex escape"
  | tooDeep => "recursion limit exceeded"
  | wrongType found expected => "invalid type: " ++ found.describe ++ ", expected " ++ expected
  | wrongValue found expected => "invalid value: " ++ found.describe ++ ", expected " ++ expected
  | wrongLength length expected =>
    "invalid length " ++ toString length ++ ", expected " ++ expected
  | unknownChoice name known => "unknown variant `" ++ name ++ "`, expected " ++ listChoices known
  | missingField name => "missing field `" ++ name ++ "`"
  | repeatedField name => "duplicate field `" ++ name ++ "`"

/-! ## Places -/

/-- A refusal: its cause and the text from the place it is blamed on. -/
structure Failure where
  cause : Cause
  /-- The text not yet passed. -/
  rest : List Char
  /-- How many bytes of `rest` still belong to the place; `none` until the value around the fault
  has settled where it ends. -/
  reach : Option Nat

/-- A reader takes a value off the front of a text. -/
abbrev Reader (α : Type) := List Char → Except Failure (α × List Char)

/-- Refuses at the end of the text passed so far. -/
def refuseBefore {α : Type} (cause : Cause) (rest : List Char) : Except Failure α :=
  .error { cause, rest, reach := some 0 }

/-- Refuses at the next character. -/
def refuseAt {α : Type} (cause : Cause) (rest : List Char) : Except Failure α :=
  .error { cause, rest, reach := some 1 }

/-- Refuses, leaving the place to the value around. -/
def refuseAround {α : Type} (cause : Cause) (rest : List Char) : Except Failure α :=
  .error { cause, rest, reach := none }

/-- Settles the place of a failure that has none: what `close` leaves of the text. -/
def Failure.settle (failure : Failure) (close : List Char → List Char) : Failure :=
  match failure.reach with
  | some _ => failure
  | none => { failure with rest := close failure.rest, reach := some 0 }

/-- A place in a text, in lines from 1 and bytes into the line. -/
structure Place where
  line : Nat
  column : Nat
  deriving DecidableEq

/-- The place right after the given bytes. -/
def Place.after (passed : List UInt8) : Place :=
  { line := 1 + passed.count 10
    column := (passed.reverse.takeWhile (· != 10)).length }

/-- Where in `text` the failure is; `none` if that was never settled. -/
def Failure.place? (failure : Failure) (text : List Char) : Option Place :=
  failure.reach.map fun reach =>
    let bytes := Text.utf8 text
    Place.after (bytes.take (bytes.length - (Text.utf8 failure.rest).length + reach))

end CodeGraph.Json
