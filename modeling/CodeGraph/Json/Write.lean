/-
# Writing JSON

The compact written form: no blanks, members in the order given. In strings, quotes, backslashes and
controls are escaped, by a letter where there is one, and nothing else.
-/

namespace CodeGraph.Json

/-! ## Strings -/

/-- The lower-case hexadecimal digits of a control character. -/
def controlDigits (c : Char) : List Char :=
  [Nat.digitChar (c.toNat / 16), Nat.digitChar (c.toNat % 16)]

/-- One character of a string. -/
def encodeChar (c : Char) : List Char :=
  match c with
  | '"' => ['\\', '"']
  | '\\' => ['\\', '\\']
  | '\x08' => ['\\', 'b']
  | '\x0c' => ['\\', 'f']
  | '\n' => ['\\', 'n']
  | '\r' => ['\\', 'r']
  | '\t' => ['\\', 't']
  | c => if c.toNat < 32 then '\\' :: 'u' :: '0' :: '0' :: controlDigits c else [c]

/-- A string between its quotes. -/
def encodeText (text : String) : List Char := '"' :: (text.toList.flatMap encodeChar ++ ['"'])

/-! ## Other values -/

/-- A natural number. -/
def encodeNat (n : Nat) : List Char := Nat.toDigits 10 n

/-- A boolean. -/
def encodeBool (b : Bool) : List Char := if b then "true".toList else "false".toList

/-- Separates written values by commas. -/
def separate (values : List (List Char)) : List Char := [','].intercalate values

/-- A list of written values. -/
def encodeList (values : List (List Char)) : List Char := '[' :: (separate values ++ [']'])

/-- An object of keys and written values. -/
def encodeObject (members : List (String × List Char)) : List Char :=
  let written := members.map fun (key, value) => encodeText key ++ ':' :: value
  '{' :: (separate written ++ ['}'])

end CodeGraph.Json
