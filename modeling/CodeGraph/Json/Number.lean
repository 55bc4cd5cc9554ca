/-
# JSON numbers

`scanNumber` takes a number off the text. Integers that fit in 64 bits stay exact; everything else
becomes a double, computed from the leading digits and a power of ten. `skipNumber` only checks the
form.
-/
import CodeGraph.Json.Scan

namespace CodeGraph.Json

/-- A number as it is read. -/
inductive Number
  | natural (value : Nat)
  /-- An integer below zero. -/
  | negative (value : Int)
  | float (value : Float)

/-- How a message names a number. -/
def Number.found : Number → Found
  | natural value => .integer value
  | negative value => .integer value
  | float value => .float value

/-! ## Digits -/

/-- The value of a decimal digit. -/
def digitValue (c : Char) : Nat := c.toNat - '0'.toNat

/-- The text goes on with a digit. -/
def startsWithDigit : List Char → Bool
  | [] => false
  | c :: _ => c.isDigit

/-- Takes digits into the significand for as long as it fits in 64 bits; counts them. -/
def takeDigits (significand count : Nat) : List Char → Nat × Nat × List Char
  | [] => (significand, count, [])
  | c :: rest =>
    let next := significand * 10 + digitValue c
    if c.isDigit && next < UInt64.size then takeDigits next (count + 1) rest
    else (significand, count, c :: rest)

/-- Takes the digits of an exponent; `none` when it grows beyond 31 bits, with the text behind the
digit that did it. -/
def takeExponent (value : Nat) : List Char → Option Nat × List Char
  | [] => (some value, [])
  | c :: rest =>
    if c.isDigit then
      let next := value * 10 + digitValue c
      if next < UInt32.size / 2 then takeExponent next rest else (none, rest)
    else (some value, c :: rest)

/-! ## Doubles from parts -/

/-- The double nearest to a power of ten. -/
def powerOfTen (n : Nat) : Float := Float.ofScientific 1 false n

/-- Divides by `10 ^ 308` the given number of times, or until nothing is left. -/
def scaleDown : Nat → Float → Float
  | 0, x => x
  | n + 1, x => if x == 0 then x else scaleDown n (x / powerOfTen 308)

/-- The double for `significand * 10 ^ exponent`, `none` beyond the largest one. -/
def floatOfParts? (significand : Nat) (exponent : Int) : Option Float :=
  let x := (UInt64.ofNat significand).toFloat
  if 0 ≤ exponent then
    if exponent ≤ 308 then
      let y := x * powerOfTen exponent.toNat
      if y.isInf then none else some y
    else if x == 0 then some x
    else none
  else
    let down := exponent.natAbs
    let steps := (down - 1) / 308
    some (scaleDown steps x / powerOfTen (down - 308 * steps))

/-- The number with the given sign and parts; `rest` is the text behind it. -/
def finishFloat (negative : Bool) (significand : Nat) (exponent : Int) (rest : List Char) :
    Except Failure (Number × List Char) :=
  match floatOfParts? significand exponent with
  | some x => .ok (.float (if negative then -x else x), rest)
  | none => refuseBefore .numberOutOfRange rest

/-! ## Reading -/

/-- Takes what follows the letter of an exponent. -/
def scanExponent (negative : Bool) (significand : Nat) (exponent : Int) (cs : List Char) :
    Except Failure (Number × List Char) :=
  let (down, digits) : Bool × List Char :=
    match cs with
    | '+' :: rest => (false, rest)
    | '-' :: rest => (true, rest)
    | _ => (false, cs)
  match digits with
  | [] => refuseBefore .endOfValue []
  | c :: _ =>
    if c.isDigit then
      match takeExponent 0 digits with
      | (some e, rest) =>
        finishFloat negative significand (if down then exponent - e else exponent + e) rest
      | (none, rest) =>
        if significand != 0 && !down then refuseBefore .numberOutOfRange rest
        else .ok (.float (if negative then -0.0 else 0.0), rest.dropWhile Char.isDigit)
    else refuseAt .invalidNumber digits

/-- Ends a number whose digits have been taken: an exponent may follow. -/
def scanScale (negative : Bool) (significand : Nat) (exponent : Int) (cs : List Char) :
    Except Failure (Number × List Char) :=
  match cs with
  | 'e' :: rest => scanExponent negative significand exponent rest
  | 'E' :: rest => scanExponent negative significand exponent rest
  | _ => finishFloat negative significand exponent cs

/-- Takes what follows a decimal point. Digits beyond 64 bits do not count. -/
def scanFraction (negative : Bool) (significand : Nat) (exponent : Int) (cs : List Char) :
    Except Failure (Number × List Char) :=
  let (significand, count, rest) := takeDigits significand 0 cs
  if startsWithDigit rest then
    scanScale negative significand (exponent - count) (rest.dropWhile Char.isDigit)
  else if count = 0 then
    match rest with
    | [] => refuseAt .endOfValue []
    | _ => refuseAt .invalidNumber rest
  else scanScale negative significand (exponent - count) rest

/-- Ends a number whose integer part fits in 64 bits. Zero below zero is a double. -/
def finishInteger (negative : Bool) (significand : Nat) (cs : List Char) :
    Except Failure (Number × List Char) :=
  match cs with
  | '.' :: rest => scanFraction negative significand 0 rest
  | 'e' :: rest => scanExponent negative significand 0 rest
  | 'E' :: rest => scanExponent negative significand 0 rest
  | _ =>
    if !negative then .ok (.natural significand, cs)
    else if 0 < significand && significand ≤ UInt64.size / 2 then .ok (.negative (-significand), cs)
    else .ok (.float (-(UInt64.ofNat significand).toFloat), cs)

/-- Ends a number whose integer part goes on beyond 64 bits. -/
def finishLong (negative : Bool) (significand : Nat) (cs : List Char) :
    Except Failure (Number × List Char) :=
  let beyond := (cs.takeWhile Char.isDigit).length
  match cs.dropWhile Char.isDigit with
  | '.' :: rest => scanFraction negative significand beyond rest
  | rest => scanScale negative significand beyond rest

/-- Takes a number whose sign has been taken. -/
def scanNumber (negative : Bool) (cs : List Char) : Except Failure (Number × List Char) :=
  match cs with
  | [] => refuseBefore .endOfValue []
  | '0' :: rest =>
    if startsWithDigit rest then refuseAt .invalidNumber rest
    else finishInteger negative 0 rest
  | c :: _ =>
    if c.isDigit then
      let (significand, _, rest) := takeDigits 0 0 cs
      if startsWithDigit rest then finishLong negative significand rest
      else finishInteger negative significand rest
    else refuseAt .invalidNumber cs

/-! ## Skipping -/

/-- Passes over what follows the letter of an exponent. -/
def skipExponent (cs : List Char) : Except Failure (List Char) :=
  let digits :=
    match cs with
    | '+' :: rest => rest
    | '-' :: rest => rest
    | _ => cs
  if startsWithDigit digits then .ok (digits.dropWhile Char.isDigit)
  else refuseAt .invalidNumber digits

/-- Passes over what follows the integer part of a number. -/
def skipFraction (cs : List Char) : Except Failure (List Char) :=
  match cs with
  | '.' :: digits =>
    if startsWithDigit digits then
      match digits.dropWhile Char.isDigit with
      | 'e' :: rest => skipExponent rest
      | 'E' :: rest => skipExponent rest
      | rest => .ok rest
    else refuseAt .invalidNumber digits
  | 'e' :: rest => skipExponent rest
  | 'E' :: rest => skipExponent rest
  | _ => .ok cs

/-- Passes over a number whose sign has been passed. -/
def skipNumber (cs : List Char) : Except Failure (List Char) :=
  match cs with
  | '0' :: rest =>
    if startsWithDigit rest then refuseAt .invalidNumber rest else skipFraction rest
  | _ =>
    if startsWithDigit cs then skipFraction (cs.dropWhile Char.isDigit)
    else refuseAt .invalidNumber cs

end CodeGraph.Json
