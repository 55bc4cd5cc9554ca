/-
# Words, escapes and strings

The pieces of JSON text below the level of values. Each scanner takes its piece off the front of the
text and never looks back.
-/
import CodeGraph.Json.Failure

namespace CodeGraph.Json

/-! ## Blanks and fixed words -/

/-- The four blanks of JSON. -/
def isBlank (c : Char) : Bool := c == ' ' || c == '\t' || c == '\n' || c == '\r'

/-- Passes over blanks. -/
def skipBlank (cs : List Char) : List Char := cs.dropWhile isBlank

/-- Takes the rest of a fixed word. -/
def scanWord : List Char → List Char → Except Failure (List Char)
  | [], rest => .ok rest
  | _ :: _, [] => refuseBefore .endOfValue []
  | w :: word, c :: rest =>
    if c = w then scanWord word rest else refuseAt .expectedWord (c :: rest)

/-- Takes a colon, after blanks. -/
def scanColon (cs : List Char) : Except Failure (List Char) :=
  match skipBlank cs with
  | [] => refuseAt .endOfObject []
  | ':' :: rest => .ok rest
  | rest => refuseAt .expectedColon rest

/-! ## Escapes -/

/-- The value of a hexadecimal digit, of either case. -/
def hexValue? (c : Char) : Option Nat :=
  if '0' ≤ c && c ≤ '9' then some (c.toNat - '0'.toNat)
  else if 'a' ≤ c && c ≤ 'f' then some (c.toNat - 'a'.toNat + 10)
  else if 'A' ≤ c && c ≤ 'F' then some (c.toNat - 'A'.toNat + 10)
  else none

/-- The value of four hexadecimal digits. -/
def hexValue4? (a b c d : Char) : Option Nat := do
  let a ← hexValue? a
  let b ← hexValue? b
  let c ← hexValue? c
  let d ← hexValue? d
  return ((a * 16 + b) * 16 + c) * 16 + d

/-- Four bytes or more are left. -/
def hasFourBytes (cs : List Char) : Bool := 4 ≤ (Text.utf8 (cs.take 4)).length

/-- Takes the four digits of a code-unit escape. Fewer than four bytes are a text cut short; four
bytes that are not digits are blamed as a whole. -/
def scanHex4 (cs : List Char) : Except Failure (Nat × List Char) :=
  if hasFourBytes cs then
    match cs with
    | a :: b :: c :: d :: rest =>
      match hexValue4? a b c d with
      | some unit => .ok (unit, rest)
      | none => .error { cause := .invalidEscape, rest := cs, reach := some 4 }
    | _ => .error { cause := .invalidEscape, rest := cs, reach := some 4 }
  else refuseBefore .endOfText []

/-- Takes what follows the first unit of a surrogate pair. -/
def scanLowHalf (high : Nat) (cs : List Char) : Except Failure (Char × List Char) :=
  match cs with
  | [] => refuseBefore .endOfText []
  | '\\' :: [] => refuseBefore .endOfText []
  | '\\' :: 'u' :: rest => do
    let (low, after) ← scanHex4 rest
    if 0xDC00 ≤ low && low ≤ 0xDFFF then
      .ok (Char.ofNat (0x10000 + (high - 0xD800) * 0x400 + (low - 0xDC00)), after)
    else refuseBefore .loneSurrogate after
  | '\\' :: rest => refuseAt .brokenSurrogatePair rest
  | rest => refuseAt .brokenSurrogatePair rest

/-- The character of a one-letter escape. -/
def shortEscape? (c : Char) : Option Char :=
  match c with
  | '"' => some '"'
  | '\\' => some '\\'
  | '/' => some '/'
  | 'b' => some '\x08'
  | 'f' => some '\x0c'
  | 'n' => some '\n'
  | 'r' => some '\r'
  | 't' => some '\t'
  | _ => none

/-- Takes what follows the backslash of an escape. -/
def scanEscape (cs : List Char) : Except Failure (Char × List Char) :=
  match cs with
  | [] => refuseBefore .endOfText []
  | 'u' :: rest => do
    let (unit, after) ← scanHex4 rest
    if 0xDC00 ≤ unit && unit ≤ 0xDFFF then refuseBefore .loneSurrogate after
    else if 0xD800 ≤ unit && unit ≤ 0xDBFF then scanLowHalf unit after
    else .ok (Char.ofNat unit, after)
  | c :: rest =>
    match shortEscape? c with
    | some x => .ok (x, rest)
    | none => refuseAt .invalidEscape (c :: rest)

/-! ## Strings -/

/-- A refusal hands nothing back. -/
@[simp] theorem refuseBefore_ne_ok {α : Type} (cause : Cause) (cs : List Char) (a : α) :
    (refuseBefore cause cs = .ok a) = False := by simp [refuseBefore]

/-- A refusal hands nothing back. -/
@[simp] theorem refuseAt_ne_ok {α : Type} (cause : Cause) (cs : List Char) (a : α) :
    (refuseAt cause cs = .ok a) = False := by simp [refuseAt]

/-- Four digits are taken off the text. -/
theorem length_of_scanHex4 {cs rest : List Char} {unit : Nat}
    (h : scanHex4 cs = .ok (unit, rest)) : rest.length < cs.length := by
  unfold scanHex4 at h
  split at h
  · split at h
    · split at h
      · simp only [Except.ok.injEq, Prod.mk.injEq] at h
        obtain ⟨_, rfl⟩ := h
        simp only [List.length_cons]
        omega
      · simp at h
    · simp at h
  · simp at h

/-- The second half of a surrogate pair is taken off the text. -/
theorem length_of_scanLowHalf {high : Nat} {cs rest : List Char} {c : Char}
    (h : scanLowHalf high cs = .ok (c, rest)) : rest.length < cs.length := by
  unfold scanLowHalf at h
  split at h
  · simp at h
  · simp at h
  · rename_i low
    cases hx : scanHex4 low with
    | error e => simp [hx, bind, Except.bind] at h
    | ok p =>
      obtain ⟨unit, tail⟩ := p
      have hlen := length_of_scanHex4 hx
      simp only [hx, bind, Except.bind] at h
      split at h
      · simp only [Except.ok.injEq, Prod.mk.injEq] at h
        obtain ⟨_, rfl⟩ := h
        simp only [List.length_cons]
        omega
      · simp at h
  · simp at h
  · simp at h

/-- An escape takes something off the text. -/
theorem length_of_scanEscape {cs rest : List Char} {c : Char}
    (h : scanEscape cs = .ok (c, rest)) : rest.length < cs.length := by
  unfold scanEscape at h
  split at h
  · simp at h
  · rename_i after
    cases hx : scanHex4 after with
    | error e => simp [hx, bind, Except.bind] at h
    | ok p =>
      obtain ⟨unit, tail⟩ := p
      have hlen := length_of_scanHex4 hx
      simp only [hx, bind, Except.bind] at h
      split at h
      · simp at h
      · split at h
        · have hlow := length_of_scanLowHalf h
          simp only [List.length_cons]
          omega
        · simp only [Except.ok.injEq, Prod.mk.injEq] at h
          obtain ⟨_, rfl⟩ := h
          simp only [List.length_cons]
          omega
  · split at h
    · simp only [Except.ok.injEq, Prod.mk.injEq] at h
      obtain ⟨_, rfl⟩ := h
      simp
    · simp at h

/-- Takes the rest of a string after its opening quote; `done` is what came before, latest first. -/
def scanString (done cs : List Char) : Except Failure (String × List Char) :=
  match cs with
  | [] => refuseBefore .endOfText []
  | c :: rest =>
    if c = '"' then .ok (String.ofList done.reverse, rest)
    else if c = '\\' then
      match h : scanEscape rest with
      | .ok (x, after) =>
        have : after.length < rest.length := length_of_scanEscape h
        scanString (x :: done) after
      | .error failure => .error failure
    else if c.toNat < 32 then refuseAt .controlCharacter (c :: rest)
    else scanString (c :: done) rest
termination_by cs.length

/-- Takes what follows the backslash of an escape whose value does not matter. -/
def skipEscape (cs : List Char) : Except Failure (List Char) :=
  match cs with
  | [] => refuseBefore .endOfText []
  | 'u' :: rest => (scanHex4 rest).map (·.2)
  | c :: rest => if (shortEscape? c).isSome then .ok rest else refuseAt .invalidEscape (c :: rest)

/-- A skipped escape takes something off the text. -/
theorem length_of_skipEscape {cs rest : List Char} (h : skipEscape cs = .ok rest) :
    rest.length < cs.length := by
  unfold skipEscape at h
  split at h
  · simp at h
  · rename_i after
    cases hx : scanHex4 after with
    | error e => simp [hx, Except.map] at h
    | ok p =>
      obtain ⟨unit, tail⟩ := p
      have hlen := length_of_scanHex4 hx
      simp only [hx, Except.map, Except.ok.injEq] at h
      subst h
      simp only [List.length_cons]
      omega
  · split at h
    · simp only [Except.ok.injEq] at h
      subst h
      simp
    · simp at h

/-- Takes the rest of a string whose value does not matter. -/
def skipString (cs : List Char) : Except Failure (List Char) :=
  match cs with
  | [] => refuseBefore .endOfText []
  | c :: rest =>
    if c = '"' then .ok rest
    else if c = '\\' then
      match h : skipEscape rest with
      | .ok after =>
        have : after.length < rest.length := length_of_skipEscape h
        skipString after
      | .error failure => .error failure
    else if c.toNat < 32 then refuseBefore .controlCharacter (c :: rest)
    else skipString rest
termination_by cs.length

end CodeGraph.Json
