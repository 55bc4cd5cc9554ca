/-
# Seeded dice

The stream of a seed is the key stream of the cipher ChaCha with twelve rounds, under a key that a
congruential generator makes of the seed. The block counter starts at zero.
-/
import CodeGraph.Random.Dice

namespace CodeGraph.ChaCha

/-! ## Blocks -/

/-- One row of a block. -/
structure Row where
  a : UInt32
  b : UInt32
  c : UInt32
  d : UInt32
  deriving DecidableEq, Repr

namespace Row

/-- Combines two rows place by place. -/
def zipWith (f : UInt32 → UInt32 → UInt32) (x y : Row) : Row :=
  ⟨f x.a y.a, f x.b y.b, f x.c y.c, f x.d y.d⟩

/-- Rotates every word of a row to the left. -/
def rotateWords (n : UInt32) (x : Row) : Row :=
  let rotate (w : UInt32) := (w <<< n) ||| (w >>> (32 - n))
  ⟨rotate x.a, rotate x.b, rotate x.c, rotate x.d⟩

/-- Moves the words of a row one place to the left. -/
def shift (x : Row) : Row := ⟨x.b, x.c, x.d, x.a⟩

/-- The words of a row. -/
def toList (x : Row) : List UInt32 := [x.a, x.b, x.c, x.d]

end Row

/-- A block of sixteen words. -/
structure Block where
  r : Row
  s : Row
  t : Row
  u : Row
  deriving DecidableEq, Repr

namespace Block

/-- Adds the second row to the first, and mixes the sum into the last row. -/
def mixUpper (n : UInt32) (x : Block) : Block :=
  let r := x.r.zipWith (· + ·) x.s
  { x with r, u := (x.u.zipWith (· ^^^ ·) r).rotateWords n }

/-- Adds the last row to the third, and mixes the sum into the second row. -/
def mixLower (n : UInt32) (x : Block) : Block :=
  let t := x.t.zipWith (· + ·) x.u
  { x with t, s := (x.s.zipWith (· ^^^ ·) t).rotateWords n }

/-- The quarter rounds on the four columns. -/
def columns (x : Block) : Block := (((x.mixUpper 16).mixLower 12).mixUpper 8).mixLower 7

/-- The quarter rounds on the four diagonals. -/
def diagonals (x : Block) : Block :=
  let y := columns { x with s := x.s.shift, t := x.t.shift.shift, u := x.u.shift.shift.shift }
  { y with s := y.s.shift.shift.shift, t := y.t.shift.shift, u := y.u.shift }

/-- So many pairs of rounds. -/
def doubleRounds : Nat → Block → Block
  | 0, x => x
  | n + 1, x => doubleRounds n x.columns.diagonals

/-- Adds two blocks word by word. -/
def add (x y : Block) : Block :=
  ⟨x.r.zipWith (· + ·) y.r, x.s.zipWith (· + ·) y.s, x.t.zipWith (· + ·) y.t,
    x.u.zipWith (· + ·) y.u⟩

/-- The words of a block. -/
def toList (x : Block) : List UInt32 :=
  x.r.toList ++ x.s.toList ++ x.t.toList ++ x.u.toList

end Block

/-! ## Key streams -/

/-- A key of eight words. -/
structure Key where
  upper : Row
  lower : Row
  deriving DecidableEq, Repr

/-- The block that stands at the start of the rounds. -/
def Key.initial (key : Key) (counter : UInt64) : Block where
  r := ⟨0x61707865, 0x3320646e, 0x79622d32, 0x6b206574⟩
  s := key.upper
  t := key.lower
  u := ⟨counter.toUInt32, (counter >>> 32).toUInt32, 0, 0⟩

/-- A block of the key stream. -/
def Key.block (key : Key) (counter : UInt64) : Block :=
  let start := key.initial counter
  (start.doubleRounds 6).add start

/-- A word of the key stream. -/
def Key.word (key : Key) (n : Nat) : UInt32 :=
  (key.block (UInt64.ofNat (n / 16))).toList.getD (n % 16) 0

/-! ## Keys from seeds -/

/-- The next state of the generator that makes keys. -/
def advance (state : UInt64) : UInt64 := state * 6364136223846793005 + 11634580027462260723

/-- The word that a state of the generator gives: a part of it, rotated by another part. -/
def keyWord (state : UInt64) : UInt32 :=
  let part := (((state >>> 18) ^^^ state) >>> 27).toUInt32
  let turn := (state >>> 59).toUInt32
  (part >>> turn) ||| (part <<< (32 - turn))

/-- The key of a seed. -/
def Key.ofSeed (seed : UInt64) : Key :=
  let a := advance seed
  let b := advance a
  let c := advance b
  let d := advance c
  let e := advance d
  let f := advance e
  let g := advance f
  let h := advance g
  { upper := ⟨keyWord a, keyWord b, keyWord c, keyWord d⟩
    lower := ⟨keyWord e, keyWord f, keyWord g, keyWord h⟩ }

end CodeGraph.ChaCha

namespace CodeGraph

/-- The dice of a seed. -/
def Dice.ofSeed (seed : UInt64) : Dice :=
  let key := ChaCha.Key.ofSeed seed
  { stream := key.word }

end CodeGraph
