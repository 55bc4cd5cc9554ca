/-
# Shortest decimals

A finite double stands for an interval of reals, those that round to it. `shortest` gives the point
of the coarsest decimal grid that meets this interval, the nearest one to the double if two points
do: the fewest digits that read back.
-/

namespace CodeGraph.Decimal

/-! ## Doubles -/

/-- A positive double, `mantissa * 2 ^ exponent`. -/
structure Binary where
  mantissa : Nat
  exponent : Int
  /-- The next double below is only half as far as the one above. -/
  tight : Bool

/-- The positive double with the given bits, its sign bit left aside. -/
def Binary.ofBits (bits : Nat) : Binary :=
  let fraction : Nat := bits % Nat.pow 2 52
  let biased : Nat := bits / Nat.pow 2 52 % Nat.pow 2 11
  if biased = 0 then { mantissa := fraction, exponent := -1074, tight := false }
  else
    { mantissa := Nat.pow 2 52 + fraction, exponent := (biased : Int) - 1075
      tight := fraction == 0 && biased != 1 }

/-! ## The decimal grid -/

/-- A decimal, `digits * 10 ^ exponent`. -/
structure Point where
  digits : Nat
  exponent : Int
  deriving DecidableEq

/-- The double in quarters of its last binary place, and what turns quarters into steps of the
decimal grid `10 ^ exponent`: a factor and a divisor. -/
def Binary.onGrid (b : Binary) (exponent : Int) : Nat × Nat × Nat :=
  let quarter := b.exponent - 2
  let factor := Nat.pow 2 quarter.toNat * Nat.pow 10 (-exponent).toNat
  let divisor := Nat.pow 2 (-quarter).toNat * Nat.pow 10 exponent.toNat
  (4 * b.mantissa, factor, divisor)

/-- The point of the grid nearest to the double among those that read back as it. -/
def Binary.pointOn? (b : Binary) (exponent : Int) : Option Point :=
  let (value, factor, divisor) := b.onGrid exponent
  let low := (value - if b.tight then 1 else 2) * factor
  let high := (value + 2) * factor
  let readsBack (digits : Nat) : Bool :=
    if b.mantissa % 2 = 0 then low ≤ digits * divisor && digits * divisor ≤ high
    else low < digits * divisor && digits * divisor < high
  let below := value * factor / divisor
  let toBelow := value * factor - below * divisor
  let toAbove := (below + 1) * divisor - value * factor
  let nearer :=
    if toBelow < toAbove || (toBelow = toAbove && below % 2 = 0) then below else below + 1
  let farther := if nearer = below then below + 1 else below
  if readsBack nearer then some ⟨nearer, exponent⟩
  else if readsBack farther then some ⟨farther, exponent⟩
  else none

/-- The shortest decimal that reads back as the double: the coarsest grids are tried first. -/
def Binary.shortest (b : Binary) : Point :=
  let grids := (List.range 640).map fun (n : Nat) => (308 : Int) - n
  (grids.findSome? b.pointOn?).getD ⟨0, 0⟩

end CodeGraph.Decimal
