import PatternAlgebra.Number.Double

/-!
# Shortest decimals

The decimal of a positive double is the one with the fewest digits among those that read back as
the same double, and the nearest to it among these. Reading rounds to nearest with ties to the even
significand, so the decimals that read back fill an interval around the double; its ends belong to
it when the significand is even. All arithmetic is exact.
-/

namespace PatternAlgebra

/-- The number `digits · 10 ^ power`. -/
structure Decimal where
  digits : Nat
  power : Int
  deriving DecidableEq

/-- A positive rational with the interval of numbers that round to it. All three are quarters:
the number is `quarters / (4 · unit)`. -/
structure RoundingInterval where
  quarters : Nat
  below : Nat
  above : Nat
  unit : Nat
  closed : Bool

namespace RoundingInterval

/-- The interval of a finite positive double. The neighbour below a power of two is half as far
away as the one above. -/
def ofDouble (d : Double) : RoundingInterval :=
  let up := Nat.pow 2 d.scale.toNat
  let down := Nat.pow 2 (-d.scale).toNat
  let low := if d.fractionField = 0 ∧ 1 < d.exponentField then 1 else 2
  { quarters := 4 * d.significand * up
    below := low * up
    above := 2 * up
    unit := down
    closed := d.significand % 2 = 0 }

/-- Whether `n / m` rounds to the number. -/
def holds (i : RoundingInterval) (n m : Nat) : Bool :=
  let x := 4 * i.unit * n
  let least := (i.quarters - i.below) * m
  let most := (i.quarters + i.above) * m
  if i.closed then least ≤ x && x ≤ most else least < x && x < most

/-- The power of ten above the number: the least `e` with number `< 10 ^ e`. No double is so small
that four hundred places do not reach it. -/
def magnitude (i : RoundingInterval) : Int :=
  let whole := i.quarters / (4 * i.unit)
  if whole = 0 then
    -(((List.range 400).find? (fun t => 4 * i.unit ≤ i.quarters * Nat.pow 10 (t + 1))).getD 0 : Nat)
  else (Nat.toDigits 10 whole).length

/-- The multiple of `10 ^ power` nearest to the number among those that round to it, ties to
the even multiple; if there is one. -/
def nearestOnGrid? (i : RoundingInterval) (power : Int) : Option Nat :=
  let up := Nat.pow 10 power.toNat
  let down := Nat.pow 10 (-power).toNat
  let numerator := i.quarters * down
  let denominator := 4 * i.unit * up
  let lower := numerator / denominator
  let rest := numerator % denominator
  let lowerHolds := i.holds (lower * up) down
  let upperHolds := i.holds ((lower + 1) * up) down
  let lowerIsNearer := 2 * rest < denominator || (2 * rest == denominator && lower % 2 == 0)
  if lowerHolds && (!upperHolds || lowerIsNearer) then some lower
  else if upperHolds then some (lower + 1)
  else none

end RoundingInterval

namespace Decimal

/-- Moves factors of ten from the digits to the power, at most `limit` of them. -/
def trim : Nat → Decimal → Decimal
  | 0, x => x
  | limit + 1, x =>
    if x.digits % 10 = 0 ∧ x.digits ≠ 0 then trim limit ⟨x.digits / 10, x.power + 1⟩ else x

/-- The shortest decimal of a finite positive double. Seventeen digits always suffice. -/
def shortest (d : Double) : Decimal :=
  let interval := RoundingInterval.ofDouble d
  let found := (List.range 17).findSome? (fun n =>
    let power := interval.magnitude - (n + 1 : Nat)
    (interval.nearestOnGrid? power).map (fun digits => Decimal.mk digits power))
  trim 17 (found.getD ⟨0, 0⟩)

end Decimal

end PatternAlgebra
