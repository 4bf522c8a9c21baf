import PgGateway.Binary64.Basic

/-!
# Shortest decimals

The decimal with the fewest digits that reads back as a given double. A decimal reads back as the
double when it lies in the interval of numbers that round to it; the ends belong to the interval
when the significand is even. Grids of ever more digits are tried, and on each grid the two
neighbours of the double: the first grid with a neighbour in the interval wins, of two neighbours
the nearer, and the upper one when both are equally near.
-/

namespace PgGateway

/-- The number `digits` times ten to the `exponent`. -/
structure Decimal where
  digits : Nat
  exponent : Int
deriving DecidableEq, Repr

namespace Binary64

/-- The exponent of ten of the leading digit of a finite double other than zero. The smallest
double exceeds ten to the minus 324, so the scaled magnitude is never cut to zero. -/
def leadingExponent (x : Binary64) : Int :=
  let scaled := x.significand * Nat.pow 2 x.power.toNat * Nat.pow 10 324 /
    Nat.pow 2 (-x.power).toNat
  (Nat.toDigits 10 scaled).length - 325

/-- A quarter of the distance to the next double, times `above`, reaches halfway up. -/
def above : Nat := 2

/-- The same measure halfway down. It is half as large just above a power of two, where the
doubles below lie twice as close. -/
def below (x : Binary64) : Nat := if x.fraction = 0 ∧ 1 < x.biased then 1 else 2

/-- The best number of the grid of multiples of ten to the `exponent` that reads back as the
double, if one of the two neighbours does. Everything is measured in one whole unit: `unit` is a
quarter of the last place of the double, and `step` is the width of the grid. -/
def onGrid? (x : Binary64) (exponent : Int) : Option Decimal :=
  let unit := Nat.pow 2 (x.power - 2).toNat * Nat.pow 10 (-exponent).toNat
  let step := Nat.pow 10 exponent.toNat * Nat.pow 2 (2 - x.power).toNat
  let value := 4 * x.significand * unit
  let low := (4 * x.significand - x.below) * unit
  let high := (4 * x.significand + above) * unit
  let inside (p : Nat) : Bool :=
    if x.significand % 2 = 0 then low ≤ p && p ≤ high else low < p && p < high
  let index := value / step
  let down := index * step
  let up := down + step
  if inside down && (!inside up || value - down < up - value) then some ⟨index, exponent⟩
  else if inside up then some ⟨index + 1, exponent⟩
  else none

/-- The shortest decimal that reads back as the magnitude of a finite double other than zero.
Seventeen digits are always enough. -/
def shortest (x : Binary64) : Decimal :=
  ((List.range 17).findSome? fun (n : Nat) => x.onGrid? (x.leadingExponent - n)).getD ⟨0, 0⟩

end Binary64

end PgGateway
