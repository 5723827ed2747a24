import ModelInputs.Number.Binary

/-!
# The shortest decimal of a number

The reals that round to a floating point value form an interval. Among the decimals in it those
with the fewest digits are looked for on ever finer decimal grids: on a grid only the two
neighbours of the value can be the nearest point, so both are tested, and the first grid with a
point in the interval gives the digits.

* `Decimal`: digits and a power of ten;
* `Binary.below`, `Binary.above`: the ends of the interval, in quarters of the last binary place;
* `Binary.readsBack`: a decimal lies in the interval;
* `Binary.onGrid?`, `Binary.shortest`: the search.
-/

namespace ModelInputs.Number

/-- The value `digits * 10 ^ exponent`. -/
structure Decimal where
  digits : Nat
  exponent : Int
deriving DecidableEq, Repr

namespace Binary

/-- The lower end of the interval, in units of `2 ^ (exponent - 2)`: half a place below the value,
and a quarter where the places below are half as wide. -/
def below (b : Binary) : Nat :=
  if b.mantissa = 2 ^ (52 : Nat) ∧ -1074 < b.exponent then 4 * b.mantissa - 1
  else 4 * b.mantissa - 2

/-- The upper end of the interval, in units of `2 ^ (exponent - 2)`. -/
def above (b : Binary) : Nat :=
  4 * b.mantissa + 2

/-- The factor that brings a number of units of `2 ^ (exponent - 2)` to the common denominator with
the grid `10 ^ k`. -/
def unitScale (b : Binary) (k : Int) : Nat :=
  2 ^ (b.exponent - 2).toNat * 10 ^ (-k).toNat

/-- The factor that brings a number of grid steps `10 ^ k` to the common denominator. -/
def gridScale (b : Binary) (k : Int) : Nat :=
  10 ^ k.toNat * 2 ^ (-(b.exponent - 2)).toNat

/-- The decimal rounds to the value: it lies in the interval, whose ends belong to it exactly when
the mantissa is even. -/
def readsBack (b : Binary) (d : Decimal) : Bool :=
  let point := d.digits * b.gridScale d.exponent
  let low := b.below * b.unitScale d.exponent
  let high := b.above * b.unitScale d.exponent
  if b.mantissa % 2 = 0 then decide (low ≤ point) && decide (point ≤ high)
  else decide (low < point) && decide (point < high)

/-- The nearer of the value's two neighbours on the grid `10 ^ k` that lie in the interval; of two
at the same distance the even one. -/
def onGrid? (b : Binary) (k : Int) : Option Decimal :=
  let value := 4 * b.mantissa * b.unitScale k
  let step := b.gridScale k
  let down : Decimal := ⟨value / step, k⟩
  let up : Decimal := ⟨value / step + 1, k⟩
  if b.readsBack down then
    if b.readsBack up then
      let twice := 2 * (value % step)
      if twice < step then some down
      else if step < twice then some up
      else if down.digits % 2 = 0 then some down else some up
    else some down
  else if b.readsBack up then some up
  else none

/-- An exponent of ten for which no multiple of its power, other than zero, lies below twice the
value. -/
def coarsest (b : Binary) : Int :=
  (b.exponent + b.mantissa.log2 + 1) * 30103 / 100000 + 1

/-- The first hit on the grids `10 ^ k`, `10 ^ (k - 1)`, …; the exact value after so many misses. -/
def search (b : Binary) : Nat → Int → Decimal
  | 0, _ => ⟨b.mantissa * 2 ^ b.exponent.toNat * 5 ^ (-b.exponent).toNat, min b.exponent 0⟩
  | grids + 1, k =>
    match b.onGrid? k with
    | some d => d
    | none => search b grids (k - 1)

/-- The shortest decimal that rounds to the value, and the nearest among those; zero is itself. -/
def shortest (b : Binary) : Decimal :=
  if b.mantissa = 0 then ⟨0, 0⟩ else b.search 24 b.coarsest

end Binary

end ModelInputs.Number
