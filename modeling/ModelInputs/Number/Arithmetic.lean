import ModelInputs.Number.Read

/-!
# Arithmetic on numbers

The operations whose result is not simply that of the floating point unit: division by zero,
powers, remainders, and the functions that are not defined on all numbers. Where a result is not
defined the value that is no number stands for it; only a remainder of an infinity and a sine,
cosine or tangent of an infinity have no value at all.

* `quotient`, `power`, `remainder?`, `sign`;
* `whereDefined`, `onFinite?`: functions on part of the numbers.
-/

namespace ModelInputs.Number

/-- The quotient; a non-zero number divided by zero is an infinity of its own sign. -/
def quotient (x y : Float) : Float :=
  if y == 0.0 then
    if x == 0.0 || x.isNaN then notANumber
    else if isNegative x then -infinity else infinity
  else x / y

/-- The power; an overflow is a positive infinity, whatever its sign, and a negative power of zero
is no number. -/
def power (x y : Float) : Float :=
  let r := Float.pow x y
  if x.isFinite && y.isFinite && r.isInf then
    if x == 0.0 then notANumber else infinity
  else r

/-- The exact remainder of finite numbers, with the sign of the first one. -/
def finiteRemainder (x y : Float) : Float :=
  let a := Binary.ofFloat x
  let b := Binary.ofFloat y
  let e := min a.exponent b.exponent
  let r := Binary.toFloat ⟨a.scaledTo e % b.scaledTo e, e⟩
  if isNegative x then -r else r

/-- The remainder of a division by a number other than zero, with the sign of the first number;
an infinity has none. -/
def remainder? (x y : Float) : Option Float :=
  if x.isNaN || y.isNaN then some notANumber
  else if x.isInf then none
  else if y.isInf then some x
  else some (finiteRemainder x y)

/-- One, minus one or zero with the sign of the number. -/
def sign (x : Float) : Float :=
  if x.isNaN then notANumber
  else if x > 0.0 then 1.0
  else if x < 0.0 then -1.0
  else 0.0

/-- The function where it is defined, and no number elsewhere. -/
def whereDefined (defined : Float → Bool) (f : Float → Float) (x : Float) : Float :=
  if x.isNaN || defined x then f x else notANumber

/-- The function on all but the infinities. -/
def onFinite? (f : Float → Float) (x : Float) : Option Float :=
  if x.isInf then none else some (f x)

/-- The sum of the numbers, from left to right. -/
def total (xs : List Float) : Float :=
  xs.foldl (· + ·) 0.0

end ModelInputs.Number
