/-!
# Floating point values as integers

A finite floating point value is a whole number times a power of two. Everything that has to be
exact (the digits of a number, its whole part, remainders) is computed on these two integers.

* `Binary`: a mantissa and an exponent; `Binary.ofFloat`, `Binary.toFloat`;
* `isNegative`, `isWhole`, `truncate`, `roundDown`, `roundUp`.
-/

namespace ModelInputs.Number

/-- Powers are those of `Nat` itself, whichever others are in scope. -/
scoped instance (priority := high) powNat : Pow Nat Nat := instPowNat

/-- The value `mantissa * 2 ^ exponent`. -/
structure Binary where
  mantissa : Nat
  exponent : Int
deriving DecidableEq, Repr

/-- The sign bit is set; also of a negative zero. -/
def isNegative (x : Float) : Bool :=
  decide (2 ^ (63 : Nat) ≤ x.toBits.toNat)

namespace Binary

/-- The absolute value of a finite number. -/
def ofFloat (x : Float) : Binary :=
  let bits := x.toBits.toNat % 2 ^ (63 : Nat)
  let exponent : Nat := bits / 2 ^ (52 : Nat)
  let fraction := bits % 2 ^ (52 : Nat)
  if exponent = 0 then ⟨fraction, -1074⟩ else ⟨2 ^ (52 : Nat) + fraction, (exponent : Int) - 1075⟩

/-- The number nearest to the value. -/
def toFloat (b : Binary) : Float :=
  if 0 ≤ b.exponent then Float.ofScientific (b.mantissa * 2 ^ b.exponent.toNat) false 0
  else Float.ofScientific (b.mantissa * 5 ^ (-b.exponent).toNat) true (-b.exponent).toNat

/-- The mantissa of the value as a multiple of `2 ^ exponent`, for an exponent not above its own. -/
def scaledTo (b : Binary) (exponent : Int) : Nat :=
  b.mantissa * 2 ^ (b.exponent - exponent).toNat

/-- The whole part. -/
def whole (b : Binary) : Nat :=
  b.mantissa * 2 ^ b.exponent.toNat / 2 ^ (-b.exponent).toNat

/-- The value is a whole number. -/
def isWhole (b : Binary) : Bool :=
  b.mantissa % 2 ^ (-b.exponent).toNat == 0

end Binary

/-- A finite number without a fractional part. -/
def isWhole (x : Float) : Bool :=
  x.isFinite && (Binary.ofFloat x).isWhole

/-- The whole part of a finite number, towards zero. -/
def truncate (x : Float) : Int :=
  let n : Int := (Binary.ofFloat x).whole
  if isNegative x then -n else n

/-- The greatest integer that is not above a finite number. -/
def floorInt (x : Float) : Int :=
  if isNegative x && !isWhole x then truncate x - 1 else truncate x

/-- The least integer that is not below a finite number. -/
def ceilInt (x : Float) : Int :=
  if !isNegative x && !isWhole x then truncate x + 1 else truncate x

/-- The number rounded down to a whole number; an infinity or no number stays as it is. -/
def roundDown (x : Float) : Float :=
  if x.isFinite then Float.ofInt (floorInt x) else x

/-- The number rounded up to a whole number; an infinity or no number stays as it is. -/
def roundUp (x : Float) : Float :=
  if x.isFinite then Float.ofInt (ceilInt x) else x

end ModelInputs.Number
