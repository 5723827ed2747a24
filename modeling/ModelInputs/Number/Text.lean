import ModelInputs.Number.Shortest

/-!
# Numbers as text

A number is written with the fewest digits that read back as the same number. Values from `0.0001`
up to below `10 ^ 16` are written positionally, others with an exponent of at least two digits.
Two texts are in use: the full one keeps a point in every number, the plain one writes whole
numbers below `10 ^ 15` without one and spells the infinities out.

* `Numeral`: the parts of a written number, `Numeral.text`;
* `Decimal.numeral`: positional or with an exponent;
* `fullText`, `plainText`.
-/

namespace ModelInputs.Number

/-- A written number without its sign: digits, digits behind the point, and the sign and digits of
an exponent. -/
structure Numeral where
  whole : List Char
  fraction : Option (List Char) := none
  exponent : Option (Char × List Char) := none
deriving DecidableEq, Repr

namespace Numeral

/-- The characters of a written number. -/
def chars (n : Numeral) : List Char :=
  n.whole
    ++ (match n.fraction with | some ds => '.' :: ds | none => [])
    ++ (match n.exponent with | some (sign, ds) => 'e' :: sign :: ds | none => [])

/-- The text of a written number. -/
def text (n : Numeral) : String :=
  String.ofList n.chars

end Numeral

/-- The digits of a natural number in base ten. -/
def natDigits (n : Nat) : List Char :=
  Nat.toDigits 10 n

/-- The digits of an exponent, at least two. -/
def exponentDigits (n : Nat) : List Char :=
  if n < 10 then '0' :: natDigits n else natDigits n

/-- The decimal in writing, with a point or an exponent in it. -/
def Decimal.numeral (d : Decimal) : Numeral :=
  let ds := natDigits d.digits
  let point := (ds.length : Int) + d.exponent
  if -4 < point ∧ point ≤ 16 then
    if point ≤ 0 then ⟨['0'], some (List.replicate (-point).toNat '0' ++ ds), none⟩
    else if 0 ≤ d.exponent then ⟨ds ++ List.replicate d.exponent.toNat '0', some ['0'], none⟩
    else ⟨ds.take point.toNat, some (ds.drop point.toNat), none⟩
  else
    let fraction := if ds.length ≤ 1 then none else some (ds.drop 1)
    let e := point - 1
    ⟨ds.take 1, fraction, some (if e < 0 then '-' else '+', exponentDigits e.natAbs)⟩

/-- The sign of a number as text. -/
def signText (x : Float) : String :=
  if isNegative x then "-" else ""

/-- The number in full: `5.0`, `1e+16`, `-0.0`, `inf`. -/
def fullText (x : Float) : String :=
  if x.isNaN then "nan"
  else if x.isInf then signText x ++ "inf"
  else signText x ++ (Binary.ofFloat x).shortest.numeral.text

/-- The number as inputs and expressions write it: `5`, `0.5`, `1e+16`, `Infinity`. -/
def plainText (x : Float) : String :=
  if x.isNaN then "NaN"
  else if x.isInf then signText x ++ "Infinity"
  else if isWhole x && (Binary.ofFloat x).whole < 10 ^ (15 : Nat) then toString (truncate x)
  else fullText x

end ModelInputs.Number
