import ModelInputs.Number.Text
import ModelInputs.Text.Blank
import ModelInputs.Text.Digit

/-!
# Reading numbers

A number may be surrounded by blanks, may carry a sign, may have an underscore between two digits,
and may use the decimal digits of any script; blanks and digits outside ASCII are first replaced by
the ASCII ones. A floating point number is a decimal with an optional exponent, or a word for an
infinity or for no number.

* `asciiForm?`, `trim`, `dropUnderscores?`: the preparation;
* `readDecimal?`, `Decimal.toFloat`: digits, point and exponent;
* **`readFloat?`**, **`readInt?`**: the two readers.
-/

namespace ModelInputs.Number

open Text

/-! ## Preparation -/

/-- A digit from `0` to `9`. -/
def isAsciiDigit (c : Char) : Bool :=
  decide (48 ≤ c.toNat) && decide (c.toNat ≤ 57)

/-- A blank that may surround a number. -/
def isAsciiBlank (c : Char) : Bool :=
  c == ' ' || (decide (9 ≤ c.toNat) && decide (c.toNat ≤ 13))

/-- The ASCII character that stands for the character in a number. -/
def asciiChar? (c : Char) : Option Char :=
  if c.toNat < 127 then some c
  else if isBlank c then some ' '
  else (decimalValue? c).map fun n => Char.ofNat (48 + n)

/-- The text in ASCII, if it can be part of a number. -/
def asciiForm? (cs : List Char) : Option (List Char) :=
  if cs.all fun c => decide (c.toNat < 128) then some cs else cs.mapM asciiChar?

/-- The text without surrounding blanks. -/
def trim (cs : List Char) : List Char :=
  ((cs.dropWhile isAsciiBlank).reverse.dropWhile isAsciiBlank).reverse

/-- The text without its underscores, each of which must stand between two digits; `afterDigit`
tells whether a digit stands before the text. -/
def dropUnderscores? (afterDigit : Bool) : List Char → Option (List Char)
  | [] => some []
  | '_' :: cs =>
    match cs with
    | d :: _ => if afterDigit && isAsciiDigit d then dropUnderscores? false cs else none
    | [] => none
  | c :: cs => (dropUnderscores? (isAsciiDigit c) cs).map (c :: ·)

/-- The sign in front of a number, and the rest. -/
def readSign : List Char → Bool × List Char
  | '-' :: cs => (true, cs)
  | '+' :: cs => (false, cs)
  | cs => (false, cs)

/-- The number that decimal digits write. -/
def ofDigits (cs : List Char) : Nat :=
  cs.foldl (fun n c => 10 * n + (c.toNat - 48)) 0

/-! ## Decimals -/

/-- An exponent mark with its digits, or nothing. -/
def readExponent? : List Char → Option Int
  | [] => some 0
  | e :: cs =>
    let (negative, ds) := readSign cs
    if (e == 'e' || e == 'E') && !ds.isEmpty && ds.all isAsciiDigit then
      some (if negative then -(ofDigits ds : Int) else ofDigits ds)
    else none

/-- Digits with an optional point among them and an optional exponent. -/
def readDecimal? (cs : List Char) : Option Decimal :=
  let whole := cs.takeWhile isAsciiDigit
  let rest := cs.dropWhile isAsciiDigit
  let (fraction, rest) :=
    match rest with
    | '.' :: rest => (rest.takeWhile isAsciiDigit, rest.dropWhile isAsciiDigit)
    | rest => ([], rest)
  if whole.isEmpty && fraction.isEmpty then none
  else (readExponent? rest).map fun e => ⟨ofDigits (whole ++ fraction), e - fraction.length⟩

/-- A positive infinity. -/
def infinity : Float :=
  1.0 / 0.0

/-- The value that is no number. -/
def notANumber : Float :=
  0.0 / 0.0

/-- The number nearest to a decimal; far outside the range of numbers an infinity or zero. -/
def Decimal.toFloat (d : Decimal) : Float :=
  let size := (natDigits d.digits).length + d.exponent
  if d.digits = 0 then 0.0
  else if 400 < size then infinity
  else if size < -400 then 0.0
  else Float.ofScientific d.digits (decide (d.exponent < 0)) d.exponent.natAbs

/-! ## The readers -/

/-- The words for an infinity and for no number, in any case. -/
def readWord? (cs : List Char) : Option Float :=
  let word := String.ofList (cs.map Char.toLower)
  if word = "inf" ∨ word = "infinity" then some infinity
  else if word = "nan" then some notANumber
  else none

/-- A floating point number. -/
def readFloat? (s : String) : Option Float := do
  let cs ← asciiForm? s.toList
  let cs ← dropUnderscores? false (trim cs)
  let (negative, cs) := readSign cs
  let x ←
    match readDecimal? cs with
    | some d => some d.toFloat
    | none => readWord? cs
  return if negative then -x else x

/-- The most digits an integer may have. -/
def maxIntDigits : Nat := 4300

/-- An integer. -/
def readInt? (s : String) : Option Int := do
  let cs ← asciiForm? s.toList
  let (negative, cs) := readSign (trim cs)
  let ds ← dropUnderscores? false cs
  guard (!ds.isEmpty && ds.all isAsciiDigit && decide (ds.length ≤ maxIntDigits))
  let n : Int := ofDigits ds
  return if negative then -n else n

end ModelInputs.Number
