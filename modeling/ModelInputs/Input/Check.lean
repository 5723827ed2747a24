import ModelInputs.Error.Input
import ModelInputs.Number.Arithmetic
import ModelInputs.Number.Text
import ModelInputs.Text.Literal

/-!
# Checks of lists of numbers

* `checkSum`: the numbers add up to a total, within a tolerance;
* `checkMonotonic`: no number is smaller than the one before it.
-/

namespace ModelInputs

/-- The sum as text; that of no numbers is an integer. -/
def sumText (xs : List Float) : String :=
  if xs.isEmpty then "0" else Number.fullText (Number.total xs)

/-- The numbers add up to the total within the tolerance. -/
def checkSum (xs : List Float) (total tolerance : Float) : Except InputError Unit :=
  if (Number.total xs - total).abs > tolerance then
    .error (.common .sumTolerance
      [Number.fullText total, Number.fullText tolerance, sumText xs])
  else .ok ()

/-- A number is smaller than the one before it. -/
def descends : List Float → Bool
  | x :: y :: xs => y < x || descends (y :: xs)
  | _ => false

/-- No number is smaller than the one before it. -/
def checkMonotonic (xs : List Float) : Except InputError Unit :=
  if descends xs then
    .error (.common .monotonic [Text.literalList (xs.map Number.fullText)])
  else .ok ()

end ModelInputs
