import ModelInputs.Error.Input

/-!
# Failures

Every way in which an operation can end without a result. Errors of expressions and of inputs are
expected and carry a message for the user; the others are refusals that no caller handles.

* `Failure`, `Failure.message`;
* `anchored`: the errors of a computation, placed in a text.
-/

namespace ModelInputs

/-- Why an operation has no result. -/
inductive Failure where
  | expression (error : ExprError)
  | input (error : InputError)
  /-- a function was applied to a number on which it has no value -/
  | mathDomain
  /-- the digits of a number have no decimal value -/
  | notANumber (text : String)
  /-- an integer lies outside the range of floating point numbers -/
  | integerTooLarge
  /-- references are nested more deeply than allowed -/
  | tooDeep
  /-- a chain starts at an output that never existed -/
  | missingOutput
  /-- a value does not have the part that is asked for -/
  | noSuchPart
  /-- a value of that type can not be used in that way -/
  | unsuitable
  /-- an item of a list that is read as a map is not a key with a value -/
  | notAPair (index length : Nat)
  | duplicateKeyword (keyword className : String)
  | cannotParse (kind : String)

namespace Failure

/-- The wording of a failure. -/
def message : Failure → String
  | expression error => error.message
  | input error => error.message
  | mathDomain => "math domain error"
  | notANumber text => "could not convert string to float: " ++ Text.literal text
  | integerTooLarge => "int too large to convert to float"
  | tooDeep => "maximum reference depth exceeded"
  | missingOutput => "there is no such output"
  | noSuchPart => "the value has no such part"
  | unsuitable => "a value of that type can not be used here"
  | notAPair index length =>
    "dictionary update sequence element #" ++ toString index ++ " has length " ++ toString length
      ++ "; 2 is required"
  | duplicateKeyword keyword className =>
    "Duplicate keyword '" ++ keyword ++ "' on " ++ className
  | cannotParse kind => kind ++ " does not implement parse()"

/-- An error of an expression, without a text. -/
def exprAt (pos : Nat) (fault : ExprFault) : Failure :=
  expression ⟨fault, pos, none⟩

/-- An error of an input, without an origin. -/
def ofFault (fault : InputFault) : Failure :=
  input ⟨fault, none⟩

/-- The failure with an error of an expression placed in the text. -/
def anchoredIn (source : String) : Failure → Failure
  | expression error => expression (error.anchoredIn source)
  | failure => failure

end Failure

/-- The computation with its errors placed in the text. -/
def anchored {α : Type} (source : String) (x : Except Failure α) : Except Failure α :=
  x.mapError (Failure.anchoredIn source)

end ModelInputs
