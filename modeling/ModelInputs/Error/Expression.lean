import ModelInputs.Expression.Result
import ModelInputs.Text.Literal

/-!
# Errors of expressions

What can be wrong with an expression, from an unclosed bracket to an output that does not exist,
and where in which text it was noticed.

* `ExprFault`, `ExprFault.message`: the causes and their wording;
* `ExprError`: a cause with a position and, once it is known, the text;
* `ExprError.anchoredIn`, `ExprError.diagnostic`, `ExprError.report`;
* **`source_anchoredIn`**: an anchored error has a text, and keeps the one it had.
-/

namespace ModelInputs

/-- What is wrong with an expression. -/
inductive ExprFault where
  -- tokens
  | unterminatedComment
  | nestedBrackets
  | unterminatedBracket
  | unterminatedText
  | unexpectedCharacter (c : Char)
  | malformedExponent
  -- grammar
  | unexpectedEnd
  | expectedSymbol (expected received : String)
  | unexpectedRest
  | emptyEntityName
  | notAnExpression
  | unknownUnit (name : String)
  | expectedOutputName
  | unknownFunction (name : String)
  | tooFewArguments (function : String) (least given : Nat)
  | tooManyArguments (function : String) (most given : Nat)
  | expectedMapKey
  | duplicateMapKey (key : String)
  -- references
  | thisUndefined
  | entityNotFound (name : String)
  | notAnEntity (output : String) (received : ResultKind)
  | nullEntity
  | outputNotFound (output entity : String)
  | indexNotInteger (received : String)
  | indexOutOfRange (index : Int) (size : Nat)
  | keyNotText (received : String)
  | keyNotFound (key : String)
  | notIndexable (received : ResultKind)
  -- operators and functions
  | unitMismatch (left right : UnitType)
  | numberRequired (user : String) (received : ResultKind)
  | operandKinds (operator : String) (left right : ResultKind)
  | powerUnits (left right : UnitType)
  | notComparable (left right : ResultKind)
  | emptyArray (function : String)
  | dimensionlessRequired (function : String) (received : UnitType)
  | angleRequired (function : String) (received : UnitType)
  | noSize (received : ResultKind)
  | noSuchChoice (choices : Nat) (received : String)
  -- values of entities
  | selfReference
  | attributeWithoutValue (name : String)
  | attributeUndefined (name entity : String)
  | customOutputUnit (output : String) (expected received : UnitType)
  | unexpectedClass (output received expected : String)
  | notExpressible (type : String)
  | expectedNumber (received : ResultKind)
  | expectedUnit (expected received : UnitType)
  | expectedEntity (received : ResultKind)
  | expectedInstance (className entity : String)
  | stated (message : String)

namespace ExprFault

/-- The wording of a cause. -/
def message : ExprFault → String
  | unterminatedComment => "Unterminated comment"
  | nestedBrackets => "Nested square brackets are not allowed"
  | unterminatedBracket => "Unterminated square bracket"
  | unterminatedText => "Unterminated string literal"
  | unexpectedCharacter c => "Unexpected character: " ++ Text.literal (String.singleton c)
  | malformedExponent => "Malformed number exponent"
  | unexpectedEnd => "Unexpected end of string"
  | expectedSymbol expected received =>
    "Expected \"" ++ expected ++ "\", got \"" ++ received ++ "\""
  | unexpectedRest => "Unexpected additional values"
  | emptyEntityName => "Empty entity name"
  | notAnExpression => "Can not parse expression"
  | unknownUnit name => "Unknown unit: " ++ name
  | expectedOutputName => "Expected an output name after '.'"
  | unknownFunction name => "Unknown function: \"" ++ name ++ "\""
  | tooFewArguments function least given =>
    "Function \"" ++ function ++ "\" expects at least " ++ toString least ++ " arguments. "
      ++ toString given ++ " provided."
  | tooManyArguments function most given =>
    "Function \"" ++ function ++ "\" expects at most " ++ toString most ++ " arguments. "
      ++ toString given ++ " provided."
  | expectedMapKey => "Expected a string key in map literal"
  | duplicateMapKey key => "Duplicate key in map literal: \"" ++ key ++ "\""
  | thisUndefined => "'this' is not defined in this context"
  | entityNotFound name => "Could not find entity: " ++ name
  | notAnEntity output received =>
    "Expected an entity before '." ++ output ++ "', received: " ++ received.name
  | nullEntity => "Null entity in expression chain"
  | outputNotFound output entity =>
    "Output '" ++ output ++ "' not found on entity '" ++ entity ++ "'"
  | indexNotInteger received => "Array index must be an integer, received: " ++ received
  | indexOutOfRange index size =>
    "Index out of range: " ++ toString index ++ " (array size is " ++ toString size ++ ")"
  | keyNotText received => "Map key must be a string, received: " ++ received
  | keyNotFound key => "Key not found: \"" ++ key ++ "\""
  | notIndexable received => "Can not index a value of type " ++ received.name
  | unitMismatch left right =>
    "Unit mismatch: '" ++ left.name ++ "' and '" ++ right.name ++ "' are not compatible"
  | numberRequired user received => user ++ " requires a number, received: " ++ received.name
  | operandKinds operator left right =>
    "Operator '" ++ operator ++ "' can not be applied to " ++ left.name ++ " and " ++ right.name
  | powerUnits left right =>
    "Operator '^' requires dimensionless values, received: '" ++ left.name ++ "' and '"
      ++ right.name ++ "'"
  | notComparable left right => "Can not compare " ++ left.name ++ " with " ++ right.name
  | emptyArray function => "Function '" ++ function ++ "' received an empty array"
  | dimensionlessRequired function received =>
    "Function '" ++ function ++ "' requires a dimensionless value, received: '" ++ received.name
      ++ "'"
  | angleRequired function received =>
    "Function '" ++ function ++ "' requires an angle or dimensionless value, received: '"
      ++ received.name ++ "'"
  | noSize received =>
    "Function 'size' requires an array, map or string, received: " ++ received.name
  | noSuchChoice choices received =>
    "Function 'choose' index must be an integer between 1 and " ++ toString choices
      ++ ", received: " ++ received
  | selfReference => "Expression refers back to itself (recursion limit reached)"
  | attributeWithoutValue name => "Attribute '" ++ name ++ "' has no value"
  | attributeUndefined name entity =>
    "Attribute '" ++ name ++ "' is not defined on entity '" ++ entity ++ "'"
  | customOutputUnit output expected received =>
    "Unit mismatch: custom output '" ++ output ++ "' expects '" ++ expected.name
      ++ "', received '" ++ received.name ++ "'"
  | unexpectedClass output received expected =>
    "Output '" ++ output ++ "' returned a " ++ received ++ ", expected a " ++ expected
  | notExpressible type => "Cannot use a value of type " ++ type ++ " in an expression"
  | expectedNumber received => "Expected a number, received a " ++ received.name
  | expectedUnit expected received =>
    "Unit mismatch: expected '" ++ expected.name ++ "', received '" ++ received.name ++ "'"
  | expectedEntity received => "Expected an entity, received a " ++ received.name
  | expectedInstance className entity => "Expected a " ++ className ++ ", received: " ++ entity
  | stated message => message

end ExprFault

/-- A cause, the position in characters at which it was noticed, and the text, once known. -/
structure ExprError where
  fault : ExprFault
  pos : Nat := 0
  source : Option String := none

namespace ExprError

/-- The wording of the cause. -/
def message (e : ExprError) : String :=
  e.fault.message

/-- The error as one in the given text, unless it already has a text. -/
def anchoredIn (source : String) (e : ExprError) : ExprError :=
  match e.source with
  | some _ => e
  | none => { e with source := some source }

/-- The text, and below it a mark under the position; a position behind the text marks its end. -/
def diagnostic (e : ExprError) : String :=
  let source := e.source.getD ""
  source ++ "\n" ++ String.ofList (List.replicate (min e.pos source.length) ' ') ++ "^"

/-- The wording, followed by the diagnostic if the text is known. -/
def report (e : ExprError) : String :=
  match e.source with
  | some _ => e.message ++ "\n" ++ e.diagnostic
  | none => e.message

theorem source_anchoredIn (s : String) (e : ExprError) :
    (e.anchoredIn s).source = some (e.source.getD s) := by
  unfold anchoredIn
  split <;> simp_all

theorem fault_anchoredIn (s : String) (e : ExprError) : (e.anchoredIn s).fault = e.fault := by
  unfold anchoredIn
  split <;> rfl

theorem pos_anchoredIn (s : String) (e : ExprError) : (e.anchoredIn s).pos = e.pos := by
  unfold anchoredIn
  split <;> rfl

end ExprError

end ModelInputs
