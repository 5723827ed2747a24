import ModelInputs.Error.Expression

/-!
# Errors of inputs

What can be wrong with a record or with the arguments of a keyword. The common causes share a set
of message templates with numbered gaps; an error of an element or of a keyword wraps the error
inside it; an error of an expression keeps its diagnostic.

* `Template`, `Template.all`, `Template.fill?`: the common wordings;
* `InputFault`, `InputFault.message`: the causes;
* `Origin`, `InputError`: where the record came from, and the error.
-/

namespace ModelInputs

/-! ## Templates -/

/-- The common messages. -/
inductive Template where
  | count
  | countRange
  | countLeast
  | countEven
  | countOdd
  | boolean
  | integer
  | number
  | integerRange
  | numberRange
  | sumTolerance
  | monotonic
  | badChoice
  | element
  | entityName
  | entityClass
  | interface
  | notUnique
  | noUnit
  | unitNotFound
  | units
  | badDate
  | badColour
  | apostrophe
  | required
  | circular
  | braces
deriving DecidableEq, Repr

/-- All common messages, in order. -/
def Template.all : List Template :=
  [count, countRange, countLeast, countEven, countOdd, boolean, integer, number, integerRange,
    numberRange, sumTolerance, monotonic, badChoice, element, entityName, entityClass, interface,
    notUnique, noUnit, unitNotFound, units, badDate, badColour, apostrophe, required, circular,
    braces]

theorem Template.mem_all (t : Template) : t ∈ all := by
  cases t <;> decide

/-- A piece of a message: a wording, or the argument of that number. -/
inductive Piece where
  | text (s : String)
  | gap (n : Nat)

namespace Template

/-- The pieces of a message. -/
def pieces : Template → List Piece
  | count => [.text "Expected an input with ", .gap 0, .text " value(s), received: ", .gap 1]
  | countRange =>
    [.text "Expected an input with ", .gap 0, .text " to ", .gap 1, .text " values, received: ",
     .gap 2]
  | countLeast =>
    [.text "Expected an input with at least ", .gap 0, .text " values, received: ", .gap 1]
  | countEven => [.text "Expected an input with an even number of values, received: ", .gap 0]
  | countOdd => [.text "Expected an input with an odd number of values, received: ", .gap 0]
  | boolean => [.text "Expected a boolean value, received: ", .gap 0]
  | integer => [.text "Expected an integer value, received: ", .gap 0]
  | number => [.text "Expected a numeric value, received: ", .gap 0]
  | integerRange =>
    [.text "Expected an integer between ", .gap 0, .text " and ", .gap 1, .text ", received: ",
     .gap 2]
  | numberRange =>
    [.text "Expected a number between ", .gap 0, .text " and ", .gap 1, .text ", received: ",
     .gap 2]
  | sumTolerance =>
    [.text "Expected the values to sum to ", .gap 0, .text " within ", .gap 1,
     .text ", received: ", .gap 2]
  | monotonic =>
    [.text "Expected an input that is monotonically increasing, received: ", .gap 0]
  | badChoice => [.text "Expected one of ", .gap 0, .text ", received: ", .gap 1]
  | element => [.text "Error parsing element ", .gap 0, .text ": ", .gap 1]
  | entityName => [.text "Could not find an Entity named: ", .gap 0]
  | entityClass => [.text "Expected a ", .gap 0, .text ", ", .gap 1, .text " is a ", .gap 2]
  | interface =>
    [.text "Expected an object implementing ", .gap 0, .text ", ", .gap 1, .text " does not"]
  | notUnique => [.text "List must contain unique entries, repeated entry: ", .gap 0]
  | noUnit =>
    [.text "A unit is required, could not parse '", .gap 0, .text "' as a ", .gap 1]
  | unitNotFound => [.text "Could not find a unit named: ", .gap 0]
  | units => [.text "Unit types do not match, expected ", .gap 0, .text ", received: ", .gap 1]
  | badDate => [.text "Expected a valid RFC8601 datetime, received: ", .gap 0]
  | badColour => [.text "Expected a colour name or RGB values, received: ", .gap 0]
  | apostrophe => [.text "A string can not contain an apostrophe, received: ", .gap 0]
  | required => [.text "An input must be provided for the keyword '", .gap 0, .text "'"]
  | circular => [.text "Circular reference: ", .gap 0, .text " would contain itself"]
  | braces => [.text "Braces do not match: ", .gap 0]

/-- The text of a piece, if its argument is given. -/
def pieceText? (args : List String) : Piece → Option String
  | .text s => some s
  | .gap n => args[n]?

/-- The message with its gaps filled; every gap needs its argument. -/
def fill? (t : Template) (args : List String) : Option String :=
  (t.pieces.mapM (pieceText? args)).map String.join

end Template

/-! ## Causes -/

/-- What is wrong with a record, an argument list or a change of the model. -/
inductive InputFault where
  | common (template : Template) (args : List String)
  | inElement (index : Nat) (inner : InputFault)
  | inKeyword (entity keyword : String) (inner : InputFault)
  | inExpression (error : ExprError)
  | bracesExpected (received : String)
  | keywordExpected (received : String)
  | valueMissing (keyword : String)
  | keywordNotFound (keyword entity : String)
  | invalidEntityName (name : String)
  | entityNameInUse (name : String)
  | invalidName (name : String)
  | duplicateName (name : String)
  | alreadyOutput (name entity : String)
  | alreadyAttribute (name entity : String)
  | entityRequired (keyword : String)
  | namespaceRequired
  | unitTypeNotFound (name : String)
  | chainExpected (received : String)
  | emptyChainName (received : String)
  | outputNotFound (output entity : String)
  | noEntityOutput (output entity rest : String)
  | noValue (keyword : String)
  | retired (keyword advice : String)

namespace InputFault

/-- The wording of a cause. -/
def message : InputFault → String
  | common template args => (template.fill? args).getD ""
  | inElement index inner => (Template.element.fill? [toString index, message inner]).getD ""
  | inKeyword entity keyword inner => entity ++ " keyword " ++ keyword ++ ": " ++ message inner
  | inExpression error => error.report
  | bracesExpected received => "Expected values enclosed in braces, received: " ++ received
  | keywordExpected received => "Expected a keyword, received: " ++ received
  | valueMissing keyword => "No value given for keyword " ++ keyword
  | keywordNotFound keyword entity =>
    "Keyword " ++ keyword ++ " could not be found for Entity " ++ entity
  | invalidEntityName name => "Invalid entity name: '" ++ name ++ "'"
  | entityNameInUse name => "Entity name already in use: " ++ name
  | invalidName name => "Invalid name: '" ++ name ++ "'"
  | duplicateName name => "Duplicate name: '" ++ name ++ "'"
  | alreadyOutput name entity => "'" ++ name ++ "' is already an output of " ++ entity
  | alreadyAttribute name entity => "'" ++ name ++ "' is already an attribute of " ++ entity
  | entityRequired keyword => keyword ++ " can only be set on an entity"
  | namespaceRequired => "Entity references require an entity in a namespace"
  | unitTypeNotFound name => "Could not find a unit type named: " ++ name
  | chainExpected received =>
    "Expected an output chain such as [Entity].Output, received: " ++ received
  | emptyChainName received => "Empty name in output chain: " ++ received
  | outputNotFound output entity =>
    "Output named " ++ output ++ " not found for Entity " ++ entity
  | noEntityOutput output entity rest =>
    "Output " ++ output ++ " of " ++ entity ++ " does not return an Entity, so " ++ rest
      ++ " can not follow it"
  | noValue keyword => "No value has been set for the keyword '" ++ keyword ++ "'"
  | retired keyword advice =>
    "Keyword " ++ keyword ++ " is no longer supported. " ++ advice

/-- The error of an expression at the bottom of a cause. -/
def exprError? : InputFault → Option ExprError
  | inElement _ inner => exprError? inner
  | inKeyword _ _ inner => exprError? inner
  | inExpression error => some error
  | _ => none

end InputFault

/-! ## Errors -/

/-- Where a record came from: a file or stream, and perhaps a line of it. -/
structure Origin where
  source : String
  line : Option Int := none
deriving DecidableEq, Repr

/-- The origin as text. -/
def Origin.text (o : Origin) : String :=
  match o.line with
  | some n => o.source ++ ":" ++ toString n
  | none => o.source

/-- A cause, and the origin of the record if it is known. -/
structure InputError where
  fault : InputFault
  origin : Option Origin := none

namespace InputError

/-- The wording of the cause. -/
def message (e : InputError) : String :=
  e.fault.message

/-- The origin on a line of its own, if it is known, and the wording. -/
def report (e : InputError) : String :=
  match e.origin with
  | some o => o.text ++ "\n" ++ e.message
  | none => e.message

/-- An error with a common message. -/
def common (template : Template) (args : List String) (origin : Option Origin := none) :
    InputError :=
  ⟨.common template args, origin⟩

/-- An error of the expression of an input. -/
def ofExpr (e : ExprError) : InputError :=
  ⟨.inExpression e, none⟩

end InputError

end ModelInputs
