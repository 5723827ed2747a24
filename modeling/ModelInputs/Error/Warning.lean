import ModelInputs.Error.Failure

/-!
# Warnings

What is reported to the user although it is no error. A computation that may fail keeps the warnings
that it gave before it failed.

* `Warning`, `Warning.message`;
* `Logged`: computations that fail or give warnings;
* `Logged.warn`, `Logged.ofExpr`, `Logged.ofInput`.
-/

namespace ModelInputs

/-- Something that the user should know. -/
inductive Warning where
  | missingUnit (received : String) (unit : UnitType)
  | notRemoved (entity keyword : String)
  | ignoredKeyword (entity keyword advice : String)
  | unknownLevel (setting received : String) (known : List String) (used : String)

/-- The wording of a warning. -/
def Warning.message : Warning → String
  | missingUnit received unit => "Missing unit for '" ++ received ++ "', assuming " ++ unit.siUnit
  | notRemoved entity keyword => "Could not remove " ++ entity ++ " from " ++ keyword
  | ignoredKeyword entity keyword advice =>
    entity ++ " keyword " ++ keyword ++ " is deprecated and ignored. " ++ advice
  | unknownLevel setting received known used =>
    "Unknown " ++ setting ++ " value '" ++ received ++ "'. Valid values: "
      ++ ", ".intercalate known ++ ". Using " ++ used ++ "."

/-- Computations that may fail and that add warnings to those given before. -/
abbrev Logged (α : Type) : Type :=
  ExceptT Failure (StateM (List Warning)) α

namespace Logged

/-- Adds a warning. -/
def warn (warning : Warning) : Logged Unit :=
  modify (· ++ [warning])

/-- A computation without warnings. -/
def ofExcept {α : Type} : Except Failure α → Logged α
  | .ok a => pure a
  | .error failure => throw failure

/-- A computation whose errors are errors of inputs. -/
def ofInput {α : Type} (x : Except InputError α) : Logged α :=
  ofExcept (x.mapError Failure.input)

/-- Fails with an error of an input without an origin. -/
def refuse {α : Type} (fault : InputFault) : Logged α :=
  throw (.ofFault fault)

end Logged

/-- The failure with an error of an expression turned into one of an input. -/
def Failure.asInput : Failure → Failure
  | .expression error => .input (.ofExpr error)
  | failure => failure

end ModelInputs
