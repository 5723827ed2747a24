import ModelInputs.Input.Reference

/-!
# Samples and providers

Inputs that are computed each time they are asked for. A sample is a constant with its unit, an
expression, a chain of outputs or an entity whose class yields samples; a provider is an entity or
an expression.

* `World.readSample`: the ways of giving a sample, tried in turn;
* `World.readProvider`.
-/

namespace ModelInputs

namespace World

/-- The unit type of a sample is the expected one, unless it is left to the user. -/
def checkSampleUnit (expected actual : UnitType) : Except InputError Unit :=
  if actual = .userSpecified || actual = expected then .ok ()
  else refuseCommon .units [expected.name, actual.name]

/-- A chain of outputs as a sample; of a longer chain the unit type is not known yet. -/
def chainSample (w : World) (unit : UnitType) (c : OutputChain) : Except Failure Value := do
  if c.remaining.isEmpty then
    (checkSampleUnit unit (← w.chainUnit w.readings c 0.0)).mapError Failure.input
  return .sampler (.chain c unit)

/-- A constant as a sample. -/
def constantSample (w : World) (unit : UnitType) (range : NumberRange) (a : Arguments) :
    Logged Value := do
  match ← readQuantities w.settings a unit range with
  | [x] => return .sampler (.constant x unit)
  | _ => Logged.ofInput (refuseCommon .count ["1", a.text])

/-- A sample of two or more arguments: a chain of outputs, or a number and its unit. -/
def longSample (w : World) (this : Option EntityId) (unit : UnitType) (range : NumberRange)
    (a : Arguments) : Logged Value :=
  match w.readChain? this a with
  | .ok c => Logged.ofExcept (w.chainSample unit c)
  | .error error =>
    if 2 < a.count || unit = .dimensionless then throw (.input error)
    else w.constantSample unit range a

/-- The token is a number, or a number and something in brackets. -/
def startsQuantity (token : String) : Bool :=
  isNumberText token ||
    match Text.cut? '[' token.toList with
    | some (number, unit) => unit.getLast? == some ']' && isNumberText (String.ofList number)
    | none => false

/-- An entity whose class yields samples. -/
def isSampler (w : World) (e : EntityId) : Bool :=
  w.isInstance e (.named "SampleProvider")

/-- The unit type of the samples of an entity. -/
def samplerUnit (w : World) (e : EntityId) : UnitType :=
  ((w.entitySampler? e).map (·.unitType)).getD .dimensionless

/-- A sample of one argument: an entity, a number or an expression. -/
def shortSample (w : World) (this : Option EntityId) (unit : UnitType) (range : NumberRange)
    (a : Arguments) (token : String) : Logged Value := do
  match (w.findNamed? this token).filter w.isSampler with
  | some e =>
    Logged.ofInput (checkSampleUnit unit (w.samplerUnit e))
    return .entity e
  | none =>
    if startsQuantity token then w.constantSample unit range a
    else
      let exp ← Logged.ofExcept (w.readExpression this token (some unit))
      return .sampler (.expression exp this unit)

/-- A sample. -/
def readSample (w : World) (this : Option EntityId) (unit : UnitType) (range : NumberRange)
    (a : Arguments) : Logged Value := do
  Logged.ofInput (a.checkCountRange 1 none)
  match a.args with
  | [token] => w.shortSample this unit range a token
  | _ => w.longSample this unit range a

/-- An entity of a type and of none of the invalid types, or an expression. -/
def readProvider (w : World) (this : Option EntityId) (type : TypeRef) (invalid : List TypeRef)
    (token : String) : Except Failure Value :=
  match w.findNamed? this token with
  | some e =>
    if w.isInstance e type && !invalid.any (w.isInstance e) then .ok (.provider (.constant e))
    else (w.refuseClass type e (w.nameOf e)).mapError Failure.input
  | none => do
    let exp ← w.readExpression this token
    return .provider (.expression exp this type)

end World

end ModelInputs
