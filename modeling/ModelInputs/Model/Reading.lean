import ModelInputs.Expression.UnitInference
import ModelInputs.Model.World

/-!
# Reading values

What a handle yields at a time: the value of an output of a class, the value or the expression of an
attribute, the expression of a custom output, or the value of an input, which may itself be computed
by an expression or by a chain of outputs. Expressions read outputs in turn, so a reading is defined
over the readings that it may use, and these nest at most as deep as there are different ones: a
deeper one refers back to itself.

* `Readings`: the results, values and unit types of handles;
* `World.resultWith`, `World.valueWith`, `World.unitWith`: one reading over others;
* `World.readingsWithin`, `World.readings`: all readings;
* `World.evaluate`, `World.inferUnit`, `World.checkExpression`: expressions in a world;
* `World.chainEnd`: the handle at the end of a chain of outputs, looked up anew each time;
* **`World.evaluateWith_ne_tooDeep`**: an expression that refers back to itself ends in an error of
  that expression.
-/

namespace ModelInputs

/-- What handles yield at a time: as a result of an expression, as a plain value, and the unit type
of the numbers. -/
structure Readings where
  result : Handle → Float → Except Failure Result
  value : Handle → Float → Except Failure Value
  unit : Handle → Except Failure UnitType

/-- No handle can be read. -/
def Readings.none : Readings where
  result _ _ := .error .tooDeep
  value _ _ := .error .tooDeep
  unit _ := .error .tooDeep

namespace World

/-! ## Types of handles -/

/-- The type of the values of a handle; one that reads nothing may yield any object. -/
def typeOfHandle (w : World) : Handle → TypeRef
  | .output e name => ((w.outputSpec? e name).map (·.type)).getD .object
  | .attribute a => ((w.attribute? a).map (·.type)).getD .float
  | .custom _ => .float
  | .input id => ((w.input? id).map (·.kind.valueType)).getD .object

/-! ## Expressions -/

/-- The unit type of an output in a check: only numbers have one. -/
def numericUnit (w : World) (r : Readings) (h : Handle) : Except Failure (Option UnitType) := do
  if (w.typeOfHandle h).isNumeric then return some (← r.unit h) else return none

/-- What an expression of an entity can refer to, at a time; with `everywhere`, entities are found
by name even where the entity knows no others. -/
def envWith (w : World) (r : Readings) (this : Option EntityId) (everywhere : Bool) (t : Float) :
    Env where
  this := this
  lookup name := if everywhere || w.hasNamespace this then w.named? name else none
  nameOf := w.nameOf
  read e name := (w.handle? e name).map fun h => r.result h t
  unitOf e name := (w.handle? e name).map (w.numericUnit r)

/-- References that nest too deeply are an error of the expression around them. -/
def withinExpression (exp : Expression) : Except Failure Result → Except Failure Result
  | .error .tooDeep => .error (.expression ⟨.selfReference, 0, some exp.source⟩)
  | x => x

/-- The result of an expression of an entity. -/
def evaluateWith (w : World) (r : Readings) (exp : Expression) (this : Option EntityId)
    (everywhere : Bool) (t : Float) : Except Failure Result :=
  withinExpression exp (anchored exp.source (exp.root.eval (w.envWith r this everywhere t)))

theorem withinExpression_ne_tooDeep (exp : Expression) (x : Except Failure Result) :
    withinExpression exp x ≠ .error .tooDeep := by
  unfold withinExpression
  split <;> simp_all

/-- **An expression that refers back to itself ends in an error of that expression.** -/
theorem evaluateWith_ne_tooDeep (w : World) (r : Readings) (exp : Expression)
    (this : Option EntityId) (everywhere : Bool) (t : Float) :
    w.evaluateWith r exp this everywhere t ≠ .error .tooDeep :=
  withinExpression_ne_tooDeep exp _

/-! ## Chains -/

/-- The handle of the next output of a chain, if the one before yields an entity that has it. -/
def chainStep (w : World) (r : Readings) (t : Float) (h : Option Handle) (name : String) :
    Except Failure (Option Handle) :=
  match h with
  | none => .ok none
  | some h => do
    match ← r.result h t with
    | .entity (some e) => return w.handle? e name
    | _ => return none

/-- The handle at the end of a chain. -/
def chainEnd (w : World) (r : Readings) (c : OutputChain) (t : Float) :
    Except Failure (Option Handle) :=
  c.remaining.foldlM (w.chainStep r t) (w.handle? c.root c.firstName)

/-- The number at the end of a chain, or the default where there is none. -/
def chainNumber (w : World) (r : Readings) (c : OutputChain) (t default : Float) :
    Except Failure Float := do
  match ← w.chainEnd r c t with
  | none => return default
  | some h =>
    match ← r.result h t with
    | .number x _ => return x
    | _ => return default

/-- The value at the end of a chain. -/
def chainValue (w : World) (r : Readings) (c : OutputChain) (t : Float) : Except Failure Value := do
  match ← w.chainEnd r c t with
  | none => return .none
  | some h => r.value h t

/-- The unit type of a chain: that of the handle found when it was made, if it has only one output,
and otherwise that of its end at the time. -/
def chainUnit (w : World) (r : Readings) (c : OutputChain) (t : Float) :
    Except Failure UnitType := do
  if c.remaining.isEmpty then r.unit c.firstHandle
  else
    match ← w.chainEnd r c t with
    | none => return .dimensionless
    | some h => r.unit h

/-! ## Inputs that compute their values -/

/-- An error of an expression as a whole. -/
def failIn {α : Type} (exp : Expression) (fault : ExprFault) : Except Failure α :=
  .error (.expression ⟨fault, 0, some exp.source⟩)

/-- The number of a sampler. -/
def sampleWith (w : World) (r : Readings) (t : Float) : Sampler → Except Failure Float
  | .constant x _ => .ok x
  | .expression exp this unit => do
    match ← w.evaluateWith r exp this false t with
    | .number x u => if u = unit then return x else failIn exp (.expectedUnit unit u)
    | result => failIn exp (.expectedNumber result.kind)
  | .chain c _ => w.chainNumber r c t Number.notANumber

/-- The entity of a provider. -/
def provideWith (w : World) (r : Readings) (t : Float) : Provider → Except Failure Value
  | .constant e => .ok (.entity e)
  | .expression exp this type => do
    match ← w.evaluateWith r exp this false t with
    | .entity none => return .none
    | .entity (some e) =>
      if w.isInstance e type then return .entity e
      else failIn exp (.expectedInstance type.name (w.nameOf e))
    | result => failIn exp (.expectedEntity result.kind)

/-- The sampler that an entity is, if its class yields samples. -/
def entitySampler? (w : World) (e : EntityId) : Option Sampler :=
  match ((w.entity? e).map (·.field "sample")).getD .none with
  | .sampler s => some s
  | _ => none

/-- The sampler that a value is. -/
def samplerOf (w : World) : Value → Except Failure Sampler
  | .sampler s => .ok s
  | .entity e =>
    match w.entitySampler? e with
    | some s => .ok s
    | none => .error .noSuchPart
  | _ => .error .noSuchPart

/-- The number of the value of a sampled input. -/
def sampleValue (w : World) (r : Readings) (keyword : String) (t : Float) (v : Value) :
    Except Failure Float := do
  if v.isNone then throw (.ofFault (.noValue keyword))
  w.sampleWith r t (← w.samplerOf v)

/-- The number of a sampled input, which must lie in its range, unless it is not a number. -/
def inputSample (w : World) (r : Readings) (keyword : String) (range : NumberRange) (t : Float)
    (v : Value) : Except Failure Float := do
  let x ← w.sampleValue r keyword t v
  if !x.isNaN then (range.check x).mapError Failure.input
  return x

/-- The value of an input as an output. -/
def inputValue (w : World) (r : Readings) (id : InputId) (kind : InputKind) (t : Float) :
    Except Failure Value := do
  match kind, ← w.valueOf id with
  | .output _, .none | .sample .., .none | .provider .., .none => return .none
  | .output _, .chain c => w.chainValue r c t
  | .sample _ range, v => return .float (← w.inputSample r id.keyword range t v)
  | .provider .., .provider p => w.provideWith r t p
  | .output _, _ | .provider .., _ => throw .noSuchPart
  | _, v => return v

/-- The unit type of the numbers of a value that is read as a chain, at time zero. -/
def valueUnit (w : World) (r : Readings) : Value → Except Failure UnitType
  | .none => .ok .dimensionless
  | .chain c => w.chainUnit r c 0.0
  | v => return (← w.samplerOf v).unitType

/-- The unit type of the numbers of an input: that of its kind, or else of its value. -/
def inputUnit (w : World) (r : Readings) (id : InputId) (kind : InputKind) :
    Except Failure UnitType := do
  match kind with
  | .output none => w.valueUnit r (← w.valueOf id)
  | kind => return kind.unitType

/-! ## Handles -/

/-- The unit type of the numbers of a handle, over the readings that it may use. -/
def unitWith (w : World) (r : Readings) : Handle → Except Failure UnitType
  | .output e name =>
    match w.outputSpec? e name with
    | some spec => .ok spec.unitType
    | none => .error .missingOutput
  | .attribute a => .ok (((w.attribute? a).map (·.unitType)).getD .dimensionless)
  | .custom output => .ok output.unitType
  | .input id =>
    match w.input? id with
    | some i => w.inputUnit r id i.kind
    | none => .ok .dimensionless

/-- The value of an output of the class of an entity. -/
def outputValue (w : World) (e : EntityId) (name : String) (t : Float) : Except Failure Value :=
  match w.outputSpec? e name, w.entity? e with
  | some spec, some x => spec.read e x t
  | _, _ => .error .missingOutput

/-- The result of an attribute: its value, or else that of its expression. -/
def attributeResult (w : World) (r : Readings) (a : Attribute) (t : Float) : Except Failure Result :=
  match a.value, a.expression with
  | some result, _ => .ok result
  | none, some exp => w.evaluateWith r exp (some a.entity) false t
  | none, none => .error (.exprAt 0 (.attributeWithoutValue a.name))

/-- The result of a custom output; a number must have the declared unit type. -/
def customResult (w : World) (r : Readings) (o : CustomOutput) (t : Float) :
    Except Failure Result := do
  match ← w.evaluateWith r o.expression (some o.entity) false t with
  | .number x u =>
    if u = o.unitType then return .number x u
    else failIn o.expression (.customOutputUnit o.name o.unitType u)
  | result => return result

/-- The value of an input as an output, over the readings that it may use. -/
def inputOutputWith (w : World) (r : Readings) (id : InputId) (t : Float) : Except Failure Value :=
  match w.input? id with
  | some i => w.inputValue r id i.kind t
  | none => .ok .none

/-- The result of a handle, over the readings that it may use. -/
def resultWith (w : World) (r : Readings) (t : Float) : Handle → Except Failure Result
  | .output e name => do
    let v ← w.outputValue e name t
    v.toResult w.names (← w.unitWith r (.output e name))
  | .attribute a =>
    match w.attribute? a with
    | some a => w.attributeResult r a t
    | none => .error .missingOutput
  | .custom output => w.customResult r output t
  | .input id => do
    let v ← w.inputOutputWith r id t
    v.toResult w.names (← w.unitWith r (.input id))

/-- The value of a handle, over the readings that it may use. -/
def valueWith (w : World) (r : Readings) (t : Float) : Handle → Except Failure Value
  | .output e name => w.outputValue e name t
  | .attribute a => return (← w.resultWith r t (.attribute a)).toValue
  | .custom output => return (← w.resultWith r t (.custom output)).toValue
  | .input id => w.inputOutputWith r id t

/-- Readings that nest at most `n` deep. -/
def readingsWithin (w : World) : Nat → Readings
  | 0 => .none
  | n + 1 =>
    let r := w.readingsWithin n
    { result := fun h t => w.resultWith r t h
      value := fun h t => w.valueWith r t h
      unit := w.unitWith r }

/-- The number of places from which readings go on: attributes, custom outputs and inputs that
compute their values. -/
def referenceCount (w : World) : Nat :=
  w.entities.foldl (fun count x => count + x.attributes.length + x.customOutputs.length
    + (x.inputs.filter (·.kind.isComputed)).length) 0

/-- How deep readings can nest that do not refer back to themselves: from each place a result, a
value and a unit type can be read, at the given time and at time zero; to these come the handle that
is read first and the output that is read last. -/
def depthLimit (w : World) : Nat :=
  6 * w.referenceCount + 2

/-- All readings. -/
def readings (w : World) : Readings :=
  w.readingsWithin (w.depthLimit + 1)

/-! ## Expressions in a world -/

/-- The result of an expression of an entity at a time. -/
def evaluate (w : World) (exp : Expression) (this : Option EntityId) (t : Float)
    (everywhere : Bool := false) : Except Failure Result :=
  w.evaluateWith w.readings exp this everywhere t

/-- The environment in which expressions of an entity are checked. -/
def checkEnv (w : World) (this : Option EntityId) (everywhere : Bool := false) : Env :=
  w.envWith w.readings this everywhere 0.0

/-- The unit type of an expression of an entity, if it is known before evaluation. -/
def inferUnit (w : World) (exp : Expression) (this : Option EntityId) (everywhere : Bool := false)
    (strict : Bool := false) : Except Failure (Option UnitType) :=
  exp.inferUnit (w.checkEnv this everywhere) strict

/-- The check of an expression of an entity. -/
def checkExpression (w : World) (exp : Expression) (this : Option EntityId)
    (expected : Option UnitType) (everywhere : Bool := false) (strict : Bool := false) :
    Except Failure Unit :=
  exp.check (w.checkEnv this everywhere) expected strict

/-! ## Values of a type -/

/-- The value is absent or of the type, if one is asked for. -/
def checkClass (w : World) (h : Handle) (type : Option TypeRef) (v : Value) :
    Except Failure Value :=
  match type with
  | none => .ok v
  | some type =>
    if v.isNone || w.hasType v type then .ok v
    else
      .error (.exprAt 0
        (.unexpectedClass (w.handleName h) (v.typeOf w.classOf).name type.name))

/-- The value of a handle, of a type if one is asked for. -/
def readValue (w : World) (h : Handle) (t : Float) (type : Option TypeRef := none) :
    Except Failure Value := do
  w.checkClass h type (← w.readings.value h t)

/-- The number of a handle, or the default where it yields none. -/
def readNumber (w : World) (h : Handle) (t default : Float) : Except Failure Float := do
  match ← w.readings.result h t with
  | .number x _ => return x
  | _ => return default

/-- The value at the end of a chain, of a type if one is asked for. -/
def readChain (w : World) (c : OutputChain) (t : Float) (type : Option TypeRef := none) :
    Except Failure Value := do
  match ← w.chainEnd w.readings c t with
  | none => return .none
  | some h => w.readValue h t type

/-- The result at the end of a chain. -/
def chainResult (w : World) (c : OutputChain) (t : Float) : Except Failure (Option Result) := do
  match ← w.chainEnd w.readings c t with
  | none => return none
  | some h => return some (← w.readings.result h t)

/-- The type of the values of a chain: that of the handle found when it was made, if it has only one
output, and otherwise that of its end at the time. -/
def chainType (w : World) (c : OutputChain) (t : Float) : Except Failure TypeRef := do
  if c.remaining.isEmpty then return w.typeOfHandle c.firstHandle
  else
    match ← w.chainEnd w.readings c t with
    | none => return .object
    | some h => return w.typeOfHandle h

end World

end ModelInputs
