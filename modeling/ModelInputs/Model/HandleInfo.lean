import ModelInputs.Model.Reading

/-!
# What is known of a handle

Besides its values a handle has a name, a unit type, a type, and what its class or input says about
it. Attributes and custom outputs may change their values at one time, so these are not to be kept;
they come behind all declared outputs.

* `Handle.canCache`, `Handle.isUserDefined`;
* `HandleInfo`, `World.handleInfo`.
-/

namespace ModelInputs

/-- The user of the entity has defined the handle. -/
def Handle.isUserDefined : Handle → Bool
  | .attribute _ => true
  | .custom _ => true
  | _ => false

/-- The value at one time is always the same. -/
def Handle.canCache (h : Handle) : Bool :=
  !h.isUserDefined

/-- What is known of a handle. -/
structure HandleInfo where
  name : String
  unitType : UnitType
  type : TypeRef
  description : String
  isReportable : Bool
  /-- the place among the declared outputs of a class; other handles come behind them -/
  sequence : Option Int
  canCache : Bool

namespace World

/-- The output of a class that a handle reads. -/
def handleSpec? (w : World) : Handle → Option OutputSpec
  | .output e name => w.outputSpec? e name
  | _ => none

/-- The description of an input that a handle reads. -/
def inputDescription? (w : World) : Handle → Option String
  | .input id => (w.input? id).map (·.description)
  | _ => none

/-- What is known of a handle, if its unit type can be found. -/
def handleInfo (w : World) (h : Handle) : Except Failure HandleInfo := do
  let unit ← w.readings.unit h
  let spec := w.handleSpec? h
  return {
    name := w.handleName h
    unitType := unit
    type := w.typeOfHandle h
    description := ((spec.map (·.description)).or (w.inputDescription? h)).getD ""
    isReportable := h.isUserDefined || (spec.map (·.isReportable)).getD false
    sequence := spec.map (·.sequence)
    canCache := h.canCache }

end World

end ModelInputs
