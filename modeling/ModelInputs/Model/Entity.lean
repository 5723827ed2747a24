import ModelInputs.Input.Basic
import ModelInputs.Value.Result

/-!
# Entities

An entity has a name, a class, inputs in the order in which they were added, attributes and custom
outputs that its user defines, and state of its own that the outputs of its class read.

* `Attribute`, `Attribute.assign`, `Attribute.reset`;
* `Entity`, `Entity.input?`, `Entity.field`;
* `isValidName`: the texts that can be names.
-/

namespace ModelInputs

/-! ## Names -/

/-- The characters that separate names from other text. -/
def nameDelimiters : List Char :=
  [' ', '\t', '\r', '\n', '\x7b', '\x7d', '[', ']', '\'', '"', '.', '#']

/-- A name is a text, not empty, without delimiters. -/
def isValidName (name : String) : Bool :=
  name != "" && name.toList.all fun c => !nameDelimiters.contains c

/-! ## Attributes -/

/-- An attribute of an entity: the value that was assigned to it, if any, or else the result of its
expression. A number that is assigned brings its unit type. -/
structure Attribute where
  entity : EntityId
  name : String
  unitType : UnitType := .dimensionless
  initial : Option Result := none
  value : Option Result := none
  expression : Option Expression := none

namespace Attribute

/-- The unit type of a result, if it is a number. -/
def numberUnit? : Result → Option UnitType
  | .number _ u => some u
  | _ => none

/-- An attribute that starts with a value. -/
def literal (entity : EntityId) (name : String) (unitType : UnitType) (value : Result) :
    Attribute where
  entity := entity
  name := name
  unitType := unitType
  initial := some value
  value := some value

/-- The attribute with a value assigned. -/
def assign (r : Result) (a : Attribute) : Attribute :=
  { a with value := some r, unitType := (numberUnit? r).getD a.unitType }

/-- The attribute with the value that it started with. -/
def reset (a : Attribute) : Attribute :=
  { a with value := a.initial, unitType := (a.initial.bind numberUnit?).getD a.unitType }

/-- The type of the values. -/
def type (a : Attribute) : TypeRef :=
  match a.value.map Result.kind with
  | none | some .number => .float
  | some .text => .text
  | some .entity => .object
  | some .array => .tuple
  | some .map => .dict

end Attribute

/-! ## Entities -/

/-- An entity of a model. -/
structure Entity where
  name : String
  className : String
  /-- the entity knows the other entities by their names -/
  inNamespace : Bool := false
  inputs : List Input := []
  attributes : List (String × AttributeId) := []
  customOutputs : List (String × CustomOutput) := []
  /-- what the outputs of the class read -/
  fields : List (String × Value) := []

namespace Entity

/-- The input of a keyword. -/
def input? (x : Entity) (keyword : String) : Option Input :=
  x.inputs.find? (·.keyword == keyword)

/-- The entity with the input of a keyword changed. -/
def updateInput (keyword : String) (f : Input → Input) (x : Entity) : Entity :=
  { x with inputs := x.inputs.map fun i => if i.keyword == keyword then f i else i }

/-- The part of the state of that name. -/
def field (x : Entity) (name : String) : Value :=
  (x.fields.lookup name).getD .none

/-- The entity with a part of its state replaced. -/
def setField (name : String) (v : Value) (x : Entity) : Entity :=
  { x with fields := distinctKeys (x.fields ++ [(name, v)]) }

end Entity

end ModelInputs
