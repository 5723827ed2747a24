import ModelInputs.Input.Group
import ModelInputs.Input.Reference

/-!
# Definitions of attributes and custom outputs

The user of an entity defines attributes and custom outputs in groups: a name, a value or an
expression, and perhaps a unit. A name must be new among the definitions and must not hide an output
that the entity has already.

* `World.readAttributes`: the attributes that are defined;
* `World.readCustomOutputs`: the custom outputs that are defined.
-/

namespace ModelInputs

namespace World

/-- The name is valid, new among those of the same definitions, and no output of the class of the
entity or of its inputs. -/
def checkNewName (w : World) (e : EntityId) (name : String) (seen : List String) :
    Except InputError Unit :=
  if !isValidName name then .error ⟨.invalidName name, none⟩
  else if seen.contains name then .error ⟨.duplicateName name, none⟩
  else if w.isDeclaredOutput e name then .error ⟨.alreadyOutput name (w.nameOf e), none⟩
  else .ok ()

/-! ## Attributes -/

/-- The unit of that name. -/
def anyUnit? (name : String) : Except InputError PhysicalUnit :=
  match PhysicalUnit.find? name with
  | some u => .ok u
  | none => refuseCommon .unitNotFound [name]

/-- An attribute that starts with a number. -/
def numberAttribute (w : World) (e : EntityId) (name : String) (unit : UnitType) (a : Arguments) :
    Logged Attribute := do
  match ← readQuantities w.settings a unit {} with
  | x :: _ => return .literal e name unit (.number x unit)
  | [] => Logged.ofInput (refuseCommon .count ["1", a.text])

/-- An attribute that has the result of an expression. -/
def expressionAttribute (w : World) (e : EntityId) (name text : String) :
    Except Failure Attribute := do
  let exp ← w.readExpression (some e) text
  let unit ← (w.inferUnit exp (some e)).mapError Failure.asInput
  return { entity := e, name := name, unitType := unit.getD .dimensionless, expression := some exp }

/-- The attribute of a name, from the arguments behind the name. -/
def readDefinition (w : World) (e : EntityId) (name : String) (a : Arguments) :
    Logged Attribute := do
  match a.args with
  | [_, unit] => w.numberAttribute e name (← Logged.ofInput (anyUnit? unit)).unitType a
  | first :: _ =>
    match splitUnit first with
    | (number, some suffix) =>
      if isNumberText number then
        w.numberAttribute e name (← Logged.ofInput (anyUnit? suffix)).unitType a
      else Logged.ofExcept (w.expressionAttribute e name first)
    | _ =>
      if isNumberText first then w.numberAttribute e name .dimensionless a
      else Logged.ofExcept (w.expressionAttribute e name first)
  | [] => Logged.ofInput (refuseCommon .count ["1", a.text])

/-- The name may be that of an attribute of the entity. -/
def checkAttributeName (w : World) (e : EntityId) (name : String) (seen : List String) :
    Except InputError Unit := do
  w.checkNewName e name seen
  if w.hasOutput e name && !w.hasAttribute e name then
    throw ⟨.alreadyOutput name (w.nameOf e), none⟩

/-- The attribute of a group, behind those before it. -/
def readAttribute (w : World) (e : EntityId) (found : List Attribute) (group : Arguments) :
    Logged Attribute := do
  Logged.ofInput (group.checkCountRange 2 (some 3))
  let name := group.args.headD ""
  Logged.ofInput (w.checkAttributeName e name (found.map (·.name)))
  w.readDefinition e name (← Logged.ofInput (group.slice? 1))

/-- The attributes that the groups define. -/
def readAttributes (w : World) (e : EntityId) (a : Arguments) : Logged (List Attribute) :=
  readGroups a (w.readAttribute e)

/-! ## Custom outputs -/

/-- The name may be that of a custom output of the entity. -/
def checkCustomName (w : World) (e : EntityId) (name : String) (seen : List String) :
    Except InputError Unit := do
  w.checkNewName e name seen
  if w.hasAttribute e name then throw ⟨.alreadyAttribute name (w.nameOf e), none⟩

/-- The unit type of a unit, or a unit type. -/
def unitOrType? (token : String) : Except InputError UnitType :=
  match PhysicalUnit.find? token with
  | some u => .ok u.unitType
  | none => readUnitType? token

/-- The custom output of a group, behind those before it. -/
def readCustomOutput (w : World) (e : EntityId) (found : List CustomOutput) (group : Arguments) :
    Logged CustomOutput := do
  Logged.ofInput (group.checkCountRange 2 (some 3))
  let name := group.args.headD ""
  Logged.ofInput (w.checkCustomName e name (found.map (·.name)))
  let unit ← match group.args with
    | [_, _, unit] => Logged.ofInput (unitOrType? unit)
    | _ => pure .dimensionless
  let exp ← Logged.ofExcept (w.readExpression (some e) (group.args.getD 1 "") (some unit))
  return ⟨e, name, exp, unit⟩

/-- The custom outputs that the groups define. -/
def readCustomOutputs (w : World) (e : EntityId) (a : Arguments) : Logged (List CustomOutput) :=
  readGroups a (w.readCustomOutput e)

end World

end ModelInputs
