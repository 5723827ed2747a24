import ModelInputs.Input.Basic

/-!
# Kinds of inputs by name

A kind can be chosen by its name, with options for its ranges, counts, choices and classes. Options
that a kind does not have are ignored.

* `KindOptions`;
* `InputKind.ofName?`.
-/

namespace ModelInputs

/-- The options of all kinds. -/
structure KindOptions where
  unit : Option UnitType := none
  range : NumberRange := {}
  integers : IntRange := {}
  counts : CountRange := {}
  choices : Option (List String) := none
  caseSensitive : Bool := true
  enumeration : Option Enumeration := none
  type : TypeRef := .named "Entity"
  unique : Bool := true
  keyType : TypeRef := .named "Entity"
  valueType : TypeRef := .named "Entity"
  keyless : List EntityId := []
  invalid : List TypeRef := []
  target : Option InputId := none
  advice : String := ""
  fatal : Bool := false

/-- The kind of a name; an enumeration and the target of a synonym must be given. -/
def InputKind.ofName? (o : KindOptions) (name : String) : Option InputKind :=
  let unit := o.unit.getD .dimensionless
  match name with
  | "Input" => some .plain
  | "ListInput" => some .list
  | "BooleanInput" => some .boolean
  | "IntegerInput" => some (.integer o.integers)
  | "ValueInput" => some (.number unit o.range)
  | "StringInput" => some .text
  | "StringChoiceInput" => some (.choice (o.choices.getD []) o.caseSensitive)
  | "EnumInput" => o.enumeration.map .member
  | "DateInput" => some .date
  | "ColourInput" => some .colour
  | "Vec3dInput" => some (.vector unit o.range)
  | "IntegerListInput" => some (.integers o.integers o.counts)
  | "ValueListInput" => some (.numbers unit o.range o.counts)
  | "StringListInput" => some (.texts o.choices o.counts)
  | "ColourListInput" => some (.colours o.counts)
  | "Vec3dListInput" => some (.vectors unit o.counts)
  | "EntityInput" => some (.entity o.type)
  | "InterfaceEntityInput" => some (.interfaceEntity o.type)
  | "RelativeEntityInput" => some (.relativeEntity o.type)
  | "EntityListInput" => some (.entities o.type o.unique o.counts)
  | "InterfaceEntityListInput" => some (.interfaceEntities o.type o.unique o.counts)
  | "EntityListListInput" => some (.entityLists o.type o.unique o.counts)
  | "KeyListInput" => some (.keyLists o.keyType o.valueType o.keyless)
  | "KeywordInput" => some .keyword
  | "OutputInput" => some (.output o.unit)
  | "SampleInput" => some (.sample unit o.range)
  | "EntityProvInput" => some (.provider o.type o.invalid)
  | "AttributeDefinitionListInput" => some .attributes
  | "NamedExpressionListInput" => some .customOutputs
  | "SynonymInput" => o.target.map .synonym
  | "DeprecatedInput" => some (.deprecated o.advice o.fatal)
  | _ => none

end ModelInputs
