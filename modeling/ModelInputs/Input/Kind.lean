import ModelInputs.Value.Basic

/-!
# Kinds of inputs

The kind of an input says which arguments it accepts and what value they give: a number with a
unit, one of some choices, entities of a class, an expression that is evaluated later, and so on.
Ranges and counts are parts of the kind.

* `IntRange`, `NumberRange`, `CountRange`, `Enumeration`;
* `IntRange.check`, `NumberRange.check`: a number lies in its range;
* `InputKind`, `InputKind.name`, `InputKind.valueType`, `InputKind.summary`.
-/

namespace ModelInputs

/-! ## Bounds and choices -/

/-- The integers between two bounds, either of which may be missing. -/
structure IntRange where
  least : Option Int := none
  most : Option Int := none

/-- The numbers between two bounds. -/
structure NumberRange where
  least : Float := -Number.infinity
  most : Float := Number.infinity

/-- A bound as text, where a missing one is infinite. -/
def IntRange.boundText (infinite : String) (bound : Option Int) : String :=
  (bound.map toString).getD infinite

/-- The integer lies in the range. -/
def IntRange.check (r : IntRange) (n : Int) : Except InputError Unit :=
  if r.least.any (n < ·) || r.most.any (· < n) then
    .error (.common .integerRange
      [boundText "-Infinity" r.least, boundText "Infinity" r.most, toString n])
  else .ok ()

/-- The number does not lie outside the range. -/
def NumberRange.check (r : NumberRange) (x : Float) : Except InputError Unit :=
  if x < r.least || x > r.most then
    .error (.common .numberRange ([r.least, r.most, x].map Number.plainText))
  else .ok ()

/-- How many items a list may have. -/
structure CountRange where
  least : Nat := 0
  most : Nat := Arguments.maxCount

/-- Named members; an alias is another name of a member. -/
structure Enumeration where
  name : String
  members : List EnumMember
  aliases : List (String × String) := []

namespace Enumeration

/-- The names of the members, without aliases. -/
def names (e : Enumeration) : List String :=
  e.members.map (·.name)

/-- The member of a name or an alias. -/
def find? (e : Enumeration) (name : String) : Option EnumMember :=
  let name := (e.aliases.lookup name).getD name
  e.members.find? (·.name == name)

end Enumeration

/-! ## Kinds -/

/-- What an input accepts. -/
inductive InputKind where
  /-- any value, but no arguments -/
  | plain
  /-- any list, but no arguments -/
  | list
  | boolean
  | integer (range : IntRange)
  | number (unit : UnitType) (range : NumberRange)
  | text
  | choice (choices : List String) (caseSensitive : Bool)
  | member (enumeration : Enumeration)
  | date
  | colour
  | vector (unit : UnitType) (range : NumberRange)
  | integers (range : IntRange) (counts : CountRange)
  | numbers (unit : UnitType) (range : NumberRange) (counts : CountRange)
  | texts (choices : Option (List String)) (counts : CountRange)
  | colours (counts : CountRange)
  | vectors (unit : UnitType) (counts : CountRange)
  | entity (type : TypeRef)
  | interfaceEntity (type : TypeRef)
  /-- an entity from which the same keyword never leads back -/
  | relativeEntity (type : TypeRef)
  | entities (type : TypeRef) (unique : Bool) (counts : CountRange)
  | interfaceEntities (type : TypeRef) (unique : Bool) (counts : CountRange)
  /-- lists of entities -/
  | entityLists (type : TypeRef) (unique : Bool) (counts : CountRange)
  /-- a list of entities for each key, and one for all other keys, which starts as given -/
  | keyLists (keyType valueType : TypeRef) (keyless : List EntityId)
  /-- an input of an entity -/
  | keyword
  /-- an output of an entity, perhaps of a required unit type -/
  | output (unit : Option UnitType)
  /-- a number that is computed each time it is asked for -/
  | sample (unit : UnitType) (range : NumberRange)
  /-- an entity that is computed each time it is asked for -/
  | provider (type : TypeRef) (invalid : List TypeRef)
  /-- the attributes of the entity -/
  | attributes
  /-- the custom outputs of the entity -/
  | customOutputs
  /-- another keyword for an input -/
  | synonym (target : InputId)
  /-- a keyword that is no longer used, with advice -/
  | deprecated (advice : String) (fatal : Bool)

namespace InputKind

/-- The name of a kind. -/
def name : InputKind → String
  | plain => "Input"
  | list => "ListInput"
  | boolean => "BooleanInput"
  | integer .. => "IntegerInput"
  | number .. => "ValueInput"
  | text => "StringInput"
  | choice .. => "StringChoiceInput"
  | member .. => "EnumInput"
  | date => "DateInput"
  | colour => "ColourInput"
  | vector .. => "Vec3dInput"
  | integers .. => "IntegerListInput"
  | numbers .. => "ValueListInput"
  | texts .. => "StringListInput"
  | colours .. => "ColourListInput"
  | vectors .. => "Vec3dListInput"
  | entity .. => "EntityInput"
  | interfaceEntity .. => "InterfaceEntityInput"
  | relativeEntity .. => "RelativeEntityInput"
  | entities .. => "EntityListInput"
  | interfaceEntities .. => "InterfaceEntityListInput"
  | entityLists .. => "EntityListListInput"
  | keyLists .. => "KeyListInput"
  | keyword => "KeywordInput"
  | output .. => "OutputInput"
  | sample .. => "SampleInput"
  | provider .. => "EntityProvInput"
  | attributes => "AttributeDefinitionListInput"
  | customOutputs => "NamedExpressionListInput"
  | synonym .. => "SynonymInput"
  | deprecated .. => "DeprecatedInput"

/-- The type of the values. -/
def valueType : InputKind → TypeRef
  | boolean => .bool
  | integer .. => .int
  | number .. | sample .. => .float
  | text | choice .. => .text
  | member e => .named e.name
  | date => .datetime
  | colour => .colour
  | vector .. => .vector
  | list | integers .. | numbers .. | texts .. | colours .. | vectors .. => .list
  | entities .. | interfaceEntities .. | entityLists .. | attributes | customOutputs => .list
  | entity type | interfaceEntity type | relativeEntity type | provider type _ => type
  | keyLists .. => .dict
  | keyword => .keywordRef
  | output .. => .outputChain
  | plain | synonym .. | deprecated .. => .object

/-- The unit type of the numbers, unless it hangs on the value. -/
def unitType : InputKind → UnitType
  | number unit _ | vector unit _ | numbers unit .. | vectors unit _ | sample unit _ => unit
  | output unit => unit.getD .dimensionless
  | _ => .dimensionless

/-- The kind holds a list. -/
def isList : InputKind → Bool
  | list | integers .. | numbers .. | texts .. | colours .. | vectors .. => true
  | entities .. | interfaceEntities .. | entityLists .. => true
  | _ => false

/-- The input that a synonym stands for. -/
def target? : InputKind → Option InputId
  | synonym target => some target
  | _ => none

/-- The value is computed each time it is asked for. -/
def isComputed : InputKind → Bool
  | output .. | sample .. | provider .. => true
  | _ => false

/-- What the kind accepts, in words. -/
def summary : InputKind → String
  | boolean => "TRUE or FALSE"
  | integer .. => "An integer"
  | number .. => "A number followed by a unit"
  | text => "A string; quote it if it contains spaces"
  | choice choices _ => "One of: " ++ ", ".intercalate choices
  | member e => "One of: " ++ ", ".intercalate e.names
  | date => "An RFC8601 date, e.g. 2024-01-31 or 2024-01-31T08:30:00"
  | colour => "A colour name, optionally with an alpha, or RGB(A) values"
  | vector .. => "Up to three numbers followed by a unit"
  | integers .. => "A list of integers"
  | numbers .. => "A list of numbers followed by a unit"
  | texts .. => "A list of strings"
  | colours .. => "A list of colours, each enclosed in braces"
  | vectors .. => "A list of vectors, each enclosed in braces, followed by a unit"
  | entity type | relativeEntity type => "The name of a " ++ type.name
  | interfaceEntity type => "The name of an entity implementing " ++ type.name
  | entities type .. => "A list of " ++ type.name ++ " entities"
  | interfaceEntities type .. => "A list of entities implementing " ++ type.name
  | entityLists type .. => "Lists of " ++ type.name ++ " entities, each enclosed in braces"
  | keyLists .. => "Groups of \x7b key value1 value2 ... \x7d"
  | keyword => "An entity name followed by one of its keywords"
  | output .. => "An output chain, e.g. [Entity].Output"
  | sample .. => "A number with a unit, an expression, an output chain or a sample entity"
  | provider type _ => "The name of a " ++ type.name ++ " or an expression returning one"
  | attributes => "Groups of \x7b name value [unit] \x7d"
  | customOutputs => "Groups of \x7b name 'expression' [unit type] \x7d"
  | plain | list | synonym .. | deprecated .. => "Any value"

end InputKind

end ModelInputs
