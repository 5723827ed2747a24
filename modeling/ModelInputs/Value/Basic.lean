import ModelInputs.Expression.Tree
import ModelInputs.Value.Colour
import ModelInputs.Value.DateTime

/-!
# Values of a model

The values that inputs hold and that outputs return, and the ways of reading a value of an entity
again later: handles, chains of outputs, samplers and entity providers.

* `InputId`, `AttributeId`: the identity of an input and of an attribute;
* `Handle`, `CustomOutput`, `OutputChain`: where a value is read;
* `Sampler`, `Provider`: values computed each time they are asked for;
* `TypeRef`: the types of values, `TypeRef.isSubtype`;
* `Value`.
-/

namespace ModelInputs

/-! ## Reading values of entities -/

/-- An input, by its entity and its keyword there. -/
structure InputId where
  entity : EntityId
  keyword : String
deriving DecidableEq, Repr

/-- The identity of an attribute: an attribute that is defined anew is another one. -/
structure AttributeId where
  index : Nat
deriving DecidableEq, Repr

/-- A user's output: an expression of its entity, and the unit type that its numbers must have. -/
structure CustomOutput where
  entity : EntityId
  name : String
  expression : Expression
  unitType : UnitType

/-- Where a value of an entity is read: an output of its class, an attribute, a custom output, or
an input. -/
inductive Handle where
  | output (entity : EntityId) (name : String)
  | attribute (id : AttributeId)
  | custom (output : CustomOutput)
  | input (id : InputId)

/-- The name of a kind of handles. -/
def Handle.className : Handle → String
  | .output .. => "OutputHandle"
  | .attribute .. => "AttributeHandle"
  | .custom .. => "ExpressionHandle"
  | .input .. => "InputHandle"

/-- An output of an entity, an output of the entity that it yields, and so on. The handle is the
one that was found for the first output when the chain was made. -/
structure OutputChain where
  root : EntityId
  firstName : String
  firstHandle : Handle
  remaining : List String

/-! ## Types -/

/-- The types of values: general types, and classes by name. -/
inductive TypeRef where
  | object
  | float
  | int
  | bool
  | text
  | tuple
  | list
  | dict
  | datetime
  | colour
  | vector
  | keywordRef
  | outputChain
  | named (name : String)
deriving DecidableEq, Repr

namespace TypeRef

/-- The name of a type. -/
def name : TypeRef → String
  | object => "object"
  | float => "float"
  | int => "int"
  | bool => "bool"
  | text => "str"
  | tuple => "tuple"
  | list => "list"
  | dict => "dict"
  | datetime => "datetime"
  | colour => "Colour"
  | vector => "Vec3d"
  | keywordRef => "KeywordRef"
  | outputChain => "OutputChain"
  | named n => n

/-- The general type of a name, or else the class of that name. -/
def ofName (n : String) : TypeRef :=
  ([object, float, int, bool, text, tuple, list, dict, datetime].find? (·.name == n)).getD (named n)

/-- Every value of the first type is one of the second; `ancestors` are the classes that a class
extends, itself included. -/
def isSubtype (ancestors : String → List String) : TypeRef → TypeRef → Bool
  | _, object => true
  | bool, int => true
  | colour, tuple => true
  | vector, tuple => true
  | keywordRef, tuple => true
  | named a, named b => (ancestors a).contains b
  | a, b => a == b

/-- The type of numbers: truth values do not count as such. -/
def isNumeric : TypeRef → Bool
  | float => true
  | int => true
  | _ => false

end TypeRef

/-! ## Values -/

/-- A member of an enumeration. -/
structure EnumMember where
  enumeration : String
  name : String
  number : Int
deriving DecidableEq, Repr

/-- What yields a number each time it is asked for: always the same one, that of an expression, or
that at the end of a chain. -/
inductive Sampler where
  | constant (value : Float) (unitType : UnitType)
  | expression (exp : Expression) (this : Option EntityId) (unitType : UnitType)
  | chain (chain : OutputChain) (unitType : UnitType)

/-- The name of a kind of samplers. -/
def Sampler.className : Sampler → String
  | constant .. => "SampleConstant"
  | expression .. => "SampleExpression"
  | chain .. => "SampleOutput"

/-- The unit type of the numbers of a sampler. -/
def Sampler.unitType : Sampler → UnitType
  | constant _ u => u
  | expression _ _ u => u
  | chain _ u => u

/-- What yields an entity each time it is asked for: always the same one, or that of an expression,
which must be of a type. -/
inductive Provider where
  | constant (entity : EntityId)
  | expression (exp : Expression) (this : Option EntityId) (type : TypeRef)

/-- The name of a kind of providers. -/
def Provider.className : Provider → String
  | constant .. => "EntityProvConstant"
  | expression .. => "EntityProvExpression"

/-- A value of an input or of an output. -/
inductive Value where
  | none
  | bool (b : Bool)
  | int (n : Int)
  | float (x : Float)
  | text (s : String)
  | entity (e : EntityId)
  | date (d : DateTime)
  | member (m : EnumMember)
  | colour (c : Colour)
  | vector (v : Vector3)
  | keywordRef (entity : EntityId) (input : InputId)
  | input (id : InputId)
  | chain (c : OutputChain)
  | sampler (s : Sampler)
  | provider (p : Provider)
  | handle (h : Handle)
  | list (items : List Value)
  | tuple (items : List Value)
  | map (entries : List (Value × Value))
  | result (r : Result)
  | object
deriving Inhabited

namespace Value

/-- No value. -/
def isNone : Value → Bool
  | none => true
  | _ => false

/-- The entity of a value. -/
def entity? : Value → Option EntityId
  | entity e => some e
  | _ => Option.none

/-- The items of a list. -/
def items : Value → List Value
  | list vs => vs
  | tuple vs => vs
  | _ => []

/-- A list of entities. -/
def ofEntities (es : List EntityId) : Value :=
  list (es.map entity)

/-- An entity, if there is one. -/
def ofEntity? : Option EntityId → Value
  | some e => entity e
  | Option.none => none

/-- The value is that entity. -/
def isEntity (e : EntityId) : Value → Bool
  | entity e' => e' == e
  | _ => false

/-- The type of a value; `classOf` are the classes of entities. -/
def typeOf (classOf : EntityId → String) : Value → TypeRef
  | none => .named "NoneType"
  | bool _ => .bool
  | int _ => .int
  | float _ => .float
  | text _ => .text
  | entity e => .named (classOf e)
  | date _ => .datetime
  | member m => .named m.enumeration
  | colour _ => .colour
  | vector _ => .vector
  | keywordRef .. => .keywordRef
  | input _ => .named "Input"
  | chain _ => .outputChain
  | sampler s => .named s.className
  | provider p => .named p.className
  | handle h => .named h.className
  | list _ => .list
  | tuple _ => .tuple
  | map _ => .dict
  | result _ => .named "ExpResult"
  | object => .object

end Value

end ModelInputs
