import ModelInputs.Number.Text
import ModelInputs.Unit.Basic

/-!
# Results of expressions

An expression yields a number with a unit type, a text, an entity or none, an array of results or a
map from texts to results.

* `EntityId`: entities are told apart by identity, never by name;
* `Result`, `Result.kind`, `Result.unitType`;
* `Result.same`: equality of results, with numbers compared as numbers;
* `Result.render`: a result in the syntax of expressions.
-/

namespace ModelInputs

/-- The identity of an entity. -/
structure EntityId where
  index : Nat
deriving DecidableEq, Repr, Inhabited

/-- The kinds of results. -/
inductive ResultKind where
  | number
  | text
  | entity
  | array
  | map
deriving DecidableEq, Repr

/-- The name of a kind in messages. -/
def ResultKind.name : ResultKind → String
  | number => "NUMBER"
  | text => "STRING"
  | entity => "ENTITY"
  | array => "ARRAY"
  | map => "MAP"

/-- What an expression yields. -/
inductive Result where
  | number (value : Float) (unitType : UnitType)
  | text (value : String)
  | entity (value : Option EntityId)
  | array (items : List Result)
  | map (entries : List (String × Result))
deriving Inhabited

namespace Result

/-- A number without a unit. -/
def plain (x : Float) : Result :=
  number x .dimensionless

/-- The absent entity. -/
def null : Result :=
  entity none

/-- One for true and zero for false. -/
def ofBool (b : Bool) : Result :=
  plain (if b then 1.0 else 0.0)

/-- The kind of a result. -/
def kind : Result → ResultKind
  | number .. => .number
  | text .. => .text
  | entity .. => .entity
  | array .. => .array
  | map .. => .map

/-- The unit type of a number; other results have none. -/
def unitType : Result → UnitType
  | number _ u => u
  | _ => .dimensionless

/-- The absent entity, and no other result. -/
def isNull : Result → Bool
  | entity none => true
  | _ => false

/-! ## Equality -/

mutual

/-- Results of one kind with equal contents; a negative zero equals zero, and the order of a map's
entries does not matter. -/
def same : Result → Result → Bool
  | number x u, number y v => x == y && u == v
  | text s, text t => s == t
  | entity a, entity b => a == b
  | array as, array bs => sameItems as bs
  | map as, map bs => as.length == bs.length && sameEntries as bs
  | _, _ => false

/-- Arrays of equal items. -/
def sameItems : List Result → List Result → Bool
  | [], [] => true
  | a :: as, b :: bs => same a b && sameItems as bs
  | _, _ => false

/-- Every entry has an equal one under its key. -/
def sameEntries : List (String × Result) → List (String × Result) → Bool
  | [], _ => true
  | (key, a) :: as, bs =>
    (match bs.lookup key with
    | some b => same a b
    | none => false) && sameEntries as bs

end

/-! ## Text -/

/-- A number with the SI unit of its type in brackets. -/
def renderNumber (x : Float) (u : UnitType) : String :=
  if u.hasUnit then Number.plainText x ++ "[" ++ u.siUnit ++ "]" else Number.plainText x

mutual

/-- A result as an expression; `nameOf` gives the names of entities. -/
def render (nameOf : EntityId → String) : Result → String
  | number x u => renderNumber x u
  | text s => "\"" ++ s ++ "\""
  | entity none => "null"
  | entity (some e) => "[" ++ nameOf e ++ "]"
  | array items => "\x7b" ++ ", ".intercalate (renderItems nameOf items) ++ "\x7d"
  | map entries => "\x7b" ++ ", ".intercalate (renderEntries nameOf entries) ++ "\x7d"

/-- The items of an array as expressions. -/
def renderItems (nameOf : EntityId → String) : List Result → List String
  | [] => []
  | r :: rs => render nameOf r :: renderItems nameOf rs

/-- The entries of a map, a quoted key and an expression each. -/
def renderEntries (nameOf : EntityId → String) : List (String × Result) → List String
  | [] => []
  | (key, r) :: rs => ("\"" ++ key ++ "\": " ++ render nameOf r) :: renderEntries nameOf rs

end

end Result

end ModelInputs
