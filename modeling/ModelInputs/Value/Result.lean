import ModelInputs.Error.Failure
import ModelInputs.Value.Basic

/-!
# Values as results and results as values

A value becomes a result of an expression if it has a form there: numbers get the unit type of the
output that they come from, truth values become one and zero, dates and members of enumerations
become texts, and lists and maps are converted item by item. Other values can not be used.

* `numberOfInt?`: a whole number as floating point number;
* `Value.toResult`, `Result.toValue`;
* **`Value.toResult_toValue_text`**: texts come back as they are.
-/

namespace ModelInputs

/-- The floating point number nearest to an integer, if there is one. -/
def numberOfInt? (n : Int) : Except Failure Float :=
  let x := Float.ofInt n
  if x.isFinite then .ok x else .error .integerTooLarge

/-- The entries with their keys apart: a key that comes again keeps its place and takes the later
value. -/
def distinctKeys {α : Type} (entries : List (String × α)) : List (String × α) :=
  entries.foldl
    (fun kept (key, a) =>
      if kept.any (·.1 == key) then kept.map fun e => if e.1 == key then (key, a) else e
      else kept ++ [(key, a)])
    []

/-- How entities and inputs are shown. -/
structure Names where
  /-- the current name of an entity -/
  entity : EntityId → String
  /-- an entity with its class -/
  describe : EntityId → String
  /-- an input with its kind -/
  describeInput : InputId → String
  /-- the name of the kind of an input -/
  inputKind : InputId → String
  /-- a handle with its entity and name -/
  describeHandle : Handle → String

namespace Value

/-- The text that a key of a map becomes. -/
def keyText (names : Names) : Value → String
  | text s => s
  | int n => toString n
  | entity e => names.describe e
  | bool b => if b then "True" else "False"
  | float x => Number.fullText x
  | none => "None"
  | _ => ""

/-- A value of that type has no form in expressions. -/
def notExpressible {α : Type} (type : String) : Except Failure α :=
  .error (.exprAt 0 (.notExpressible type))

mutual

/-- The value as a result whose numbers have the unit type. -/
def toResult (names : Names) (unit : UnitType) : Value → Except Failure Result
  | result r => .ok r
  | none => .ok .null
  | entity e => .ok (.entity (some e))
  | bool b => .ok (.ofBool b)
  | int n => do
    return .number (← numberOfInt? n) unit
  | float x => .ok (.number x unit)
  | text s => .ok (.text s)
  | date d => .ok (.text d.isoText)
  | member m => .ok (.text m.name)
  | colour c =>
    .ok (.array ([c.red, c.green, c.blue, c.alpha].map fun x => .number x unit))
  | vector v => .ok (.array (v.toList.map fun x => .number x unit))
  | keywordRef _ id => notExpressible (names.inputKind id)
  | input id => notExpressible (names.inputKind id)
  | list items => do
    return .array (← toResults names unit items)
  | tuple items => do
    return .array (← toResults names unit items)
  | map entries => do
    return .map (distinctKeys (← toEntries names unit entries))
  | chain _ => notExpressible "OutputChain"
  | sampler s => notExpressible s.className
  | provider p => notExpressible p.className
  | handle h => notExpressible h.className
  | object => notExpressible "object"

/-- The items of a list as results. -/
def toResults (names : Names) (unit : UnitType) : List Value → Except Failure (List Result)
  | [] => .ok []
  | v :: vs => do
    let r ← toResult names unit v
    return r :: (← toResults names unit vs)

/-- The entries of a map as results. -/
def toEntries (names : Names) (unit : UnitType) :
    List (Value × Value) → Except Failure (List (String × Result))
  | [] => .ok []
  | (key, v) :: entries => do
    let r ← toResult names unit v
    return (keyText names key, r) :: (← toEntries names unit entries)

end

end Value

namespace Result

mutual

/-- The result as a plain value, without its unit type. -/
def toValue : Result → Value
  | number x _ => .float x
  | text s => .text s
  | entity e => .ofEntity? e
  | array items => .tuple (toValues items)
  | map entries => .map (toEntryValues entries)

/-- The items of an array as values. -/
def toValues : List Result → List Value
  | [] => []
  | r :: rs => toValue r :: toValues rs

/-- The entries of a map as values. -/
def toEntryValues : List (String × Result) → List (Value × Value)
  | [] => []
  | (key, r) :: entries => (.text key, toValue r) :: toEntryValues entries

end

end Result

theorem Value.toResult_toValue_text (names : Names) (u : UnitType) (s : String) :
    Value.toResult names u (Result.text s).toValue = .ok (.text s) := by
  simp [Result.toValue, Value.toResult]

end ModelInputs
