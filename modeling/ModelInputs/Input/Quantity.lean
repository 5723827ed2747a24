import ModelInputs.Error.Warning
import ModelInputs.Input.Kind
import ModelInputs.Model.Settings
import ModelInputs.Text.Split
import ModelInputs.Unit.Table

/-!
# Truth values, integers and quantities

How single arguments are read: truth values, integers and numbers within a range, and quantities,
whose unit stands in brackets behind the number or as a last argument for all numbers. Numbers are
kept in SI units.

* `readBoolean?`, `readInteger?`, `readNumber?`;
* `splitUnit`: a number and the unit behind it;
* `readUnit?`, `readUnitType?`;
* `readQuantities`, `readVector`: several numbers with their units.
-/

namespace ModelInputs

/-- Fails with a common message. -/
def refuseCommon {α : Type} (template : Template) (args : List String)
    (origin : Option Origin := none) : Except InputError α :=
  .error (.common template args origin)

/-! ## Single tokens -/

/-- A truth value, written out or as its first letter, in any case. -/
def readBoolean? (token : String) : Except InputError Bool :=
  let upper := Text.upper token
  if upper == "TRUE" || upper == "T" then .ok true
  else if upper == "FALSE" || upper == "F" then .ok false
  else refuseCommon .boolean [token]

/-- An integer of a range. -/
def readInteger? (token : String) (range : IntRange) : Except InputError Int :=
  match Number.readInt? token with
  | some n => (range.check n).map fun _ => n
  | none => refuseCommon .integer [token]

/-- A number; infinities are written out. -/
def readPlainNumber? (token : String) : Except InputError Float :=
  if token == "Infinity" then .ok Number.infinity
  else if token == "-Infinity" then .ok (-Number.infinity)
  else
    match Number.readFloat? token with
    | some x => if x.isFinite then .ok x else refuseCommon .number [token]
    | none => refuseCommon .number [token]

/-- A number of a unit, which in SI units lies in the range. -/
def readNumber? (token : String) (range : NumberRange) (factor : Float := 1.0) :
    Except InputError Float := do
  let x ← readPlainNumber? token
  range.check (x * factor)
  return x * factor

/-- The text is a number. -/
def isNumberText (text : String) : Bool :=
  (Number.readFloat? text).isSome

/-! ## Units -/

/-- A text without brackets, and not empty. -/
def isUnbracketed (cs : List Char) : Bool :=
  !cs.isEmpty && cs.all fun c => c != '[' && c != ']'

/-- The text without a line break at its end. -/
def dropLineBreak (cs : List Char) : List Char :=
  if cs.getLast? == some '\n' then cs.dropLast else cs

/-- A number and the name of the unit that stands in brackets behind it. -/
def splitUnit (token : String) : String × Option String :=
  let body := dropLineBreak token.toList
  match Text.cut? '[' body with
  | some (number, rest) =>
    if rest.getLast? == some ']' && isUnbracketed number && isUnbracketed rest.dropLast then
      (String.ofList number, some (String.ofList rest.dropLast))
    else (token, none)
  | none => (token, none)

/-- The unit of that name, which measures the unit type. -/
def readUnit? (name : String) (unit : UnitType) : Except InputError PhysicalUnit :=
  match PhysicalUnit.find? name with
  | none => refuseCommon .unitNotFound [name]
  | some u => if u.unitType = unit then .ok u else refuseCommon .units [unit.name, u.unitType.name]

/-- The unit type of that name. -/
def readUnitType? (name : String) : Except InputError UnitType :=
  match UnitType.find? name with
  | some u => .ok u
  | none => .error ⟨.unitTypeNotFound name, none⟩

/-- The SI unit in place of one that is missing, where that is allowed. -/
def missingUnitFactor (settings : Settings) (text : String) (unit : UnitType) : Logged Float :=
  if settings.allowMissingUnits then do
    Logged.warn (.missingUnit text unit)
    return 1.0
  else Logged.refuse (.common .noUnit [text, unit.name])

/-! ## Quantities -/

/-- The last argument as the unit of all numbers, and the numbers before it. -/
def sharedUnit (args : List String) (unit : UnitType) :
    Except InputError (List String × Option PhysicalUnit) :=
  match args.getLast? with
  | none => .ok (args, none)
  | some last =>
    if (PhysicalUnit.find? last).isSome then do
      return (args.dropLast, some (← readUnit? last unit))
    else .ok (args, none)

/-- The worth of the unit of a number in SI units: of that behind it, or of the one of all numbers. -/
def factorOf (settings : Settings) (text : String) (unit : UnitType)
    (shared : Option PhysicalUnit) (suffix : Option String) : Logged Float :=
  match suffix, shared with
  | some name, _ => Logged.ofInput ((readUnit? name unit).map (·.factor))
  | none, some u => pure u.factor
  | none, none => if unit.hasUnit then missingUnitFactor settings text unit else pure 1.0

/-- One number with its unit. -/
def readQuantity (settings : Settings) (text : String) (unit : UnitType) (range : NumberRange)
    (shared : Option PhysicalUnit) (token : String) : Logged Float := do
  let (number, suffix) := splitUnit token
  let factor ← factorOf settings text unit shared suffix
  Logged.ofInput (readNumber? number range factor)

/-- Numbers with their units. -/
def readQuantities (settings : Settings) (a : Arguments) (unit : UnitType) (range : NumberRange) :
    Logged (List Float) := do
  let (tokens, shared) ← Logged.ofInput (sharedUnit a.args unit)
  tokens.mapM (readQuantity settings a.text unit range shared)

/-- A vector of up to three numbers; the others are zero. -/
def readVector (settings : Settings) (a : Arguments) (unit : UnitType) (range : NumberRange) :
    Logged Vector3 := do
  Logged.ofInput (a.checkCountRange 1 (some 4))
  match ← readQuantities settings a unit range with
  | [x] => return ⟨x, 0.0, 0.0⟩
  | [x, y] => return ⟨x, y, 0.0⟩
  | [x, y, z] => return ⟨x, y, z⟩
  | _ => Logged.ofInput (refuseCommon .count ["1, 2 or 3", a.text] a.origin)

end ModelInputs
