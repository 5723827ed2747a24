import ModelInputs.Expression.Operator
import ModelInputs.Unit.Table

/-!
# Built-in functions

Functions check their arguments as operators do. The selecting functions take numbers of one unit
type, or one array of them; rounding keeps the unit type; the other functions of real numbers take
numbers without a unit, or angles.

* `sameUnitNumbers`: the numbers of a selecting function;
* `best`, `bestIndex`: the first number that no later one beats, and its place;
* `Function.apply`: the functions on results;
* `Function.unitRule`: the unit type of a call, as far as those of the arguments tell it.
-/

namespace ModelInputs

/-! ## Selecting functions -/

/-- The numbers of the arguments, all of the unit type of the first one. -/
def numbersOf (f : Function) (u : UnitType) : List Result → Except OpFault (List Float)
  | [] => .ok []
  | r :: rs => do
    let (x, v) ← r.number? ("Function '" ++ f.name ++ "'")
    sameUnit u v
    return x :: (← numbersOf f u rs)

/-- The unit type and the numbers of the arguments, or of the array that is the only argument. -/
def sameUnitNumbers (f : Function) (args : List Result) :
    Except OpFault (UnitType × Float × List Float) := do
  let args := match args with | [.array items] => items | args => args
  match args with
  | [] => refuse (.emptyArray f.name)
  | r :: rs =>
    let (x, u) ← r.number? ("Function '" ++ f.name ++ "'")
    return (u, x, ← numbersOf f u rs)

/-- The first number that no later one beats. -/
def best (beats : Float → Float → Bool) (x : Float) (xs : List Float) : Float :=
  xs.foldl (fun x y => if beats y x then y else x) x

/-- The place of the first number that no later one beats; `place` is that of `x`, and `next` that
of the first of `xs`. -/
def bestIndex (beats : Float → Float → Bool) (x : Float) (place next : Nat) : List Float → Nat
  | [] => place
  | y :: ys =>
    if beats y x then bestIndex beats y next (next + 1) ys
    else bestIndex beats x place (next + 1) ys

/-- A greater number. -/
def greater (x y : Float) : Bool :=
  x > y

/-- A smaller number. -/
def smaller (x y : Float) : Bool :=
  x < y

/-- The best number of the arguments. -/
def selectBest (f : Function) (beats : Float → Float → Bool) (args : List Result) :
    Except OpFault Result := do
  let (u, x, xs) ← sameUnitNumbers f args
  return .number (best beats x xs) u

/-- The place of the best number of the arguments, counted from one. -/
def selectIndex (f : Function) (beats : Float → Float → Bool) (args : List Result) :
    Except OpFault Result := do
  let (_, x, xs) ← sameUnitNumbers f args
  return .plain (Float.ofNat (bestIndex beats x 0 1 xs + 1))

/-! ## Functions of numbers -/

/-- The function of a number, in its unit type. -/
def unitPreserving (f : Function) (g : Float → Float) (r : Result) : Except OpFault Result := do
  let (x, u) ← r.number? ("Function '" ++ f.name ++ "'")
  return .number (g x) u

/-- The function of a number without a unit, with the unit type of its values. -/
def ofDimensionless (f : Function) (g : Float → Float) (unit : UnitType) (r : Result) :
    Except OpFault Result := do
  let (x, u) ← r.number? ("Function '" ++ f.name ++ "'")
  if u = .dimensionless then return .number (g x) unit
  else refuse (.dimensionlessRequired f.name u)

/-- The function of an angle, or of a number without a unit. -/
def ofAngle (f : Function) (g : Float → Float) (r : Result) : Except OpFault Result := do
  let (x, u) ← r.number? ("Function '" ++ f.name ++ "'")
  if u = .dimensionless ∨ u = .angle then
    match Number.onFinite? g x with
    | some y => return .plain y
    | none => .error .undefined
  else refuse (.angleRequired f.name u)

/-- The angle of the point with these coordinates. -/
def arcTangent (f : Function) (y x : Result) : Except OpFault Result := do
  let (y, u) ← y.number? ("Function '" ++ f.name ++ "'")
  let (x, v) ← x.number? ("Function '" ++ f.name ++ "'")
  sameUnit u v
  return .number (Float.atan2 y x) .angle

/-! ## Other functions -/

/-- The number of items, entries or characters. -/
def sizeOfResult : Result → Except OpFault Result
  | .array items => .ok (.plain (Float.ofNat items.length))
  | .map entries => .ok (.plain (Float.ofNat entries.length))
  | .text s => .ok (.plain (Float.ofNat s.length))
  | r => refuse (.noSize r.kind)

/-- The choice at the place that the index tells, counted from one. -/
def chooseAt (index : Result) (choices : List Result) : Except OpFault Result := do
  let (x, u) ← index.number? "Function 'choose'"
  let refused : Except OpFault Result :=
    refuse (.noSuchChoice choices.length (Result.renderNumber x u))
  if Number.isWhole x && 1.0 ≤ x then
    match choices[(Number.truncate x).toNat - 1]? with
    | some r => return r
    | none => refused
  else refused

namespace Function

/-- The value of a function of one argument. -/
def applyOne (f : Function) (arg : Result) : Except OpFault Result :=
  match f with
  | abs => unitPreserving f Float.abs arg
  | ceil => unitPreserving f Number.roundUp arg
  | floor => unitPreserving f Number.roundDown arg
  | signum => do
    let (x, _) ← arg.number? "Function 'signum'"
    return .plain (Number.sign x)
  | sqrt => ofDimensionless f (Number.whereDefined (· ≥ 0.0) Float.sqrt) .dimensionless arg
  | exp => ofDimensionless f Float.exp .dimensionless arg
  | ln => ofDimensionless f (Number.whereDefined (· > 0.0) Float.log) .dimensionless arg
  | log => ofDimensionless f (Number.whereDefined (· > 0.0) Float.log10) .dimensionless arg
  | sin => ofAngle f Float.sin arg
  | cos => ofAngle f Float.cos arg
  | tan => ofAngle f Float.tan arg
  | asin => ofDimensionless f (Number.whereDefined (·.abs ≤ 1.0) Float.asin) .angle arg
  | acos => ofDimensionless f (Number.whereDefined (·.abs ≤ 1.0) Float.acos) .angle arg
  | atan => ofDimensionless f Float.atan .angle arg
  | size => sizeOfResult arg
  | notNull => .ok (.ofBool !arg.isNull)
  | _ => refuse (.tooFewArguments f.name f.minArgs 1)

/-- The value of a function. -/
def apply (f : Function) (args : List Result) : Except OpFault Result :=
  match f, args with
  | max, args => selectBest max greater args
  | min, args => selectBest min smaller args
  | indexOfMax, args => selectIndex indexOfMax greater args
  | indexOfMin, args => selectIndex indexOfMin smaller args
  | e, [] => .ok (.plain 2.718281828459045)
  | pi, [] => .ok (.plain PhysicalUnit.pi)
  | choose, index :: choices => chooseAt index choices
  | atan2, [y, x] => arcTangent atan2 y x
  | f, [arg] => f.applyOne arg
  | f, args => refuse (.tooFewArguments f.name f.minArgs args.length)

/-- The unit type of a call, from the unit types of the arguments as far as they are known. -/
def unitRule (f : Function) (units : List (Option UnitType)) : Option UnitType :=
  match f with
  | max | min | abs | ceil | floor => units.head?.join
  | asin | acos | atan | atan2 => some .angle
  | choose => none
  | _ => some .dimensionless

end Function

end ModelInputs
