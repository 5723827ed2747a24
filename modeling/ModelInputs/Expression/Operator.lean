import ModelInputs.Error.Failure
import ModelInputs.Expression.Tree
import ModelInputs.Number.Arithmetic
import ModelInputs.Unit.Rules

/-!
# Operators

Every operator checks the kinds of its operands first and then their unit types. Sums, remainders
and comparisons need equal unit types; products and quotients follow the rules for unit types;
powers are for numbers without a unit. Texts can be joined and compared, entities compared for
identity.

* `OpFault`: an operator refuses its operands, or has no value on them;
* `truth`: the truth value of a condition;
* `UnaryOp.apply`, `BinaryOp.apply`: the operators on results.
-/

namespace ModelInputs

/-- Why an operator or a function has no result. -/
inductive OpFault where
  | refused (fault : ExprFault)
  /-- no value on these numbers -/
  | undefined

/-- The failure at the position of the operator. -/
def OpFault.failureAt (pos : Nat) : OpFault → Failure
  | refused fault => .exprAt pos fault
  | undefined => .mathDomain

/-- The operands are refused. -/
def refuse {α : Type} (fault : ExprFault) : Except OpFault α :=
  .error (.refused fault)

namespace Result

/-- The number of a result, which is asked for by `user`. -/
def number? (user : String) : Result → Except OpFault (Float × UnitType)
  | number x u => .ok (x, u)
  | r => refuse (.numberRequired user r.kind)

/-- The truth value of a condition: any number but zero is true. -/
def truth (r : Result) : Except OpFault Bool := do
  let (x, _) ← r.number? "A condition"
  return x != 0.0

theorem truth_ofBool (b : Bool) : (ofBool b).truth = .ok b := by
  cases b <;> rfl

end Result

/-- Two numbers, of which an operator asks both to be numbers. -/
def twoNumbers (op : BinaryOp) :
    Result → Result → Except OpFault ((Float × UnitType) × (Float × UnitType))
  | .number x u, .number y v => .ok ((x, u), (y, v))
  | a, b => refuse (.operandKinds op.symbol a.kind b.kind)

/-- Both unit types are the same. -/
def sameUnit (u v : UnitType) : Except OpFault Unit :=
  if u = v then .ok () else refuse (.unitMismatch u v)

/-- A number whose unit type is known only if the operands fit together. -/
def numberOf (x : Float) (u v : UnitType) : Option UnitType → Except OpFault Result
  | some w => .ok (.number x w)
  | none => refuse (.unitMismatch u v)

/-! ## Operators with one operand -/

/-- The sign is kept or turned, or the truth value turned. -/
def UnaryOp.apply (op : UnaryOp) (operand : Result) : Except OpFault Result := do
  let (x, u) ← operand.number? ("Operator '" ++ op.symbol ++ "'")
  match op with
  | neg => return .number (-x) u
  | pos => return operand
  | not => return .ofBool (x == 0.0)

/-! ## Operators with two operands -/

namespace BinaryOp

/-- Equality of results of one kind. -/
def equal (left right : Result) : Except OpFault Bool :=
  match left, right with
  | .number x u, .number y v => do
    sameUnit u v
    return x == y
  | left, right =>
    if left.kind = right.kind then .ok (left.same right)
    else refuse (.notComparable left.kind right.kind)

/-- The order of numbers that a comparison asks for. -/
def compareNumbers : BinaryOp → Float → Float → Bool
  | lt, x, y => x < y
  | le, x, y => x ≤ y
  | gt, x, y => x > y
  | ge, x, y => x ≥ y
  | _, _, _ => false

/-- The order of texts, character by character, that a comparison asks for. -/
def compareTexts : BinaryOp → String → String → Bool
  | lt, s, t => s < t
  | le, s, t => s ≤ t
  | gt, s, t => s > t
  | ge, s, t => s ≥ t
  | _, _, _ => false

/-- A comparison of two texts or of two numbers. -/
def comparison (op : BinaryOp) (left right : Result) : Except OpFault Result :=
  match left, right with
  | .text s, .text t => .ok (.ofBool (op.compareTexts s t))
  | left, right => do
    let ((x, u), (y, v)) ← twoNumbers op left right
    sameUnit u v
    return .ofBool (op.compareNumbers x y)

/-- The sum of numbers, or texts joined. -/
def sum (left right : Result) : Except OpFault Result :=
  match left, right with
  | .text s, .text t => .ok (.text (s ++ t))
  | left, right => do
    let ((x, u), (y, v)) ← twoNumbers add left right
    sameUnit u v
    return .number (x + y) u

/-- The difference of numbers. -/
def difference (left right : Result) : Except OpFault Result := do
  let ((x, u), (y, v)) ← twoNumbers sub left right
  sameUnit u v
  return .number (x - y) u

/-- The product of numbers. -/
def product (left right : Result) : Except OpFault Result := do
  let ((x, u), (y, v)) ← twoNumbers mul left right
  numberOf (x * y) u v (UnitType.mul? u v)

/-- The quotient of numbers. -/
def quotient (left right : Result) : Except OpFault Result := do
  let ((x, u), (y, v)) ← twoNumbers div left right
  numberOf (Number.quotient x y) u v (UnitType.div? u v)

/-- The remainder of numbers; no number for a division by zero. -/
def remainder (left right : Result) : Except OpFault Result := do
  let ((x, u), (y, v)) ← twoNumbers mod left right
  sameUnit u v
  if y == 0.0 then return .number Number.notANumber u
  else
    match Number.remainder? x y with
    | some r => return .number r u
    | none => .error .undefined

/-- The power of numbers without a unit. -/
def power (left right : Result) : Except OpFault Result := do
  let ((x, u), (y, v)) ← twoNumbers pow left right
  if u = .dimensionless ∧ v = .dimensionless then return .plain (Number.power x y)
  else refuse (.powerUnits u v)

/-- An operator on the results of both its operands. The logical operators look at their right
operand only if they need it, so they are not among these and refuse. -/
def apply (op : BinaryOp) (left right : Result) : Except OpFault Result :=
  match op with
  | add => sum left right
  | sub => difference left right
  | mul => product left right
  | div => quotient left right
  | mod => remainder left right
  | pow => power left right
  | eq => (equal left right).map .ofBool
  | ne => (equal left right).map fun b => .ofBool !b
  | lt | le | gt | ge => comparison op left right
  | and | or => refuse (.operandKinds op.symbol left.kind right.kind)

end BinaryOp

end ModelInputs
