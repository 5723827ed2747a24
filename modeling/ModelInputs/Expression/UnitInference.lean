import ModelInputs.Expression.Eval

/-!
# Unit types before evaluation

An expression is checked without being evaluated: the entities it names must exist, in branches
that are never taken too, and where the unit types of both sides of an operation are known they
must fit. The check finds the unit type of the result as far as it can be known.

* `Expr.inferUnit`: the unit type of an expression, if it is known;
* `Expression.inferUnit`, `Expression.check`: the check of an expression with its text;
* `combineUnits`: the rule for the operators.
-/

namespace ModelInputs

namespace BinaryOp

/-- A comparison of two values. -/
def isComparison : BinaryOp → Bool
  | eq | ne | lt | le | gt | ge => true
  | _ => false

/-- An operator whose operands must have one unit type. -/
def needsSameUnit : BinaryOp → Bool
  | add | sub | mod => true
  | op => op.isComparison

end BinaryOp

namespace Expr

/-- A unit type that two known ones give, or nothing while one of them is unknown. -/
def combineUnits (rule : UnitType → UnitType → Option UnitType) (pos : Nat)
    (left right : Option UnitType) : Except Failure (Option UnitType) :=
  match left, right with
  | some u, some v =>
    match rule u v with
    | some w => .ok (some w)
    | none => failAt pos (.unitMismatch u v)
  | _, _ => .ok none

/-- Both unit types are the same, if both are known. -/
def checkSameUnit (pos : Nat) (left right : Option UnitType) : Except Failure Unit :=
  match left, right with
  | some u, some v => if u = v then .ok () else failAt pos (.unitMismatch u v)
  | _, _ => .ok ()

/-- The unit type of an operation. -/
def inferBinary (op : BinaryOp) (pos : Nat) (left right : Option UnitType) :
    Except Failure (Option UnitType) := do
  if op.needsSameUnit then checkSameUnit pos left right
  match op with
  | .add | .sub | .mod => return left <|> right
  | .mul => combineUnits UnitType.mul? pos left right
  | .div => combineUnits UnitType.div? pos left right
  | _ => return some .dimensionless

/-- The entity that a reference means. -/
def resolve (env : Env) (name : Option String) (pos : Nat) : Except Failure EntityId :=
  match name with
  | none =>
    match env.this with
    | some e => .ok e
    | none => failAt pos .thisUndefined
  | some name =>
    match env.lookup name with
    | some e => .ok e
    | none => failAt pos (.entityNotFound name)

/-- The unit type of an output of an entity; a missing output is an error only for a strict check. -/
def inferOutput (env : Env) (strict : Bool) (e : EntityId) (name : String) (pos : Nat) :
    Except Failure (Option UnitType) :=
  match env.unitOf e name with
  | some unit => unit
  | none => if strict then failAt pos (.outputNotFound name (env.nameOf e)) else .ok none

mutual

/-- The unit type of the numbers that an expression yields, if it can be known. -/
def inferUnit (env : Env) (strict : Bool) : Expr → Except Failure (Option UnitType)
  | literal (.number _ u) _ => .ok (some u)
  | literal _ _ => .ok none
  | entity name pos => do
    let _ ← resolve env name pos
    return none
  | output (entity ent entPos) name pos => do
    inferOutput env strict (← resolve env ent entPos) name pos
  | output target _ _ => do
    let _ ← inferUnit env strict target
    return none
  | index target i _ => do
    let _ ← inferUnit env strict target
    let _ ← inferUnit env strict i
    return none
  | unary op operand _ => do
    let u ← inferUnit env strict operand
    return if op = .not then some .dimensionless else u
  | binary op left right pos => do
    let u ← inferUnit env strict left
    let v ← inferUnit env strict right
    inferBinary op pos u v
  | cond condition thenExpr elseExpr pos => do
    let _ ← inferUnit env strict condition
    let u ← inferUnit env strict thenExpr
    let v ← inferUnit env strict elseExpr
    checkSameUnit pos u v
    return u <|> v
  | call function args _ => do
    return function.unitRule (← inferUnits env strict args)
  | array items _ => do
    let _ ← inferUnits env strict items
    return none
  | map entries _ => do
    inferEntries env strict entries
    return none

/-- The unit types of some expressions. -/
def inferUnits (env : Env) (strict : Bool) : List Expr → Except Failure (List (Option UnitType))
  | [] => .ok []
  | item :: items => do
    let u ← inferUnit env strict item
    return u :: (← inferUnits env strict items)

/-- The check of the entries of a map. -/
def inferEntries (env : Env) (strict : Bool) : List (String × Expr) → Except Failure Unit
  | [] => .ok ()
  | (_, value) :: entries => do
    let _ ← inferUnit env strict value
    inferEntries env strict entries

end

end Expr

namespace Expression

/-- The unit type of the numbers that an expression yields, if it can be known. -/
def inferUnit (exp : Expression) (env : Env) (strict : Bool) : Except Failure (Option UnitType) :=
  anchored exp.source (exp.root.inferUnit env strict)

/-- The references of an expression exist, its unit types fit together, and its own unit type is
the expected one if both are known. -/
def check (exp : Expression) (env : Env) (expected : Option UnitType) (strict : Bool) :
    Except Failure Unit := do
  match expected, ← exp.inferUnit env strict with
  | some u, some v =>
    if u = v then return ()
    else throw (.expression ⟨.expectedUnit u v, 0, some exp.source⟩)
  | _, _ => return ()

end Expression

end ModelInputs
