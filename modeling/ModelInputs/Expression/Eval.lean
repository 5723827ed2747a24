import ModelInputs.Expression.Function

/-!
# Evaluation

An expression is evaluated in an environment that knows the entity it belongs to, finds entities by
name and reads their outputs. Both sides of an operator are evaluated, except where the left side
of a logical operator decides, and of a choice only the branch that is taken. An error has the
position of the node at which it occurred; an error inside an output has the position of the
reference to that output.

* `Env`, `Env.empty`;
* `Expr.eval`: the result of an expression;
* `evalAnd`, `evalOr`, `itemAt`: the rules for lazy operators and for indexing.
-/

namespace ModelInputs

/-- What an expression can refer to. -/
structure Env where
  /-- the entity that the expression belongs to -/
  this : Option EntityId
  /-- the entity of a name -/
  lookup : String → Option EntityId
  /-- the current name of an entity -/
  nameOf : EntityId → String
  /-- what an output of an entity yields, if the entity has that output -/
  read : EntityId → String → Option (Except Failure Result)
  /-- the unit type of the numbers that an output yields, if the entity has that output and as far
  as the unit type is known before it is read -/
  unitOf : EntityId → String → Option (Except Failure (Option UnitType))

/-- The environment without entities. -/
def Env.empty : Env where
  this := none
  lookup _ := none
  nameOf _ := ""
  read _ _ := none
  unitOf _ _ := none

/-- The value with failures of an operator placed at a position. -/
def placed {α : Type} (pos : Nat) (x : Except OpFault α) : Except Failure α :=
  x.mapError (OpFault.failureAt pos)

/-- A failure at a position. -/
def failAt {α : Type} (pos : Nat) (fault : ExprFault) : Except Failure α :=
  .error (.exprAt pos fault)

/-- The result with an error of an expression moved to a position, without the text that it had. -/
def relocated {α : Type} (pos : Nat) (x : Except Failure α) : Except Failure α :=
  x.mapError fun
    | .expression error => .exprAt pos error.fault
    | failure => failure

namespace Expr

/-- The entity that a reference means. -/
def evalEntity (env : Env) (name : Option String) (pos : Nat) : Except Failure Result :=
  match name with
  | none =>
    match env.this with
    | some e => .ok (.entity (some e))
    | none => failAt pos .thisUndefined
  | some name =>
    match env.lookup name with
    | some e => .ok (.entity (some e))
    | none => failAt pos (.entityNotFound name)

/-- An output of the entity that the target yields. -/
def evalOutput (env : Env) (target : Result) (name : String) (pos : Nat) :
    Except Failure Result :=
  match target with
  | .entity (some e) =>
    match env.read e name with
    | some result => relocated pos result
    | none => failAt pos (.outputNotFound name (env.nameOf e))
  | .entity none => failAt pos .nullEntity
  | target => failAt pos (.notAnEntity name target.kind)

/-- The item of an array at a place counted from one, or the entry of a map under a key. -/
def itemAt (nameOf : EntityId → String) (target index : Result) : Except ExprFault Result :=
  match target with
  | .array items =>
    match index with
    | .number x _ =>
      if Number.isWhole x then
        let i := Number.truncate x
        if 1 ≤ i then
          match items[(i - 1).toNat]? with
          | some r => .ok r
          | none => .error (.indexOutOfRange i items.length)
        else .error (.indexOutOfRange i items.length)
      else .error (.indexNotInteger (index.render nameOf))
    | _ => .error (.indexNotInteger (index.render nameOf))
  | .map entries =>
    match index with
    | .text key =>
      match entries.lookup key with
      | some r => .ok r
      | none => .error (.keyNotFound key)
    | _ => .error (.keyNotText (index.render nameOf))
  | _ => .error (.notIndexable target.kind)

/-- The conjunction, with the right side evaluated only if the left side is true. -/
def evalAnd (pos : Nat) (left : Result) (right : Unit → Except Failure Result) :
    Except Failure Result := do
  if ← placed pos left.truth then
    return .ofBool (← placed pos (← right ()).truth)
  else return .ofBool false

/-- The disjunction, with the right side evaluated only if the left side is false. -/
def evalOr (pos : Nat) (left : Result) (right : Unit → Except Failure Result) :
    Except Failure Result := do
  if ← placed pos left.truth then return .ofBool true
  else return .ofBool (← placed pos (← right ()).truth)

mutual

/-- The result of an expression. -/
def eval (env : Env) : Expr → Except Failure Result
  | literal value _ => .ok value
  | entity name pos => evalEntity env name pos
  | output target name pos => do
    evalOutput env (← eval env target) name pos
  | index target i pos => do
    let target ← eval env target
    let i ← eval env i
    (itemAt env.nameOf target i).mapError (.exprAt pos)
  | binary op left right pos => do
    let l ← eval env left
    match op with
    | .and => evalAnd pos l fun _ => eval env right
    | .or => evalOr pos l fun _ => eval env right
    | op => placed pos (op.apply l (← eval env right))
  | unary op operand pos => do
    placed pos (op.apply (← eval env operand))
  | cond condition thenExpr elseExpr pos => do
    if ← placed pos (← eval env condition).truth then eval env thenExpr else eval env elseExpr
  | call function args pos => do
    placed pos (function.apply (← evalItems env args))
  | array items _ => do
    return .array (← evalItems env items)
  | map entries _ => do
    return .map (← evalEntries env entries)

/-- The results of some expressions, from left to right. -/
def evalItems (env : Env) : List Expr → Except Failure (List Result)
  | [] => .ok []
  | item :: items => do
    let first ← eval env item
    return first :: (← evalItems env items)

/-- The results of the entries of a map, from left to right. -/
def evalEntries (env : Env) : List (String × Expr) → Except Failure (List (String × Result))
  | [] => .ok []
  | (key, value) :: entries => do
    let first ← eval env value
    return (key, first) :: (← evalEntries env entries)

end

end Expr

end ModelInputs
