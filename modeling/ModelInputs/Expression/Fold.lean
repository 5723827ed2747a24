import ModelInputs.Expression.Eval

/-!
# Constant folding

A node whose children are all constants can be replaced by its value. A node whose evaluation fails
with an error of an expression is kept, so that the error is reported when the expression is
evaluated and at its own position.

* `Expr.hasConstantChildren`, `Expr.fold`.
-/

namespace ModelInputs.Expr

/-- All children are constants; references are never made of constants. -/
def hasConstantChildren : Expr → Bool
  | binary _ left right _ => left.isLiteral && right.isLiteral
  | unary _ operand _ => operand.isLiteral
  | cond condition thenExpr elseExpr _ =>
    condition.isLiteral && thenExpr.isLiteral && elseExpr.isLiteral
  | call _ args _ => args.all isLiteral
  | array items _ => items.all isLiteral
  | map entries _ => entries.all fun entry => entry.2.isLiteral
  | _ => false

/-- The node, or its value if folding is asked for and possible. -/
def fold (wanted : Bool) (node : Expr) : Except Failure Expr :=
  if wanted && node.hasConstantChildren then
    match node.eval .empty with
    | .ok value => .ok (literal value node.pos)
    | .error (.expression _) => .ok node
    | .error failure => .error failure
  else .ok node

end ModelInputs.Expr
