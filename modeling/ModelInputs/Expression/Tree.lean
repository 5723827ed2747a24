import ModelInputs.Expression.Result

/-!
# Expressions as trees

An expression is a constant, a reference to an entity, an output of what a reference yields, an
item of an array or map, an operation, a choice between two expressions, a call of a built-in
function, or an array or map of expressions. Every node keeps the position of the token that it
comes from.

* `BinaryOp`, `UnaryOp`, `Function`: the operations and their spelling;
* `Expr`, `Expr.pos`, `Expr.render`: the tree and its text.
-/

namespace ModelInputs

/-! ## Operations -/

/-- The operators between two expressions. -/
inductive BinaryOp where
  | add
  | sub
  | mul
  | div
  | mod
  | pow
  | eq
  | ne
  | lt
  | gt
  | le
  | ge
  | and
  | or
deriving DecidableEq, Repr

/-- The spelling of an operator. -/
def BinaryOp.symbol : BinaryOp → String
  | add => "+"
  | sub => "-"
  | mul => "*"
  | div => "/"
  | mod => "%"
  | pow => "^"
  | eq => "=="
  | ne => "!="
  | lt => "<"
  | gt => ">"
  | le => "<="
  | ge => ">="
  | and => "&&"
  | or => "||"

/-- The operators. -/
def BinaryOp.all : List BinaryOp :=
  [add, sub, mul, div, mod, pow, eq, ne, lt, gt, le, ge, and, or]

/-- The operator of that spelling. -/
def BinaryOp.ofSymbol? (s : String) : Option BinaryOp :=
  all.find? (·.symbol == s)

theorem BinaryOp.ofSymbol?_symbol (op : BinaryOp) : ofSymbol? op.symbol = some op := by
  cases op <;> rfl

/-- The operators in front of an expression. -/
inductive UnaryOp where
  | neg
  | pos
  | not
deriving DecidableEq, Repr

/-- The spelling of an operator. -/
def UnaryOp.symbol : UnaryOp → String
  | neg => "-"
  | pos => "+"
  | not => "!"

/-- The operator of that spelling. -/
def UnaryOp.ofSymbol? (s : String) : Option UnaryOp :=
  [neg, pos, not].find? (·.symbol == s)

theorem UnaryOp.ofSymbol?_symbol (op : UnaryOp) : ofSymbol? op.symbol = some op := by
  cases op <;> rfl

/-- The built-in functions. -/
inductive Function where
  | max
  | min
  | indexOfMax
  | indexOfMin
  | abs
  | ceil
  | floor
  | signum
  | e
  | pi
  | sqrt
  | exp
  | ln
  | log
  | sin
  | cos
  | tan
  | asin
  | acos
  | atan
  | atan2
  | size
  | choose
  | notNull
deriving DecidableEq, Repr

namespace Function

/-- The name of a function. -/
def name : Function → String
  | max => "max"
  | min => "min"
  | indexOfMax => "indexOfMax"
  | indexOfMin => "indexOfMin"
  | abs => "abs"
  | ceil => "ceil"
  | floor => "floor"
  | signum => "signum"
  | e => "E"
  | pi => "PI"
  | sqrt => "sqrt"
  | exp => "exp"
  | ln => "ln"
  | log => "log"
  | sin => "sin"
  | cos => "cos"
  | tan => "tan"
  | asin => "asin"
  | acos => "acos"
  | atan => "atan"
  | atan2 => "atan2"
  | size => "size"
  | choose => "choose"
  | notNull => "notNull"

/-- The functions. -/
def all : List Function :=
  [max, min, indexOfMax, indexOfMin, abs, ceil, floor, signum, e, pi, sqrt, exp, ln, log, sin, cos,
   tan, asin, acos, atan, atan2, size, choose, notNull]

/-- The function of that name. -/
def ofName? (s : String) : Option Function :=
  all.find? (·.name == s)

theorem ofName?_name (f : Function) : ofName? f.name = some f := by
  cases f <;> rfl

/-- The fewest arguments a function takes. -/
def minArgs : Function → Nat
  | e | pi => 0
  | atan2 | choose => 2
  | _ => 1

/-- The most arguments a function takes, if there is a bound. -/
def maxArgs : Function → Option Nat
  | max | min | indexOfMax | indexOfMin | choose => none
  | e | pi => some 0
  | atan2 => some 2
  | _ => some 1

end Function

/-! ## Trees -/

/-- An expression. -/
inductive Expr where
  /-- a constant -/
  | literal (value : Result) (pos : Nat)
  /-- the entity of that name, or without a name the entity that the expression belongs to -/
  | entity (name : Option String) (pos : Nat)
  | output (target : Expr) (name : String) (pos : Nat)
  | index (target index : Expr) (pos : Nat)
  | binary (op : BinaryOp) (left right : Expr) (pos : Nat)
  | unary (op : UnaryOp) (operand : Expr) (pos : Nat)
  | cond (condition thenExpr elseExpr : Expr) (pos : Nat)
  | call (function : Function) (args : List Expr) (pos : Nat)
  | array (items : List Expr) (pos : Nat)
  | map (entries : List (String × Expr)) (pos : Nat)
deriving Inhabited

namespace Expr

/-- The position of the token that the node comes from. -/
def pos : Expr → Nat
  | literal _ p | entity _ p | output _ _ p | index _ _ p | binary _ _ _ p | unary _ _ p
  | cond _ _ _ p | call _ _ p | array _ p | map _ p => p

/-- The value of a constant. -/
def literal? : Expr → Option Result
  | literal value _ => some value
  | _ => none

/-- A constant. -/
def isLiteral (e : Expr) : Bool :=
  e.literal?.isSome

/-! ## Text -/

mutual

/-- An expression as text: operations with two operands and choices stand between parentheses. -/
def render : Expr → String
  | literal value _ => value.render fun _ => ""
  | entity none _ => "this"
  | entity (some name) _ => "[" ++ name ++ "]"
  | output target name _ => render target ++ "." ++ name
  | index target i _ => render target ++ "(" ++ render i ++ ")"
  | binary op left right _ =>
    "(" ++ render left ++ " " ++ op.symbol ++ " " ++ render right ++ ")"
  | unary op operand _ => op.symbol ++ render operand
  | cond condition thenExpr elseExpr _ =>
    "(" ++ render condition ++ " ? " ++ render thenExpr ++ " : " ++ render elseExpr ++ ")"
  | call function args _ => function.name ++ "(" ++ ", ".intercalate (renderItems args) ++ ")"
  | array items _ => "\x7b" ++ ", ".intercalate (renderItems items) ++ "\x7d"
  | map entries _ => "\x7b" ++ ", ".intercalate (renderEntries entries) ++ "\x7d"

/-- The texts of some expressions. -/
def renderItems : List Expr → List String
  | [] => []
  | item :: items => render item :: renderItems items

/-- The texts of the entries of a map. -/
def renderEntries : List (String × Expr) → List String
  | [] => []
  | (key, value) :: entries => ("\"" ++ key ++ "\": " ++ render value) :: renderEntries entries

end

end Expr

/-- An expression together with the text it was read from. -/
structure Expression where
  source : String
  root : Expr

end ModelInputs
