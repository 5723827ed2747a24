import ModelInputs.Expression.Fold
import ModelInputs.Expression.Token

/-!
# Reading expressions

Expressions are read by precedence climbing: an operand is followed by operators that bind more
tightly than the operator in front of it. Powers group to the right, all other operators to the
left, and a choice stands outside every operator. After a reference come outputs and, behind an
output, places in arrays and maps.

* `BinaryOp.strength`, `BinaryOp.rightStrength`: how tightly operators bind;
* `Shorter`, `NoLonger`: the tokens that are left, with a bound on their number by which the mutual
  recursion ends;
* `parseExpr` and the readers of its parts;
* `Expr.parse?`, `Expression.parse?`: reading a text.
-/

namespace ModelInputs

/-- How tightly an operator binds. -/
def BinaryOp.strength : BinaryOp → Nat
  | pow => 40
  | mul | div | mod => 30
  | add | sub => 20
  | lt | le | gt | ge => 12
  | eq | ne => 10
  | and => 8
  | or => 6

/-- How tightly an operator must bind to belong to the right operand. -/
def BinaryOp.rightStrength (op : BinaryOp) : Nat :=
  if op = pow then op.strength - 1 else op.strength

/-- How tightly the operators in front of an operand bind. -/
def UnaryOp.strength : Nat := 50

namespace Parser

/-- Fewer tokens than before. -/
abbrev Shorter (tokens : List Token) : Type :=
  { rest : List Token // rest.length < tokens.length }

/-- No more tokens than before. -/
abbrev NoLonger (tokens : List Token) : Type :=
  { rest : List Token // rest.length ≤ tokens.length }

/-- The position of the next token. -/
def position (tokens : List Token) : Nat :=
  match tokens with
  | t :: _ => t.pos
  | [] => 0

/-- An error at the next token. -/
def failHere {α : Type} (tokens : List Token) (fault : ExprFault) : Except Failure α :=
  failAt (position tokens) fault

/-- The next token is that symbol. -/
def nextIs (s : String) : List Token → Bool
  | t :: _ => t.isSymbol s
  | [] => false

/-- The tokens behind a symbol that must come next. -/
def expect (s : String) : (tokens : List Token) → Except Failure (Shorter tokens)
  | t :: rest =>
    if t.isSymbol s then .ok ⟨rest, by simp⟩
    else if t.kind = .finish then failAt t.pos .unexpectedEnd
    else failAt t.pos (.expectedSymbol s t.value)
  | [] => failAt 0 .unexpectedEnd

/-- A number with a unit, in SI units. -/
def quantity (x : Float) (unit : PhysicalUnit) : Result :=
  .number (unit.toSI x) unit.unitType

/-- A number token with the unit that may follow it. -/
def parseNumber (t : Token) (tokens : List Token) : Except Failure (Expr × NoLonger tokens) :=
  match Number.readFloat? t.value with
  | none => .error (.notANumber t.value)
  | some x =>
    match tokens with
    | u :: rest =>
      if u.kind = .square then
        match PhysicalUnit.find? u.value with
        | some unit => .ok (.literal (quantity x unit) t.pos, ⟨rest, by simp⟩)
        | none => failAt u.pos (.unknownUnit u.value)
      else .ok (.literal (.plain x) t.pos, ⟨u :: rest, by simp⟩)
    | [] => .ok (.literal (.plain x) t.pos, ⟨[], by simp⟩)

/-- The number of arguments fits the function. -/
def checkArity (f : Function) (given pos : Nat) : Except Failure Unit :=
  if given < f.minArgs then failAt pos (.tooFewArguments f.name f.minArgs given)
  else
    match f.maxArgs with
    | some most =>
      if most < given then failAt pos (.tooManyArguments f.name most given) else .ok ()
    | none => .ok ()

/-- A reference that can be followed by a place in an array or map. -/
def isIndexable : Expr → Bool
  | .output .. => true
  | .index .. => true
  | _ => false

variable (fold : Bool)

mutual

/-- An expression of operators that bind more tightly than `least`. -/
def parseExpr (least : Nat) (tokens : List Token) : Except Failure (Expr × Shorter tokens) := do
  let (left, ⟨rest, h⟩) ← parseOperand tokens
  let (e, ⟨rest', h'⟩) ← parseOperators least left rest
  return (e, ⟨rest', Nat.lt_of_le_of_lt h' h⟩)
termination_by (tokens.length, 2)

/-- The operators and operands behind an operand. -/
def parseOperators (least : Nat) (left : Expr) (tokens : List Token) :
    Except Failure (Expr × NoLonger tokens) :=
  match tokens with
  | [] => .ok (left, ⟨[], by simp⟩)
  | t :: rest =>
    if t.kind ≠ .symbol then .ok (left, ⟨t :: rest, by simp⟩)
    else if t.value = "?" then
      if 0 < least then .ok (left, ⟨t :: rest, by simp⟩)
      else do
        let (thenExpr, ⟨rest₁, _⟩) ← parseExpr 0 rest
        let ⟨rest₂, _⟩ ← expect ":" rest₁
        let (elseExpr, ⟨rest₃, _⟩) ← parseExpr 0 rest₂
        let e ← (Expr.cond left thenExpr elseExpr t.pos).fold fold
        return (e, ⟨rest₃, by simp only [List.length_cons]; omega⟩)
    else
      match BinaryOp.ofSymbol? t.value with
      | none => .ok (left, ⟨t :: rest, by simp⟩)
      | some op =>
        if op.strength ≤ least then .ok (left, ⟨t :: rest, by simp⟩)
        else do
          let (right, ⟨rest₁, _⟩) ← parseExpr op.rightStrength rest
          let e ← (Expr.binary op left right t.pos).fold fold
          let (e, ⟨rest₂, _⟩) ← parseOperators least e rest₁
          return (e, ⟨rest₂, by simp only [List.length_cons]; omega⟩)
termination_by (tokens.length, 0)

/-- An operand. -/
def parseOperand (tokens : List Token) : Except Failure (Expr × Shorter tokens) :=
  match tokens with
  | [] => failAt 0 .unexpectedEnd
  | t :: rest =>
    match t.kind with
    | .number => do
      let (e, ⟨rest', h⟩) ← parseNumber t rest
      return (e, ⟨rest', by simp only [List.length_cons]; omega⟩)
    | .text => .ok (.literal (.text t.value) t.pos, ⟨rest, by simp⟩)
    | .square =>
      if t.value = "" then failAt t.pos .emptyEntityName
      else do
        let (e, ⟨rest', _⟩) ← parseChain (.entity (some t.value) t.pos) rest
        return (e, ⟨rest', by simp only [List.length_cons]; omega⟩)
    | .word =>
      if t.value = "this" then do
        let (e, ⟨rest', _⟩) ← parseChain (.entity none t.pos) rest
        return (e, ⟨rest', by simp only [List.length_cons]; omega⟩)
      else if t.value = "null" then .ok (.literal .null t.pos, ⟨rest, by simp⟩)
      else
        match Function.ofName? t.value with
        | none => failAt t.pos (.unknownFunction t.value)
        | some f => do
          let (args, ⟨rest', _⟩) ← parseArgs rest
          checkArity f args.length t.pos
          let e ← (Expr.call f args t.pos).fold fold
          return (e, ⟨rest', by simp only [List.length_cons]; omega⟩)
    | .symbol =>
      if t.value = "(" then do
        let (e, ⟨rest₁, _⟩) ← parseExpr 0 rest
        let ⟨rest₂, _⟩ ← expect ")" rest₁
        return (e, ⟨rest₂, by simp only [List.length_cons]; omega⟩)
      else
        match UnaryOp.ofSymbol? t.value with
        | some op => do
          let (operand, ⟨rest', _⟩) ← parseExpr UnaryOp.strength rest
          let e ← (Expr.unary op operand t.pos).fold fold
          return (e, ⟨rest', by simp only [List.length_cons]; omega⟩)
        | none =>
          if t.value = "\x7b" then do
            let (e, ⟨rest', _⟩) ← parseCollection t.pos rest
            return (e, ⟨rest', by simp only [List.length_cons]; omega⟩)
          else failAt t.pos .notAnExpression
    | .finish => failAt t.pos .unexpectedEnd
termination_by (tokens.length, 1)

/-- The outputs and places behind a reference. -/
def parseChain (target : Expr) (tokens : List Token) : Except Failure (Expr × NoLonger tokens) :=
  match tokens with
  | [] => .ok (target, ⟨[], by simp⟩)
  | t :: rest =>
    if t.isSymbol "." then
      match rest with
      | name :: rest =>
        if name.kind = .word then do
          let (e, ⟨rest', _⟩) ← parseChain (.output target name.value name.pos) rest
          return (e, ⟨rest', by simp only [List.length_cons]; omega⟩)
        else failAt name.pos .expectedOutputName
      | [] => failAt 0 .expectedOutputName
    else if t.isSymbol "(" && isIndexable target then do
      let (i, ⟨rest₁, _⟩) ← parseExpr 0 rest
      let ⟨rest₂, _⟩ ← expect ")" rest₁
      let (e, ⟨rest₃, _⟩) ← parseChain (.index target i t.pos) rest₂
      return (e, ⟨rest₃, by simp only [List.length_cons]; omega⟩)
    else .ok (target, ⟨t :: rest, by simp⟩)
termination_by (tokens.length, 0)

/-- The arguments of a function between parentheses. -/
def parseArgs (tokens : List Token) : Except Failure (List Expr × Shorter tokens) := do
  let ⟨rest, h⟩ ← expect "(" tokens
  if nextIs ")" rest then
    let ⟨rest', _⟩ ← expect ")" rest
    return ([], ⟨rest', by omega⟩)
  else
    let (args, ⟨rest₁, _⟩) ← parseItems rest
    let ⟨rest₂, _⟩ ← expect ")" rest₁
    return (args, ⟨rest₂, by omega⟩)
termination_by (tokens.length, 0)

/-- An array or a map, behind its opening brace at `pos`. -/
def parseCollection (pos : Nat) (tokens : List Token) : Except Failure (Expr × Shorter tokens) :=
  match tokens with
  | [] => failAt 0 .unexpectedEnd
  | t :: rest =>
    if t.isSymbol "\x7d" then .ok (.literal (.array []) pos, ⟨rest, by simp⟩)
    else if t.kind = .text ∧ nextIs ":" rest then do
      let (entries, ⟨rest₁, _⟩) ← parseEntries [] (t :: rest)
      let ⟨rest₂, _⟩ ← expect "\x7d" rest₁
      let e ← (Expr.map entries pos).fold fold
      return (e, ⟨rest₂, by omega⟩)
    else do
      let (items, ⟨rest₁, _⟩) ← parseItems (t :: rest)
      let ⟨rest₂, _⟩ ← expect "\x7d" rest₁
      let e ← (Expr.array items pos).fold fold
      return (e, ⟨rest₂, by omega⟩)
termination_by (tokens.length, 4)

/-- Expressions with commas between them, at least one. -/
def parseItems (tokens : List Token) : Except Failure (List Expr × Shorter tokens) := do
  let (item, ⟨rest, h⟩) ← parseExpr 0 tokens
  match rest, h with
  | t :: rest, h =>
    if t.isSymbol "," then
      have : rest.length < tokens.length := by simp only [List.length_cons] at h; omega
      let (items, ⟨rest', _⟩) ← parseItems rest
      return (item :: items, ⟨rest', by omega⟩)
    else return ([item], ⟨t :: rest, h⟩)
  | [], h => return ([item], ⟨[], h⟩)
termination_by (tokens.length, 3)

/-- Entries of a map with commas between them, at least one; `seen` are the keys before them. -/
def parseEntries (seen : List String) (tokens : List Token) :
    Except Failure (List (String × Expr) × Shorter tokens) :=
  match tokens with
  | [] => failAt 0 .expectedMapKey
  | key :: rest =>
    if key.kind ≠ .text then failAt key.pos .expectedMapKey
    else if seen.contains key.value then failAt key.pos (.duplicateMapKey key.value)
    else do
      let ⟨rest₁, h₁⟩ ← expect ":" rest
      let (value, ⟨rest₂, h₂⟩) ← parseExpr 0 rest₁
      match rest₂, h₂ with
      | t :: rest₃, h₂ =>
        if t.isSymbol "," then
          have : rest₃.length < rest.length := by simp only [List.length_cons] at h₂; omega
          let (entries, ⟨rest₄, _⟩) ← parseEntries (key.value :: seen) rest₃
          return ((key.value, value) :: entries,
            ⟨rest₄, by simp only [List.length_cons]; omega⟩)
        else
          return ([(key.value, value)],
            ⟨t :: rest₃, by simp only [List.length_cons] at h₂ ⊢; omega⟩)
      | [], _ => return ([(key.value, value)], ⟨[], by simp⟩)
termination_by (tokens.length, 0)

end

end Parser

/-- The expression that the tokens make; nothing may follow it. -/
def Expr.ofTokens? (fold : Bool) (tokens : List Token) : Except Failure Expr := do
  let (e, ⟨rest, _⟩) ← Parser.parseExpr fold 0 tokens
  match rest with
  | t :: _ => if t.kind = .finish then return e else failAt t.pos .unexpectedRest
  | [] => return e

/-- The expression that a text writes, with its constant parts folded if `fold` is set. -/
def Expr.parse? (source : String) (fold : Bool) : Except Failure Expr := do
  let tokens ← (Token.tokenize source).mapError Failure.expression
  anchored source (Expr.ofTokens? fold tokens)

/-- The expression that a text writes, together with the text. -/
def Expression.parse? (source : String) (fold : Bool) : Except Failure Expression := do
  return ⟨source, ← Expr.parse? source fold⟩

end ModelInputs
