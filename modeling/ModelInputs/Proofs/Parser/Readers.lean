import ModelInputs.Expression.Parser

/-!
# The readers without their bounds

The readers of expressions return the tokens that are left together with a bound on their number,
by which they end. What they read does not depend on the bounds, so here they are without them, each
with one equation for what it does. Proofs about reading work on these equations alone.

* `unbounded`: what is read, without the bound;
* `exprFrom`, `operatorsFrom`, `operandFrom`, `chainFrom`, `argsFrom`, `collectionFrom`,
  `itemsFrom`, `entriesFrom`: the readers, with their equations;
* `length_exprFrom` and its like: the bounds, as facts about the tokens that are left.
-/

namespace ModelInputs.Parser

/-! ## Leaving bounds away -/

/-- What is read, without the bound on the tokens that are left. -/
def unbounded {α : Type} {p : List Token → Prop} (x : Except Failure (α × { rest // p rest })) :
    Except Failure (α × List Token) :=
  x.map fun (a, rest) => (a, rest.1)

section Unbounded

variable {α β : Type} {p : List Token → Prop}

theorem unbounded_ok (a : α) (rest : { rest // p rest }) :
    unbounded (.ok (a, rest)) = .ok (a, rest.1) :=
  rfl

theorem unbounded_pure (a : α) (rest : { rest // p rest }) :
    unbounded (pure (a, rest)) = pure (a, rest.1) :=
  rfl

theorem unbounded_failAt (pos : Nat) (fault : ExprFault) :
    unbounded (failAt pos fault : Except Failure (α × { rest // p rest })) = failAt pos fault :=
  rfl

theorem unbounded_bind (x : Except Failure α)
    (k : α → Except Failure (β × { rest // p rest })) :
    unbounded (x >>= k) = x >>= fun a => unbounded (k a) := by
  cases x <;> rfl

theorem bind_unbounded (x : Except Failure (α × { rest // p rest }))
    (k : α × List Token → Except Failure β) :
    unbounded x >>= k = x >>= fun a => k (a.1, a.2.1) := by
  cases x <;> rfl

theorem bind_pure_unbounded (x : Except Failure (α × { rest // p rest })) :
    (x >>= fun a => pure (a.1, a.2.1)) = unbounded x := by
  cases x <;> rfl

/-- What is left keeps its bound. -/
theorem of_unbounded_eq_ok {x : Except Failure (α × { rest // p rest })} {a : α}
    {rest : List Token} (h : unbounded x = .ok (a, rest)) : p rest := by
  cases x with
  | error f => cases h
  | ok r =>
    obtain ⟨b, s, hs⟩ := r
    cases h
    exact hs

end Unbounded

/-! ## The readers -/

/-- The tokens behind a symbol that must come next. -/
def behind (s : String) (tokens : List Token) : Except Failure (List Token) :=
  (expect s tokens).map (·.1)

theorem bind_behind {β : Type} (s : String) (tokens : List Token)
    (k : List Token → Except Failure β) :
    behind s tokens >>= k = expect s tokens >>= fun rest => k rest.1 := by
  unfold behind
  cases expect s tokens <;> rfl

/-- A number with the unit that may follow it, and the rest. -/
def numberFrom (t : Token) (tokens : List Token) : Except Failure (Expr × List Token) :=
  unbounded (parseNumber t tokens)

variable (fold : Bool)

/-- An expression of operators that bind more tightly than `least`, and the rest. -/
def exprFrom (least : Nat) (tokens : List Token) : Except Failure (Expr × List Token) :=
  unbounded (parseExpr fold least tokens)

/-- The operators and operands behind an operand, and the rest. -/
def operatorsFrom (least : Nat) (left : Expr) (tokens : List Token) :
    Except Failure (Expr × List Token) :=
  unbounded (parseOperators fold least left tokens)

/-- An operand and the rest. -/
def operandFrom (tokens : List Token) : Except Failure (Expr × List Token) :=
  unbounded (parseOperand fold tokens)

/-- The outputs and places behind a reference, and the rest. -/
def chainFrom (target : Expr) (tokens : List Token) : Except Failure (Expr × List Token) :=
  unbounded (parseChain fold target tokens)

/-- The arguments of a function and the rest. -/
def argsFrom (tokens : List Token) : Except Failure (List Expr × List Token) :=
  unbounded (parseArgs fold tokens)

/-- An array or a map, behind its opening brace at `pos`, and the rest. -/
def collectionFrom (pos : Nat) (tokens : List Token) : Except Failure (Expr × List Token) :=
  unbounded (parseCollection fold pos tokens)

/-- Expressions with commas between them, and the rest. -/
def itemsFrom (tokens : List Token) : Except Failure (List Expr × List Token) :=
  unbounded (parseItems fold tokens)

/-- Entries of a map, behind those with the keys `seen`, and the rest. -/
def entriesFrom (seen : List String) (tokens : List Token) :
    Except Failure (List (String × Expr) × List Token) :=
  unbounded (parseEntries fold seen tokens)

/-! ## What each reader does -/

theorem behind_cons (s : String) (t : Token) (rest : List Token) :
    behind s (t :: rest) =
      if t.isSymbol s then .ok rest
      else if t.kind = .finish then failAt t.pos .unexpectedEnd
      else failAt t.pos (.expectedSymbol s t.value) := by
  rw [behind, expect]
  split
  · rfl
  split <;> rfl

theorem numberFrom_eq (t : Token) (tokens : List Token) :
    numberFrom t tokens =
      match Number.readFloat? t.value with
      | none => .error (.notANumber t.value)
      | some x =>
        match tokens with
        | u :: rest =>
          if u.kind = .square then
            match PhysicalUnit.find? u.value with
            | some unit => .ok (.literal (quantity x unit) t.pos, rest)
            | none => failAt u.pos (.unknownUnit u.value)
          else .ok (.literal (.plain x) t.pos, u :: rest)
        | [] => .ok (.literal (.plain x) t.pos, []) := by
  rw [numberFrom, parseNumber.eq_def]
  cases Number.readFloat? t.value with
  | none => rfl
  | some x =>
    cases tokens with
    | nil => rfl
    | cons u rest =>
      simp only
      split
      · cases PhysicalUnit.find? u.value <;> rfl
      · rfl

theorem exprFrom_eq (least : Nat) (tokens : List Token) :
    exprFrom fold least tokens = (do
      let (left, rest) ← operandFrom fold tokens
      operatorsFrom fold least left rest) := by
  unfold exprFrom operandFrom operatorsFrom
  rw [parseExpr]
  simp only [bind_unbounded, unbounded_bind, unbounded_pure, bind_pure_unbounded]

theorem operatorsFrom_cons (least : Nat) (left : Expr) (t : Token) (rest : List Token) :
    operatorsFrom fold least left (t :: rest) =
      (if t.kind ≠ .symbol then .ok (left, t :: rest)
      else if t.value = "?" then
        if 0 < least then .ok (left, t :: rest)
        else do
          let (thenExpr, rest₁) ← exprFrom fold 0 rest
          let rest₂ ← behind ":" rest₁
          let (elseExpr, rest₃) ← exprFrom fold 0 rest₂
          let e ← (Expr.cond left thenExpr elseExpr t.pos).fold fold
          return (e, rest₃)
      else
        match BinaryOp.ofSymbol? t.value with
        | none => .ok (left, t :: rest)
        | some op =>
          if op.strength ≤ least then .ok (left, t :: rest)
          else do
            let (right, rest₁) ← exprFrom fold op.rightStrength rest
            let e ← (Expr.binary op left right t.pos).fold fold
            operatorsFrom fold least e rest₁) := by
  unfold operatorsFrom exprFrom
  rw [parseOperators]
  simp only [bind_unbounded, bind_behind]
  split
  · rfl
  split
  · split
    · rfl
    · simp only [unbounded_bind, unbounded_pure]
  · cases BinaryOp.ofSymbol? t.value with
    | none => rfl
    | some op =>
      simp only
      split
      · rfl
      · simp only [unbounded_bind, unbounded_pure, bind_pure_unbounded]

theorem operatorsFrom_nil (least : Nat) (left : Expr) :
    operatorsFrom fold least left [] = .ok (left, []) := by
  rw [operatorsFrom, parseOperators, unbounded_ok]

theorem operandFrom_nil : operandFrom fold [] = failAt 0 .unexpectedEnd := by
  unfold operandFrom
  rw [parseOperand, unbounded_failAt]

theorem operandFrom_cons (t : Token) (rest : List Token) :
    operandFrom fold (t :: rest) =
      match t.kind with
      | .number => numberFrom t rest
      | .text => .ok (.literal (.text t.value) t.pos, rest)
      | .square =>
        if t.value = "" then failAt t.pos .emptyEntityName
        else chainFrom fold (.entity (some t.value) t.pos) rest
      | .word =>
        if t.value = "this" then chainFrom fold (.entity none t.pos) rest
        else if t.value = "null" then .ok (.literal .null t.pos, rest)
        else
          match Function.ofName? t.value with
          | none => failAt t.pos (.unknownFunction t.value)
          | some f => do
            let (args, rest') ← argsFrom fold rest
            checkArity f args.length t.pos
            let e ← (Expr.call f args t.pos).fold fold
            return (e, rest')
      | .symbol =>
        if t.value = "(" then do
          let (e, rest₁) ← exprFrom fold 0 rest
          let rest₂ ← behind ")" rest₁
          return (e, rest₂)
        else
          match UnaryOp.ofSymbol? t.value with
          | some op => do
            let (operand, rest') ← exprFrom fold UnaryOp.strength rest
            let e ← (Expr.unary op operand t.pos).fold fold
            return (e, rest')
          | none =>
            if t.value = "\x7b" then collectionFrom fold t.pos rest
            else failAt t.pos .notAnExpression
      | .finish => failAt t.pos .unexpectedEnd := by
  unfold operandFrom numberFrom chainFrom argsFrom exprFrom collectionFrom
  rw [parseOperand]
  simp only [bind_unbounded, bind_behind]
  cases t.kind with
  | number => simp only [unbounded_bind, unbounded_pure, bind_pure_unbounded]
  | text => rfl
  | square =>
    simp only
    split
    · rfl
    · simp only [unbounded_bind, unbounded_pure, bind_pure_unbounded]
  | word =>
    simp only
    split
    · simp only [unbounded_bind, unbounded_pure, bind_pure_unbounded]
    split
    · rfl
    · cases Function.ofName? t.value with
      | none => rfl
      | some f => simp only [unbounded_bind, unbounded_pure]
  | symbol =>
    simp only
    split
    · simp only [unbounded_bind, unbounded_pure]
    · cases UnaryOp.ofSymbol? t.value with
      | some op => simp only [unbounded_bind, unbounded_pure]
      | none =>
        simp only
        split
        · simp only [unbounded_bind, unbounded_pure, bind_pure_unbounded]
        · rfl
  | finish => rfl

theorem chainFrom_nil (target : Expr) : chainFrom fold target [] = .ok (target, []) := by
  rw [chainFrom, parseChain, unbounded_ok]

theorem chainFrom_cons (target : Expr) (t : Token) (rest : List Token) :
    chainFrom fold target (t :: rest) =
      (if t.isSymbol "." then
        match rest with
        | name :: rest =>
          if name.kind = .word then chainFrom fold (.output target name.value name.pos) rest
          else failAt name.pos .expectedOutputName
        | [] => failAt 0 .expectedOutputName
      else if t.isSymbol "(" && isIndexable target then do
        let (i, rest₁) ← exprFrom fold 0 rest
        let rest₂ ← behind ")" rest₁
        chainFrom fold (.index target i t.pos) rest₂
      else .ok (target, t :: rest)) := by
  unfold chainFrom exprFrom
  rw [parseChain.eq_def]
  simp only [bind_unbounded, bind_behind]
  split
  · cases rest with
    | nil => rfl
    | cons name rest =>
      simp only
      split
      · simp only [unbounded_bind, unbounded_pure, bind_pure_unbounded]
      · rfl
  split
  · simp only [unbounded_bind, unbounded_pure, bind_pure_unbounded]
  · rfl

theorem argsFrom_eq (tokens : List Token) :
    argsFrom fold tokens = (do
      let rest ← behind "(" tokens
      if nextIs ")" rest then do
        let rest' ← behind ")" rest
        return ([], rest')
      else do
        let (args, rest₁) ← itemsFrom fold rest
        let rest₂ ← behind ")" rest₁
        return (args, rest₂)) := by
  unfold argsFrom itemsFrom
  rw [parseArgs]
  simp only [bind_unbounded, bind_behind, unbounded_bind]
  congr
  funext ⟨rest, h⟩
  simp only
  split <;> simp only [unbounded_bind, unbounded_pure]

theorem collectionFrom_nil (pos : Nat) :
    collectionFrom fold pos [] = failAt 0 .unexpectedEnd := by
  rw [collectionFrom, parseCollection, unbounded_failAt]

theorem collectionFrom_cons (pos : Nat) (t : Token) (rest : List Token) :
    collectionFrom fold pos (t :: rest) =
      (if t.isSymbol "\x7d" then .ok (.literal (.array []) pos, rest)
      else if t.kind = .text ∧ nextIs ":" rest then do
        let (entries, rest₁) ← entriesFrom fold [] (t :: rest)
        let rest₂ ← behind "\x7d" rest₁
        let e ← (Expr.map entries pos).fold fold
        return (e, rest₂)
      else do
        let (items, rest₁) ← itemsFrom fold (t :: rest)
        let rest₂ ← behind "\x7d" rest₁
        let e ← (Expr.array items pos).fold fold
        return (e, rest₂)) := by
  unfold collectionFrom entriesFrom itemsFrom
  rw [parseCollection]
  simp only [bind_unbounded, bind_behind]
  split
  · rfl
  split <;> simp only [unbounded_bind, unbounded_pure]

theorem itemsFrom_eq (tokens : List Token) :
    itemsFrom fold tokens = (do
      let (item, rest) ← exprFrom fold 0 tokens
      match rest with
      | t :: rest =>
        if t.isSymbol "," then do
          let (items, rest') ← itemsFrom fold rest
          return (item :: items, rest')
        else return ([item], t :: rest)
      | [] => return ([item], [])) := by
  unfold itemsFrom exprFrom
  rw [parseItems]
  simp only [bind_unbounded, unbounded_bind]
  congr
  funext r
  obtain ⟨item, rest, h⟩ := r
  cases rest with
  | nil => rfl
  | cons t rest =>
    simp only
    split <;> simp only [unbounded_bind, unbounded_pure]

theorem entriesFrom_nil (seen : List String) :
    entriesFrom fold seen [] = failAt 0 .expectedMapKey := by
  rw [entriesFrom, parseEntries, unbounded_failAt]

theorem entriesFrom_cons (seen : List String) (key : Token) (rest : List Token) :
    entriesFrom fold seen (key :: rest) =
      (if key.kind ≠ .text then failAt key.pos .expectedMapKey
      else if seen.contains key.value then failAt key.pos (.duplicateMapKey key.value)
      else do
        let rest₁ ← behind ":" rest
        let (value, rest₂) ← exprFrom fold 0 rest₁
        match rest₂ with
        | t :: rest₃ =>
          if t.isSymbol "," then do
            let (entries, rest₄) ← entriesFrom fold (key.value :: seen) rest₃
            return ((key.value, value) :: entries, rest₄)
          else return ([(key.value, value)], t :: rest₃)
        | [] => return ([(key.value, value)], [])) := by
  unfold entriesFrom exprFrom
  rw [parseEntries]
  simp only [bind_unbounded, bind_behind]
  split
  · rfl
  split
  · rfl
  · simp only [unbounded_bind]
    congr
    funext r
    obtain ⟨rest₁, h₁⟩ := r
    congr
    funext r
    obtain ⟨value, rest₂, h₂⟩ := r
    cases rest₂ with
    | nil => rfl
    | cons t rest₃ =>
      simp only
      split <;> simp only [unbounded_bind, unbounded_pure]

/-! ## The tokens that are left -/

variable {fold : Bool}

theorem length_behind {s : String} {tokens rest : List Token} (h : behind s tokens = .ok rest) :
    rest.length < tokens.length := by
  unfold behind at h
  cases he : expect s tokens with
  | error f =>
    rw [he] at h
    cases h
  | ok r =>
    rw [he] at h
    cases h
    exact r.2

theorem length_exprFrom {least : Nat} {tokens rest : List Token} {e : Expr}
    (h : exprFrom fold least tokens = .ok (e, rest)) : rest.length < tokens.length :=
  of_unbounded_eq_ok h

theorem length_operandFrom {tokens rest : List Token} {e : Expr}
    (h : operandFrom fold tokens = .ok (e, rest)) : rest.length < tokens.length :=
  of_unbounded_eq_ok h

/-! ## A whole text -/

theorem ofTokens?_eq (tokens : List Token) :
    Expr.ofTokens? fold tokens = (do
      let (e, rest) ← exprFrom fold 0 tokens
      match rest with
      | t :: _ => if t.kind = .finish then return e else failAt t.pos .unexpectedRest
      | [] => return e) := by
  rw [Expr.ofTokens?, exprFrom]
  cases parseExpr fold 0 tokens with
  | error f => rfl
  | ok read => rfl

end ModelInputs.Parser
