import ModelInputs.Expression.Parser

/-!
# The grammar of expressions

The grammar has one level for each strength of operators. An expression of a level is one of the
next level, or an operation of this level: on all levels but the last the left operand is again of
this level and the right one of the next, so operations group to the left; powers group to the right
instead. Operators in front of an operand bind more tightly than all others, and a choice stands
outside all operators. Every rule says which tree its tokens make.

* `Token.isSymbol_iff`, `BinaryOp.ofSymbol?_eq_some` and its like: symbols and their spelling;
* `Level`: the levels, with the operators that each of them holds;
* `IsExpr`, `IsOperation`, `IsPrefixed`, `IsPrimary`, `IsChain`, `IsArgs`, `IsItems`, `IsEntries`:
  the rules, each a relation of tokens and the tree that they make;
* `Derives`: the tokens of a whole text and its tree;
* `IsPrefixed.isOperation`, `IsOperation.mono`: a tighter expression is one of every looser level;
* **`IsExpr.not_finish`**: no rule takes an end token.
-/

namespace ModelInputs

/-! ## Symbols -/

theorem Token.isSymbol_iff {t : Token} {s : String} :
    t.isSymbol s = true ↔ t.kind = .symbol ∧ t.value = s := by
  rw [Token.isSymbol, Bool.and_eq_true, beq_iff_eq, beq_iff_eq]

/-- A token is one symbol only. -/
theorem Token.eq_of_isSymbol {t : Token} {s s' : String} (h : t.isSymbol s = true)
    (h' : t.isSymbol s' = true) : s = s' :=
  (Token.isSymbol_iff.1 h).2.symm.trans (Token.isSymbol_iff.1 h').2

theorem Token.isSymbol_eq_false {t : Token} {s s' : String} (h : t.isSymbol s = true)
    (hs : s ≠ s') : t.isSymbol s' = false := by
  rw [Bool.eq_false_iff]
  intro h'
  exact hs (Token.eq_of_isSymbol h h')

theorem BinaryOp.ofSymbol?_eq_some {s : String} {op : BinaryOp} :
    BinaryOp.ofSymbol? s = some op ↔ s = op.symbol := by
  constructor
  · intro h
    have := List.find?_some h
    exact (beq_iff_eq.1 this).symm
  · rintro rfl
    exact BinaryOp.ofSymbol?_symbol op

theorem UnaryOp.ofSymbol?_eq_some {s : String} {op : UnaryOp} :
    UnaryOp.ofSymbol? s = some op ↔ s = op.symbol := by
  constructor
  · intro h
    have := List.find?_some h
    exact (beq_iff_eq.1 this).symm
  · rintro rfl
    exact UnaryOp.ofSymbol?_symbol op

theorem Function.ofName?_eq_some {s : String} {f : Function} :
    Function.ofName? s = some f ↔ s = f.name := by
  constructor
  · intro h
    have := List.find?_some h
    exact (beq_iff_eq.1 this).symm
  · rintro rfl
    exact Function.ofName?_name f

/-! ## Levels -/

/-- The levels of operators, from the loosest to the tightest. -/
inductive Level where
  | disjunction
  | conjunction
  | equality
  | order
  | sum
  | product
  | power
deriving DecidableEq, Repr

namespace Level

/-- The next tighter level. -/
def next? : Level → Option Level
  | disjunction => some conjunction
  | conjunction => some equality
  | equality => some order
  | order => some sum
  | sum => some product
  | product => some power
  | power => none

/-- How tightly the operators of a level bind. -/
def strength : Level → Nat
  | disjunction => 6
  | conjunction => 8
  | equality => 10
  | order => 12
  | sum => 20
  | product => 30
  | power => 40

/-- How tightly the next operator may bind behind an operation of a level. -/
def guard : Level → Nat
  | power => 39
  | l => l.strength

end Level

/-- The level of an operator. -/
def BinaryOp.level : BinaryOp → Level
  | pow => .power
  | mul | div | mod => .product
  | add | sub => .sum
  | lt | le | gt | ge => .order
  | eq | ne => .equality
  | and => .conjunction
  | or => .disjunction

@[simp] theorem BinaryOp.strength_level (op : BinaryOp) : op.level.strength = op.strength := by
  cases op <;> rfl

@[simp] theorem BinaryOp.guard_level (op : BinaryOp) : op.level.guard = op.rightStrength := by
  cases op <;> rfl

theorem Level.strength_lt_of_next? {l l' : Level} (h : l.next? = some l') :
    l.strength < l'.strength := by
  cases l <;> cases h <;> decide

theorem Level.guard_le_of_next? {l l' : Level} (h : l.next? = some l') : l.guard ≤ l'.guard := by
  cases l <;> cases h <;> decide

/-- Behind all levels but the tightest the next operator may bind as tightly as the level. -/
theorem Level.guard_of_next? {l l' : Level} (h : l.next? = some l') : l.guard = l.strength := by
  cases l <;> cases h <;> rfl

theorem Level.guard_le_strength (l : Level) : l.guard ≤ l.strength := by
  cases l <;> decide

theorem Level.strength_le_power (l : Level) : l.strength ≤ 40 := by
  cases l <;> decide

/-- The next level holds the loosest of the operators that bind more tightly. -/
theorem Level.next?_le_of_lt {l l' : Level} (h : l.next? = some l') {op : BinaryOp}
    (ho : l.strength < op.strength) : l'.strength ≤ op.strength := by
  revert ho
  cases l <;> cases h <;> cases op <;> decide

/-! ## Rules -/

open ModelInputs.Parser (isIndexable quantity)

mutual

/-- An expression: an operation of any level, or a choice. -/
inductive IsExpr : List Token → Expr → Prop
  | operation {ts : List Token} {e : Expr} (h : IsOperation .disjunction ts e) : IsExpr ts e
  | choice {cs as bs : List Token} {c a b : Expr} {q colon : Token}
      (hc : IsOperation .disjunction cs c) (hq : q.isSymbol "?") (ha : IsExpr as a)
      (hcolon : colon.isSymbol ":") (hb : IsExpr bs b) :
      IsExpr (cs ++ q :: (as ++ colon :: bs)) (.cond c a b q.pos)

/-- An operation of a level or of a tighter one. -/
inductive IsOperation : Level → List Token → Expr → Prop
  | tighter {l l' : Level} {ts : List Token} {e : Expr} (hl : l.next? = some l')
      (h : IsOperation l' ts e) : IsOperation l ts e
  | left {l l' : Level} {ls rs : List Token} {left right : Expr} {t : Token} {op : BinaryOp}
      (ho : op.level = l) (hl : l.next? = some l') (hleft : IsOperation l ls left)
      (ht : t.isSymbol op.symbol) (hright : IsOperation l' rs right) :
      IsOperation l (ls ++ t :: rs) (.binary op left right t.pos)
  | power {ls rs : List Token} {left right : Expr} {t : Token} (hleft : IsPrefixed ls left)
      (ht : t.isSymbol BinaryOp.pow.symbol) (hright : IsOperation .power rs right) :
      IsOperation .power (ls ++ t :: rs) (.binary .pow left right t.pos)
  | prefixed {ts : List Token} {e : Expr} (h : IsPrefixed ts e) : IsOperation .power ts e

/-- An operand with any number of operators in front of it. -/
inductive IsPrefixed : List Token → Expr → Prop
  | operator {ts : List Token} {e : Expr} {t : Token} {op : UnaryOp} (ht : t.isSymbol op.symbol)
      (h : IsPrefixed ts e) : IsPrefixed (t :: ts) (.unary op e t.pos)
  | primary {ts : List Token} {e : Expr} (h : IsPrimary ts e) : IsPrefixed ts e

/-- An operand. -/
inductive IsPrimary : List Token → Expr → Prop
  | number {t : Token} {x : Float} (ht : t.kind = .number)
      (hx : Number.readFloat? t.value = some x) : IsPrimary [t] (.literal (.plain x) t.pos)
  | quantity {t u : Token} {x : Float} {unit : PhysicalUnit} (ht : t.kind = .number)
      (hx : Number.readFloat? t.value = some x) (hu : u.kind = .square)
      (hunit : PhysicalUnit.find? u.value = some unit) :
      IsPrimary [t, u] (.literal (quantity x unit) t.pos)
  | text {t : Token} (ht : t.kind = .text) : IsPrimary [t] (.literal (.text t.value) t.pos)
  | null {t : Token} (ht : t.kind = .word) (hv : t.value = "null") :
      IsPrimary [t] (.literal .null t.pos)
  | this {t : Token} {ts : List Token} {e : Expr} (ht : t.kind = .word) (hv : t.value = "this")
      (h : IsChain (.entity none t.pos) ts e) : IsPrimary (t :: ts) e
  | entity {t : Token} {ts : List Token} {e : Expr} (ht : t.kind = .square) (hv : t.value ≠ "")
      (h : IsChain (.entity (some t.value) t.pos) ts e) : IsPrimary (t :: ts) e
  | call {t : Token} {ts : List Token} {f : Function} {args : List Expr} (ht : t.kind = .word)
      (hv : t.value = f.name) (h : IsArgs ts args) (hmin : f.minArgs ≤ args.length)
      (hmax : ∀ most, f.maxArgs = some most → args.length ≤ most) :
      IsPrimary (t :: ts) (.call f args t.pos)
  | group {o c : Token} {ts : List Token} {e : Expr} (ho : o.isSymbol "(") (h : IsExpr ts e)
      (hc : c.isSymbol ")") : IsPrimary (o :: (ts ++ [c])) e
  | emptyArray {o c : Token} (ho : o.isSymbol "\x7b") (hc : c.isSymbol "\x7d") :
      IsPrimary [o, c] (.literal (.array []) o.pos)
  | array {o c : Token} {ts : List Token} {items : List Expr} (ho : o.isSymbol "\x7b")
      (h : IsItems ts items) (hc : c.isSymbol "\x7d") :
      IsPrimary (o :: (ts ++ [c])) (.array items o.pos)
  | map {o c : Token} {ts : List Token} {entries : List (String × Expr)} (ho : o.isSymbol "\x7b")
      (h : IsEntries ts entries) (hkeys : (entries.map (·.1)).Nodup) (hc : c.isSymbol "\x7d") :
      IsPrimary (o :: (ts ++ [c])) (.map entries o.pos)

/-- The outputs behind a reference, and places behind an output or a place. -/
inductive IsChain : Expr → List Token → Expr → Prop
  | done {target : Expr} : IsChain target [] target
  | output {target e : Expr} {dot name : Token} {ts : List Token} (hdot : dot.isSymbol ".")
      (hname : name.kind = .word) (h : IsChain (.output target name.value name.pos) ts e) :
      IsChain target (dot :: name :: ts) e
  | index {target i e : Expr} {o c : Token} {is ts : List Token} (ht : isIndexable target = true)
      (ho : o.isSymbol "(") (hi : IsExpr is i) (hc : c.isSymbol ")")
      (h : IsChain (.index target i o.pos) ts e) : IsChain target (o :: (is ++ c :: ts)) e

/-- The arguments of a function between parentheses. -/
inductive IsArgs : List Token → List Expr → Prop
  | none {o c : Token} (ho : o.isSymbol "(") (hc : c.isSymbol ")") : IsArgs [o, c] []
  | some {o c : Token} {ts : List Token} {args : List Expr} (ho : o.isSymbol "(")
      (h : IsItems ts args) (hc : c.isSymbol ")") : IsArgs (o :: (ts ++ [c])) args

/-- Expressions with commas between them, at least one. -/
inductive IsItems : List Token → List Expr → Prop
  | one {ts : List Token} {e : Expr} (h : IsExpr ts e) : IsItems ts [e]
  | more {ts us : List Token} {e : Expr} {es : List Expr} {comma : Token} (h : IsExpr ts e)
      (hcomma : comma.isSymbol ",") (hs : IsItems us es) : IsItems (ts ++ comma :: us) (e :: es)

/-- Entries of a map with commas between them, at least one. -/
inductive IsEntries : List Token → List (String × Expr) → Prop
  | one {key colon : Token} {ts : List Token} {e : Expr} (hkey : key.kind = .text)
      (hcolon : colon.isSymbol ":") (h : IsExpr ts e) :
      IsEntries (key :: colon :: ts) [(key.value, e)]
  | more {key colon comma : Token} {ts us : List Token} {e : Expr} {es : List (String × Expr)}
      (hkey : key.kind = .text) (hcolon : colon.isSymbol ":") (h : IsExpr ts e)
      (hcomma : comma.isSymbol ",") (hs : IsEntries us es) :
      IsEntries (key :: colon :: (ts ++ comma :: us)) ((key.value, e) :: es)

end

/-- The tokens are those of an expression with an end token behind them. -/
def Derives (tokens : List Token) (e : Expr) : Prop :=
  ∃ ts finish, tokens = ts ++ [finish] ∧ finish.kind = .finish ∧ IsExpr ts e

/-! ## Looser levels -/

theorem Level.eq_of_strength_eq {l l' : Level} (h : l.strength = l'.strength) : l = l' := by
  revert h
  cases l <;> cases l' <;> decide

/-- Below a tighter level there is always a next one. -/
theorem Level.exists_next? {l l' : Level} (h : l.strength < l'.strength) :
    ∃ m, l.next? = some m ∧ m.strength ≤ l'.strength := by
  revert h
  cases l <;> cases l' <;> decide

/-- A tighter operation is one of every looser level. -/
theorem IsOperation.mono {l l' : Level} {ts : List Token} {e : Expr} (h : IsOperation l' ts e)
    (hl : l.strength ≤ l'.strength) : IsOperation l ts e := by
  rcases Nat.eq_or_lt_of_le hl with heq | hlt
  · rw [Level.eq_of_strength_eq heq]
    exact h
  · obtain ⟨m, hm, hle⟩ := Level.exists_next? hlt
    have := Level.strength_lt_of_next? hm
    have := m.strength_le_power
    exact .tighter hm (h.mono hle)
termination_by 40 - l.strength

theorem IsPrefixed.isOperation {ts : List Token} {e : Expr} (h : IsPrefixed ts e) (l : Level) :
    IsOperation l ts e :=
  (IsOperation.prefixed h).mono l.strength_le_power

theorem IsOperation.isExpr {l : Level} {ts : List Token} {e : Expr} (h : IsOperation l ts e) :
    IsExpr ts e :=
  .operation (h.mono (by cases l <;> decide))

/-! ## No rule takes an end token -/

/-- There is no end token among the tokens. -/
def NoFinish (tokens : List Token) : Prop :=
  ∀ t ∈ tokens, t.kind ≠ .finish

namespace NoFinish

variable {ts us : List Token} {t : Token} {s : String}

theorem nil : NoFinish [] :=
  nofun

theorem cons {k : TokenKind} (ht : t.kind = k) (h : NoFinish ts)
    (hk : k ≠ .finish := by decide) : NoFinish (t :: ts) :=
  List.forall_mem_cons.2 ⟨ht ▸ hk, h⟩

theorem symbol (ht : t.isSymbol s = true) (h : NoFinish ts) : NoFinish (t :: ts) :=
  cons (Token.isSymbol_iff.1 ht).1 h

theorem append (h : NoFinish ts) (h' : NoFinish us) : NoFinish (ts ++ us) :=
  List.forall_mem_append.2 ⟨h, h'⟩

end NoFinish

mutual

/-- **No rule takes an end token.** -/
theorem IsExpr.not_finish : ∀ {ts : List Token} {e : Expr}, IsExpr ts e → NoFinish ts
  | _, _, .operation h => h.not_finish
  | _, _, .choice hc hq ha hcolon hb =>
    hc.not_finish.append (.symbol hq (ha.not_finish.append (.symbol hcolon hb.not_finish)))

theorem IsOperation.not_finish :
    ∀ {l : Level} {ts : List Token} {e : Expr}, IsOperation l ts e → NoFinish ts
  | _, _, _, .tighter _ h => h.not_finish
  | _, _, _, .left _ _ hleft ht hright => hleft.not_finish.append (.symbol ht hright.not_finish)
  | _, _, _, .power hleft ht hright => hleft.not_finish.append (.symbol ht hright.not_finish)
  | _, _, _, .prefixed h => h.not_finish

theorem IsPrefixed.not_finish : ∀ {ts : List Token} {e : Expr}, IsPrefixed ts e → NoFinish ts
  | _, _, .operator ht h => .symbol ht h.not_finish
  | _, _, .primary h => h.not_finish

theorem IsPrimary.not_finish : ∀ {ts : List Token} {e : Expr}, IsPrimary ts e → NoFinish ts
  | _, _, .number ht _ => .cons ht .nil
  | _, _, .quantity ht _ hu _ => .cons ht (.cons hu .nil)
  | _, _, .text ht => .cons ht .nil
  | _, _, .null ht _ => .cons ht .nil
  | _, _, .this ht _ h => .cons ht h.not_finish
  | _, _, .entity ht _ h => .cons ht h.not_finish
  | _, _, .call ht _ h _ _ => .cons ht h.not_finish
  | _, _, .group ho h hc => .symbol ho (h.not_finish.append (.symbol hc .nil))
  | _, _, .emptyArray ho hc => .symbol ho (.symbol hc .nil)
  | _, _, .array ho h hc => .symbol ho (h.not_finish.append (.symbol hc .nil))
  | _, _, .map ho h _ hc => .symbol ho (h.not_finish.append (.symbol hc .nil))

theorem IsChain.not_finish :
    ∀ {target : Expr} {ts : List Token} {e : Expr}, IsChain target ts e → NoFinish ts
  | _, _, _, .done => .nil
  | _, _, _, .output hdot hname h => .symbol hdot (.cons hname h.not_finish)
  | _, _, _, .index _ ho hi hc h => .symbol ho (hi.not_finish.append (.symbol hc h.not_finish))

theorem IsArgs.not_finish : ∀ {ts : List Token} {args : List Expr}, IsArgs ts args → NoFinish ts
  | _, _, .none ho hc => .symbol ho (.symbol hc .nil)
  | _, _, .some ho h hc => .symbol ho (h.not_finish.append (.symbol hc .nil))

theorem IsItems.not_finish : ∀ {ts : List Token} {items : List Expr}, IsItems ts items → NoFinish ts
  | _, _, .one h => h.not_finish
  | _, _, .more h hcomma hs => h.not_finish.append (.symbol hcomma hs.not_finish)

theorem IsEntries.not_finish :
    ∀ {ts : List Token} {entries : List (String × Expr)}, IsEntries ts entries → NoFinish ts
  | _, _, .one hkey hcolon h => .cons hkey (.symbol hcolon h.not_finish)
  | _, _, .more hkey hcolon h hcomma hs =>
    .cons hkey (.symbol hcolon (h.not_finish.append (.symbol hcomma hs.not_finish)))

end

end ModelInputs
