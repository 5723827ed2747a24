import ModelInputs.Proofs.Outcome
import ModelInputs.Proofs.Parser.Grammar
import ModelInputs.Proofs.Parser.Readers

/-!
# What the grammar derives is read

A reader takes as many tokens as it can, so it takes exactly those of a derivation if the tokens
behind them can not go on with it. For an operand these are tokens that are no unit, no point and no
opening parenthesis; for an operation also the next operator must not bind too tightly. An operation
of a level leaves the reader in the middle of its loop: what follows may be a looser operator, which
belongs to a derivation further out.

* `Ends`, `AtMost`, `Stops`: tokens that do not go on with an operand or an operation;
* `operatorsFrom_of_stops`, `chainFrom_of_ends`: the loops end there;
* **`exprFrom_of_isExpr`** and its like: each reader takes the tokens of a derivation and makes its
  tree, by induction on the derivation.
-/

namespace ModelInputs.Parser

/-! ## Tokens that do not go on -/

/-- The next token does not go on with an operand. -/
def Ends (rest : List Token) : Prop :=
  ∀ t ∈ rest.head?, t.kind ≠ .square ∧ t.isSymbol "." = false ∧ t.isSymbol "(" = false

/-- The next token is no operator that binds more tightly than `least`. -/
def AtMost (least : Nat) (rest : List Token) : Prop :=
  ∀ t ∈ rest.head?, ∀ op : BinaryOp, t.isSymbol op.symbol = true → op.strength ≤ least

/-- The next token does not go on with an expression of operators tighter than `least`. -/
structure Stops (least : Nat) (rest : List Token) : Prop where
  ends : Ends rest
  atMost : AtMost least rest
  choice : ∀ t ∈ rest.head?, t.isSymbol "?" = true → 0 < least

theorem AtMost.mono {least least' : Nat} {rest : List Token} (h : AtMost least rest)
    (hl : least ≤ least') : AtMost least' rest := by
  intro t ht op hop
  exact Nat.le_trans (h t ht op hop) hl

theorem Stops.mono {least least' : Nat} {rest : List Token} (h : Stops least rest)
    (hl : least ≤ least') : Stops least' rest := by
  refine ⟨h.ends, h.atMost.mono hl, ?_⟩
  intro t ht hq
  exact Nat.lt_of_lt_of_le (h.choice t ht hq) hl

/-- Operators in front of an operand bind more tightly than all others. -/
theorem Ends.stops {rest : List Token} (h : Ends rest) : Stops UnaryOp.strength rest := by
  refine ⟨h, ?_, ?_⟩
  · intro t _ op _
    cases op <;> decide
  · intro t _ _
    decide

section Next

variable {t : Token} {rest : List Token} {s : String} {least : Nat}

theorem ends_of_isSymbol (ht : t.isSymbol s = true) (hdot : s ≠ ".") (hopen : s ≠ "(") :
    Ends (t :: rest) := by
  rintro _ ⟨⟩
  refine ⟨?_, Token.isSymbol_eq_false ht hdot, Token.isSymbol_eq_false ht hopen⟩
  rw [(Token.isSymbol_iff.1 ht).1]
  decide

/-- The operator that a token is, found by its spelling. -/
theorem ofSymbol?_of_isSymbol {op : BinaryOp} (h : t.isSymbol op.symbol = true)
    (ht : t.isSymbol s = true) : BinaryOp.ofSymbol? s = some op :=
  BinaryOp.ofSymbol?_eq_some.2 (Token.eq_of_isSymbol ht h)

theorem stops_of_operator {op : BinaryOp} (ht : t.isSymbol op.symbol = true)
    (h : op.strength ≤ least) : Stops least (t :: rest) := by
  refine ⟨ends_of_isSymbol ht (by cases op <;> decide) (by cases op <;> decide), ?_, ?_⟩
  · rintro _ ⟨⟩ op' hop'
    have := ofSymbol?_of_isSymbol hop' ht
    rw [BinaryOp.ofSymbol?_symbol, Option.some.injEq] at this
    exact this ▸ h
  · rintro _ ⟨⟩ hq
    exact absurd (ofSymbol?_of_isSymbol ht hq) nofun

theorem stops_of_question (ht : t.isSymbol "?" = true) (h : 0 < least) :
    Stops least (t :: rest) := by
  refine ⟨ends_of_isSymbol ht (by decide) (by decide), ?_, fun _ _ _ => h⟩
  rintro _ ⟨⟩ op hop
  exact absurd (ofSymbol?_of_isSymbol hop ht) nofun

/-- The symbols that close or divide what stands before them. -/
def closers : List String :=
  [")", "\x7d", ",", ":"]

theorem ne_of_mem_closers : ∀ s ∈ closers,
    (s ≠ "." ∧ s ≠ "(" ∧ s ≠ "?" ∧ s ≠ "\x7b") ∧
      BinaryOp.ofSymbol? s = none ∧ UnaryOp.ofSymbol? s = none := by
  decide

theorem stops_of_closer (ht : t.isSymbol s = true) (hs : s ∈ closers) :
    Stops least (t :: rest) := by
  obtain ⟨⟨hdot, hopen, hq, -⟩, hop, -⟩ := ne_of_mem_closers s hs
  refine ⟨ends_of_isSymbol ht hdot hopen, ?_, ?_⟩
  · rintro _ ⟨⟩ op h
    exact nomatch hop.symm.trans (ofSymbol?_of_isSymbol h ht)
  · rintro _ ⟨⟩ h
    exact absurd (Token.eq_of_isSymbol ht h) hq

theorem stops_of_finish (ht : t.kind = .finish) : Stops least (t :: rest) := by
  have hs : ∀ s, t.isSymbol s = false := by
    intro s
    rw [Bool.eq_false_iff]
    intro h
    exact nomatch ht.symm.trans (Token.isSymbol_iff.1 h).1
  refine ⟨?_, ?_, ?_⟩
  · rintro _ ⟨⟩
    exact ⟨by rw [ht]; decide, hs _, hs _⟩
  · rintro _ ⟨⟩ op hop
    exact nomatch (hs _).symm.trans hop
  · rintro _ ⟨⟩ hq
    exact nomatch (hs _).symm.trans hq

end Next

/-! ## The loops end there -/

theorem operatorsFrom_of_stops {least : Nat} {rest : List Token} (h : Stops least rest) (e : Expr) :
    operatorsFrom false least e rest = .ok (e, rest) := by
  cases rest with
  | nil => exact operatorsFrom_nil false least e
  | cons t rest =>
    rw [operatorsFrom_cons]
    split
    · rfl
    · next hk =>
      have hk := Decidable.of_not_not hk
      split
      · next hv => rw [if_pos (h.choice t rfl (Token.isSymbol_iff.2 ⟨hk, hv⟩))]
      · cases ho : BinaryOp.ofSymbol? t.value with
        | none => rfl
        | some op =>
          have := h.atMost t rfl op (Token.isSymbol_iff.2 ⟨hk, BinaryOp.ofSymbol?_eq_some.1 ho⟩)
          exact if_pos this

theorem chainFrom_of_ends {rest : List Token} (h : Ends rest) (target : Expr) :
    chainFrom false target rest = .ok (target, rest) := by
  cases rest with
  | nil => exact chainFrom_nil false target
  | cons t rest =>
    obtain ⟨-, hdot, hopen⟩ := h t rfl
    rw [chainFrom_cons, hdot, hopen]
    rfl

/-! ## Steps of the readers -/

section Steps

variable {t : Token} {rest : List Token}

theorem behind_of_isSymbol {s : String} (ht : t.isSymbol s = true) :
    behind s (t :: rest) = .ok rest := by
  rw [behind_cons, if_pos ht]

theorem nextIs_cons (s : String) : nextIs s (t :: rest) = t.isSymbol s :=
  rfl

theorem operatorsFrom_question {left : Expr} (ht : t.isSymbol "?" = true) :
    operatorsFrom false 0 left (t :: rest) = (do
      let (a, rest₁) ← exprFrom false 0 rest
      let rest₂ ← behind ":" rest₁
      let (b, rest₃) ← exprFrom false 0 rest₂
      return (.cond left a b t.pos, rest₃)) := by
  obtain ⟨hk, hv⟩ := Token.isSymbol_iff.1 ht
  rw [operatorsFrom_cons, if_neg (fun h => h hk), if_pos hv]
  rfl

theorem operatorsFrom_operator {least : Nat} {left : Expr} {op : BinaryOp}
    (ht : t.isSymbol op.symbol = true) (h : least < op.strength) :
    operatorsFrom false least left (t :: rest) = (do
      let (right, rest₁) ← exprFrom false op.rightStrength rest
      operatorsFrom false least (.binary op left right t.pos) rest₁) := by
  obtain ⟨hk, hv⟩ := Token.isSymbol_iff.1 ht
  have hq : ¬ t.value = "?" := by
    rw [hv]
    cases op <;> decide
  rw [operatorsFrom_cons, if_neg (fun h => h hk), if_neg hq, hv, BinaryOp.ofSymbol?_symbol]
  simp only [if_neg (Nat.not_le.2 h)]
  rfl

theorem operandFrom_group (ht : t.isSymbol "(" = true) :
    operandFrom false (t :: rest) = (do
      let (e, rest₁) ← exprFrom false 0 rest
      let rest₂ ← behind ")" rest₁
      return (e, rest₂)) := by
  obtain ⟨hk, hv⟩ := Token.isSymbol_iff.1 ht
  rw [operandFrom_cons, hk]
  exact if_pos hv

theorem operandFrom_operator {op : UnaryOp} (ht : t.isSymbol op.symbol = true) :
    operandFrom false (t :: rest) = (do
      let (e, rest') ← exprFrom false UnaryOp.strength rest
      return (.unary op e t.pos, rest')) := by
  obtain ⟨hk, hv⟩ := Token.isSymbol_iff.1 ht
  have hp : ¬ op.symbol = "(" := by
    cases op <;> decide
  rw [operandFrom_cons, hk, hv, UnaryOp.ofSymbol?_symbol]
  exact if_neg hp

theorem operandFrom_brace (ht : t.isSymbol "\x7b" = true) :
    operandFrom false (t :: rest) = collectionFrom false t.pos rest := by
  obtain ⟨hk, hv⟩ := Token.isSymbol_iff.1 ht
  rw [operandFrom_cons, hk, hv]
  rfl

/-- An operand never starts with a symbol that closes something. -/
theorem operandFrom_of_closer {s : String} (hs : s ∈ closers) (ht : t.isSymbol s = true) :
    operandFrom false (t :: rest) = failAt t.pos .notAnExpression := by
  obtain ⟨hk, hv⟩ := Token.isSymbol_iff.1 ht
  obtain ⟨⟨-, hopen, -, hbrace⟩, -, hop⟩ := ne_of_mem_closers s hs
  rw [operandFrom_cons, hk, hv, hop]
  exact (if_neg hopen).trans (if_neg hbrace)

end Steps

/-! ## Derivations are read -/

/-- An operand that is read leaves its operators to the loop. -/
theorem exprFrom_of_operandFrom {least : Nat} {ts rest : List Token} {e : Expr}
    (h : operandFrom false ts = .ok (e, rest)) :
    exprFrom false least ts = operatorsFrom false least e rest := by
  rw [exprFrom_eq, h]
  rfl

/-- Items never start with a symbol that closes something. -/
theorem itemsFrom_ne_ok_of_closer {t : Token} {ts rest : List Token} {items : List Expr}
    {s : String} (hs : s ∈ closers) (ht : t.isSymbol s = true) :
    itemsFrom false (t :: ts) ≠ .ok (items, rest) := by
  rw [itemsFrom_eq, exprFrom_eq, operandFrom_of_closer hs ht]
  nofun

/-- Items that start with a text and a colon end there, in front of the colon. -/
theorem rest_of_itemsFrom_text {t colon : Token} {ts rest : List Token} {items : List Expr}
    (ht : t.kind = .text) (hcolon : colon.isSymbol ":" = true)
    (h : itemsFrom false (t :: colon :: ts) = .ok (items, rest)) : rest = colon :: ts := by
  have hop : operandFrom false (t :: colon :: ts) =
      .ok (.literal (.text t.value) t.pos, colon :: ts) := by
    rw [operandFrom_cons, ht]
  have hcomma : colon.isSymbol "," = false := Token.isSymbol_eq_false hcolon (by decide)
  rw [itemsFrom_eq, exprFrom_of_operandFrom hop,
    operatorsFrom_of_stops (stops_of_closer hcolon (by decide))] at h
  simp only [ok_bind, hcomma] at h
  cases h
  rfl

theorem nextIs_of_itemsFrom {ts rest : List Token} {items : List Expr} {s : String}
    (hs : s ∈ closers) (h : itemsFrom false ts = .ok (items, rest)) : nextIs s ts = false := by
  cases ts with
  | nil => rfl
  | cons t ts =>
    rw [nextIs_cons, Bool.eq_false_iff]
    intro ht
    exact itemsFrom_ne_ok_of_closer hs ht h

/-- Items between braces make an array, since they can not be taken for entries. -/
theorem collectionFrom_of_itemsFrom {ts rest : List Token} {items : List Expr} {c : Token}
    {pos : Nat} (hc : c.isSymbol "\x7d" = true)
    (h : itemsFrom false ts = .ok (items, c :: rest)) :
    collectionFrom false pos ts = .ok (.array items pos, rest) := by
  cases ts with
  | nil =>
    rw [itemsFrom_eq, exprFrom_eq, operandFrom_nil] at h
    cases h
  | cons t ts =>
    have hclose : ¬ t.isSymbol "\x7d" = true := fun ht =>
      itemsFrom_ne_ok_of_closer (by decide) ht h
    have hentry : ¬ (t.kind = .text ∧ nextIs ":" ts = true) := by
      rintro ⟨ht, hn⟩
      cases ts with
      | nil => cases hn
      | cons colon ts =>
        obtain ⟨rfl, -⟩ := List.cons.inj (rest_of_itemsFrom_text ht hn h)
        exact nomatch (Token.isSymbol_eq_false hc (by decide)).symm.trans hn
    rw [collectionFrom_cons, if_neg hclose, if_neg hentry, h]
    simp only [ok_bind, behind_of_isSymbol hc]
    rfl

/-- Entries between braces make a map. -/
theorem collectionFrom_of_entriesFrom {ts rest : List Token} {entries : List (String × Expr)}
    {key colon c : Token} {pos : Nat} (hkey : key.kind = .text) (hcolon : colon.isSymbol ":" = true)
    (hc : c.isSymbol "\x7d" = true)
    (h : entriesFrom false [] (key :: colon :: ts) = .ok (entries, c :: rest)) :
    collectionFrom false pos (key :: colon :: ts) = .ok (.map entries pos, rest) := by
  have hclose : ¬ key.isSymbol "\x7d" = true := by
    intro h
    exact nomatch hkey.symm.trans (Token.isSymbol_iff.1 h).1
  rw [collectionFrom_cons, if_neg hclose, if_pos ⟨hkey, hcolon⟩, h]
  simp only [ok_bind, behind_of_isSymbol hc]
  rfl

/-- The key and the colon that entries start with. -/
theorem exists_key_of_isEntries {ts : List Token} {entries : List (String × Expr)}
    (h : IsEntries ts entries) :
    ∃ key colon us, ts = key :: colon :: us ∧ key.kind = .text ∧ colon.isSymbol ":" = true := by
  cases h with
  | one hkey hcolon => exact ⟨_, _, _, rfl, hkey, hcolon⟩
  | more hkey hcolon => exact ⟨_, _, _, rfl, hkey, hcolon⟩

/-- An entry in front of its value. -/
theorem entriesFrom_key {seen : List String} {key colon : Token} {rest : List Token}
    (hkey : key.kind = .text) (hseen : key.value ∉ seen) (hcolon : colon.isSymbol ":" = true) :
    entriesFrom false seen (key :: colon :: rest) = (do
      let (value, rest₂) ← exprFrom false 0 rest
      match rest₂ with
      | t :: rest₃ =>
        if t.isSymbol "," then do
          let (entries, rest₄) ← entriesFrom false (key.value :: seen) rest₃
          return ((key.value, value) :: entries, rest₄)
        else return ([(key.value, value)], t :: rest₃)
      | [] => return ([(key.value, value)], [])) := by
  have hnew : ¬ seen.contains key.value = true := by
    rw [List.contains_iff_mem]
    exact hseen
  rw [entriesFrom_cons, if_neg (fun h => h hkey), if_neg hnew, behind_of_isSymbol hcolon]
  rfl

/-- The arity of a call that the grammar allows is accepted. -/
theorem checkArity_eq_ok {f : Function} {given pos : Nat} :
    checkArity f given pos = .ok () ↔
      f.minArgs ≤ given ∧ ∀ most, f.maxArgs = some most → given ≤ most := by
  unfold checkArity
  split
  · next h => exact ⟨nofun, fun h' => absurd h'.1 (Nat.not_le.2 h)⟩
  · next h =>
    have hmin := Nat.not_lt.1 h
    cases hm : f.maxArgs with
    | none => exact ⟨fun _ => ⟨hmin, nofun⟩, fun _ => rfl⟩
    | some most =>
      simp only [Option.some.injEq, forall_eq']
      split
      · next hlt => exact ⟨nofun, fun h' => absurd h'.2 (Nat.not_le.2 hlt)⟩
      · next hle => exact ⟨fun _ => ⟨hmin, Nat.not_lt.1 hle⟩, fun _ => rfl⟩

mutual

/-- **An expression is read as it is derived.** -/
theorem exprFrom_of_isExpr : ∀ {ts : List Token} {e : Expr}, IsExpr ts e →
    ∀ {rest : List Token}, Stops 0 rest → exprFrom false 0 (ts ++ rest) = .ok (e, rest)
  | _, _, .operation h, rest, hr => by
    rw [exprFrom_of_isOperation h (by decide) (hr.mono (Nat.zero_le _))]
    exact operatorsFrom_of_stops hr _
  | _, _, .choice hc hq ha hcolon hb, rest, hr => by
    rw [List.append_assoc, List.cons_append, List.append_assoc, List.cons_append,
      exprFrom_of_isOperation hc (by decide) (stops_of_question hq (by decide)),
      operatorsFrom_question hq, exprFrom_of_isExpr ha (stops_of_closer hcolon (by decide))]
    simp only [ok_bind, behind_of_isSymbol hcolon, exprFrom_of_isExpr hb hr]
    rfl

/-- The operands and operators of a level are taken, and the loop goes on behind them. -/
theorem exprFrom_of_isOperation : ∀ {l : Level} {ts : List Token} {e : Expr}, IsOperation l ts e →
    ∀ {least : Nat} {rest : List Token}, least < l.strength → Stops l.guard rest →
      exprFrom false least (ts ++ rest) = operatorsFrom false least e rest
  | _, _, _, .tighter hl h, least, rest, hlt, hr =>
    exprFrom_of_isOperation h (Nat.lt_trans hlt (Level.strength_lt_of_next? hl))
      (hr.mono (Level.guard_le_of_next? hl))
  | l, _, _, @IsOperation.left _ l' _ _ _ _ _ op ho hl hleft ht hright, least, rest, hlt, hr => by
    have hs : op.strength = l.strength := ho ▸ op.strength_level.symm
    have hg : op.rightStrength = l.guard := ho ▸ op.guard_level.symm
    have hlevel := Level.guard_of_next? hl
    have hnext : op.rightStrength < l'.strength := by
      rw [hg, hlevel]
      exact Level.strength_lt_of_next? hl
    have hend : op.strength ≤ l.guard := Nat.le_of_eq (hs.trans hlevel.symm)
    rw [List.append_assoc, List.cons_append,
      exprFrom_of_isOperation hleft hlt (stops_of_operator ht hend),
      operatorsFrom_operator ht (hs ▸ hlt),
      exprFrom_of_isOperation hright hnext (hr.mono (Level.guard_le_of_next? hl)),
      operatorsFrom_of_stops (hg ▸ hr)]
    rfl
  | _, _, _, .power hleft ht hright, least, rest, hlt, hr => by
    have hends : ∀ us, Ends (_ :: us) := fun _ => ends_of_isSymbol ht (by decide) (by decide)
    rw [List.append_assoc, List.cons_append,
      exprFrom_of_operandFrom (operandFrom_of_isPrefixed hleft (hends _)),
      operatorsFrom_operator ht hlt, exprFrom_of_isOperation hright (by decide) hr]
    exact congrArg (· >>= _) (operatorsFrom_of_stops hr _)
  | _, _, _, .prefixed h, least, rest, hlt, hr =>
    exprFrom_of_operandFrom (operandFrom_of_isPrefixed h hr.ends)

/-- An operand with operators in front of it is read as it is derived. -/
theorem operandFrom_of_isPrefixed : ∀ {ts : List Token} {e : Expr}, IsPrefixed ts e →
    ∀ {rest : List Token}, Ends rest → operandFrom false (ts ++ rest) = .ok (e, rest)
  | _, _, .operator ht h, rest, hr => by
    rw [List.cons_append, operandFrom_operator ht,
      exprFrom_of_operandFrom (operandFrom_of_isPrefixed h hr), operatorsFrom_of_stops hr.stops]
    rfl
  | _, _, .primary h, rest, hr => operandFrom_of_isPrimary h hr

/-- An operand is read as it is derived. -/
theorem operandFrom_of_isPrimary : ∀ {ts : List Token} {e : Expr}, IsPrimary ts e →
    ∀ {rest : List Token}, Ends rest → operandFrom false (ts ++ rest) = .ok (e, rest)
  | _, _, .number ht hx, rest, hr => by
    rw [List.singleton_append, operandFrom_cons, ht]
    simp only [numberFrom_eq, hx]
    cases rest with
    | nil => rfl
    | cons u rest => exact if_neg (hr u rfl).1
  | _, _, .quantity ht hx hu hunit, rest, hr => by
    rw [List.cons_append, List.singleton_append, operandFrom_cons, ht]
    simp only [numberFrom_eq, hx, hu, hunit, if_true]
  | _, _, .text ht, rest, hr => by
    rw [List.singleton_append, operandFrom_cons, ht]
  | _, _, .null ht hv, rest, hr => by
    rw [List.singleton_append, operandFrom_cons, ht, hv]
    rfl
  | _, _, .this ht hv h, rest, hr => by
    rw [List.cons_append, operandFrom_cons, ht, ← chainFrom_of_isChain h hr]
    exact if_pos hv
  | _, _, .entity ht hv h, rest, hr => by
    rw [List.cons_append, operandFrom_cons, ht, ← chainFrom_of_isChain h hr]
    exact if_neg hv
  | _, _, .call (f := f) ht hv h hmin hmax, rest, hr => by
    have hthis : ¬ f.name = "this" := by cases f <;> decide
    have hnull : ¬ f.name = "null" := by cases f <;> decide
    rw [List.cons_append, operandFrom_cons, ht, hv, Function.ofName?_name,
      argsFrom_of_isArgs h]
    simp only [hthis, hnull, if_false, ok_bind, checkArity_eq_ok.2 ⟨hmin, hmax⟩]
    rfl
  | _, _, .group ho h hc, rest, hr => by
    rw [List.cons_append, List.append_assoc, List.singleton_append, operandFrom_group ho,
      exprFrom_of_isExpr h (stops_of_closer hc (by decide))]
    simp only [ok_bind, behind_of_isSymbol hc]
    rfl
  | _, _, .emptyArray ho hc, rest, hr => by
    rw [List.cons_append, List.singleton_append, operandFrom_brace ho, collectionFrom_cons,
      if_pos hc]
  | _, _, .array ho h hc, rest, hr => by
    have hi : itemsFrom false (_ ++ _ :: rest) = .ok (_, _ :: rest) :=
      itemsFrom_of_isItems h (stops_of_closer hc (by decide))
        (by rintro _ ⟨⟩; exact Token.isSymbol_eq_false hc (by decide))
    rw [List.cons_append, List.append_assoc, List.singleton_append, operandFrom_brace ho]
    exact collectionFrom_of_itemsFrom hc hi
  | _, _, .map ho h hkeys hc, rest, hr => by
    have he : entriesFrom false [] (_ ++ _ :: rest) = .ok (_, _ :: rest) :=
      entriesFrom_of_isEntries h hkeys nofun (stops_of_closer hc (by decide))
        (by rintro _ ⟨⟩; exact Token.isSymbol_eq_false hc (by decide))
    obtain ⟨key, colon, us, rfl, hkey, hcolon⟩ := exists_key_of_isEntries h
    rw [List.cons_append, List.append_assoc, List.singleton_append, operandFrom_brace ho]
    exact collectionFrom_of_entriesFrom hkey hcolon hc he

/-- The outputs and places behind a reference are read as they are derived. -/
theorem chainFrom_of_isChain : ∀ {target : Expr} {ts : List Token} {e : Expr},
    IsChain target ts e →
      ∀ {rest : List Token}, Ends rest → chainFrom false target (ts ++ rest) = .ok (e, rest)
  | _, _, _, .done, rest, hr => chainFrom_of_ends hr _
  | _, _, _, .output hdot hname h, rest, hr => by
    rw [List.cons_append, List.cons_append, chainFrom_cons, if_pos hdot,
      ← chainFrom_of_isChain h hr]
    exact if_pos hname
  | _, _, _, .index ht ho hi hc h, rest, hr => by
    have hdot := Token.isSymbol_eq_false ho (by decide : "(" ≠ ".")
    rw [List.cons_append, List.append_assoc, List.cons_append, chainFrom_cons, hdot, ho, ht,
      exprFrom_of_isExpr hi (stops_of_closer hc (by decide))]
    simp only [ok_bind, behind_of_isSymbol hc, chainFrom_of_isChain h hr]
    rfl

/-- Arguments are read as they are derived. -/
theorem argsFrom_of_isArgs : ∀ {ts : List Token} {args : List Expr}, IsArgs ts args →
    ∀ {rest : List Token}, argsFrom false (ts ++ rest) = .ok (args, rest)
  | _, _, .none ho hc, rest => by
    rw [List.cons_append, List.singleton_append, argsFrom_eq, behind_of_isSymbol ho]
    simp only [ok_bind, nextIs_cons, hc, if_true, behind_of_isSymbol hc]
    rfl
  | _, _, .some ho h hc, rest => by
    have hi : itemsFrom false (_ ++ _ :: rest) = .ok (_, _ :: rest) :=
      itemsFrom_of_isItems h (stops_of_closer hc (by decide))
        (by rintro _ ⟨⟩; exact Token.isSymbol_eq_false hc (by decide))
    have hn := nextIs_of_itemsFrom (by decide : ")" ∈ closers) hi
    rw [List.cons_append, List.append_assoc, List.singleton_append, argsFrom_eq,
      behind_of_isSymbol ho]
    simp only [ok_bind, hn, hi, behind_of_isSymbol hc]
    rfl

/-- Items are read as they are derived, if no comma follows. -/
theorem itemsFrom_of_isItems : ∀ {ts : List Token} {items : List Expr}, IsItems ts items →
    ∀ {rest : List Token}, Stops 0 rest → (∀ t ∈ rest.head?, t.isSymbol "," = false) →
      itemsFrom false (ts ++ rest) = .ok (items, rest)
  | _, _, .one h, rest, hr, hcomma => by
    rw [itemsFrom_eq, exprFrom_of_isExpr h hr]
    cases rest with
    | nil => rfl
    | cons t rest =>
      simp only [ok_bind, hcomma t rfl]
      rfl
  | _, _, .more h ht hs, rest, hr, hcomma => by
    rw [List.append_assoc, List.cons_append, itemsFrom_eq,
      exprFrom_of_isExpr h (stops_of_closer ht (by decide))]
    simp only [ok_bind, ht, if_true, itemsFrom_of_isItems hs hr hcomma]
    rfl

/-- Entries are read as they are derived, if their keys are new and no comma follows. -/
theorem entriesFrom_of_isEntries : ∀ {ts : List Token} {entries : List (String × Expr)},
    IsEntries ts entries → ∀ {seen : List String} {rest : List Token},
      (entries.map (·.1)).Nodup → (∀ key ∈ entries.map (·.1), key ∉ seen) →
      Stops 0 rest → (∀ t ∈ rest.head?, t.isSymbol "," = false) →
      entriesFrom false seen (ts ++ rest) = .ok (entries, rest)
  | _, _, .one hkey hcolon h, seen, rest, hnodup, hseen, hr, hcomma => by
    have hnew := hseen _ (List.mem_singleton_self _)
    rw [List.cons_append, List.cons_append, entriesFrom_key hkey hnew hcolon,
      exprFrom_of_isExpr h hr]
    cases rest with
    | nil => rfl
    | cons t rest =>
      simp only [ok_bind, hcomma t rfl]
      rfl
  | _, _, @IsEntries.more key _ _ _ _ _ es hkey hcolon h ht hs, seen, rest, hnodup, hseen, hr,
      hcomma => by
    rw [List.map_cons, List.nodup_cons] at hnodup
    rw [List.map_cons, List.forall_mem_cons] at hseen
    have hnew : ∀ k ∈ es.map (·.1), k ∉ key.value :: seen := by
      intro k hk hmem
      rcases List.mem_cons.1 hmem with rfl | hmem
      · exact hnodup.1 hk
      · exact hseen.2 k hk hmem
    rw [List.cons_append, List.cons_append, List.append_assoc, List.cons_append,
      entriesFrom_key hkey hseen.1 hcolon, exprFrom_of_isExpr h (stops_of_closer ht (by decide))]
    simp only [ok_bind, ht, if_true, entriesFrom_of_isEntries hs hnodup.2 hnew hr hcomma]
    rfl

end

end ModelInputs.Parser
