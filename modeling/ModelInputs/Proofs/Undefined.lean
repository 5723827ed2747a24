import ModelInputs.Proofs.Parser.Folded
import ModelInputs.Proofs.Printing
import ModelInputs.Proofs.Refusals

/-!
# Texts that folding refuses

A text is read with its constant parts folded unless one of them has no value on numbers of the
right kind, as the sine of an infinity has none. The failure of such a part is not an error of the
expression, so it is not kept for the evaluation but stops the reading, even if the part stands in a
branch that is never taken. Read without folding the same text is an expression.

* `Expr.LacksValue`, **`Expr.isUndefined_iff`**: the parts that are undefined are the remainders and
  the angle functions of infinities;
* `Expr.parse?_folded`: a text read with folding, and the tree that it has without;
* **`Expression.parse?_fold_outcome`**: which texts are read with folding, and how the others fail;
* **`Expression.parse?_sineOfInfinity`**: a text that is only read without folding.
-/

namespace ModelInputs

/-! ## Parts without a value -/

namespace Expr

theorem IsConstant.exists_value {e : Expr} (h : e.IsConstant) : ∃ r, e.eval .empty = .ok r :=
  (h e .self).2

theorem exists_results {items : List Expr} (h : ∀ c ∈ items, c.IsConstant) :
    ∃ rs, evalItems .empty items = .ok rs := by
  induction items with
  | nil => exact ⟨[], rfl⟩
  | cons item items ih =>
    rw [List.forall_mem_cons] at h
    obtain ⟨r, hr⟩ := h.1.exists_value
    obtain ⟨rs, hrs⟩ := ih h.2
    exact ⟨r :: rs, bind_eq_ok.2 ⟨r, hr, bind_eq_ok.2 ⟨rs, hrs, rfl⟩⟩⟩

theorem exists_resultEntries {entries : List (String × Expr)}
    (h : ∀ c ∈ entries.map (·.2), c.IsConstant) : ∃ rs, evalEntries .empty entries = .ok rs := by
  induction entries with
  | nil => exact ⟨[], rfl⟩
  | cons entry entries ih =>
    rw [List.map_cons, List.forall_mem_cons] at h
    obtain ⟨r, hr⟩ := h.1.exists_value
    obtain ⟨rs, hrs⟩ := ih h.2
    exact ⟨(entry.1, r) :: rs, bind_eq_ok.2 ⟨r, hr, bind_eq_ok.2 ⟨rs, hrs, rfl⟩⟩⟩

theorem placed_eq_mathDomain {α : Type} {x : Except OpFault α} {pos : Nat} :
    placed pos x = .error .mathDomain ↔ x = .error .undefined := by
  cases x with
  | ok a => exact ⟨nofun, nofun⟩
  | error fault =>
    cases fault with
    | refused fault => exact ⟨nofun, nofun⟩
    | undefined => exact ⟨fun _ => rfl, fun _ => rfl⟩

/-- What refuses its operands or has a value does not fail for lack of one. -/
theorem placed_ne {α : Type} {x : Except OpFault α} (hx : RefusesUnless False x) (pos : Nat) :
    placed pos x ≠ .error .mathDomain :=
  fun h => hx.of_undefined (placed_eq_mathDomain.1 h)

theorem evalAnd_ne (l r : Result) (pos : Nat) :
    evalAnd pos l (fun _ => .ok r) ≠ .error .mathDomain := by
  intro h
  obtain h | ⟨b, -, h⟩ := bind_eq_error.1 h
  · exact placed_ne l.truth_refuses pos h
  · cases b with
    | false => cases h
    | true =>
      rw [ok_bind] at h
      obtain h | ⟨_, -, ⟨⟩⟩ := bind_eq_error.1 h
      exact placed_ne r.truth_refuses pos h

theorem evalOr_ne (l r : Result) (pos : Nat) :
    evalOr pos l (fun _ => .ok r) ≠ .error .mathDomain := by
  intro h
  obtain h | ⟨b, -, h⟩ := bind_eq_error.1 h
  · exact placed_ne l.truth_refuses pos h
  · cases b with
    | true => cases h
    | false =>
      rw [ok_bind] at h
      obtain h | ⟨_, -, ⟨⟩⟩ := bind_eq_error.1 h
      exact placed_ne r.truth_refuses pos h

theorem evalItems_eq_singleton {env : Env} {items : List Expr} {r : Result}
    (h : evalItems env items = .ok [r]) : ∃ item, items = [item] ∧ item.eval env = .ok r := by
  cases items with
  | nil => cases h
  | cons item items =>
    obtain ⟨_, hr, h⟩ := bind_eq_ok.1 h
    obtain ⟨rs, hrs, ⟨⟩⟩ := bind_eq_ok.1 h
    cases items with
    | nil => exact ⟨item, rfl, hr⟩
    | cons item' items =>
      obtain ⟨_, -, hrs⟩ := bind_eq_ok.1 hrs
      obtain ⟨_, -, ⟨⟩⟩ := bind_eq_ok.1 hrs

/-- A remainder or an angle function that has no value on what its operands yield. -/
inductive LacksValue : Expr → Prop
  | remainder {left right : Expr} {l r : Result} {pos : Nat} (hl : left.eval .empty = .ok l)
      (hr : right.eval .empty = .ok r) (h : l.LacksRemainder r) :
      LacksValue (binary .mod left right pos)
  | ofAngle {f : Function} {arg : Expr} {r : Result} {pos : Nat} (hf : f.IsOfAngle)
      (hr : arg.eval .empty = .ok r) (h : r.IsInfiniteAngle) : LacksValue (call f [arg] pos)

theorem LacksValue.eval_eq {e : Expr} (h : e.LacksValue) :
    e.eval .empty = .error .mathDomain := by
  cases h with
  | remainder hl hr h =>
    refine bind_eq_error.2 (.inr ⟨_, hl, bind_eq_error.2 (.inr ⟨_, hr, ?_⟩)⟩)
    exact placed_eq_mathDomain.2 (BinaryOp.apply_eq_undefined_iff.2 ⟨rfl, h⟩)
  | ofAngle hf hr h =>
    refine bind_eq_error.2 (.inr ⟨_, bind_eq_ok.2 ⟨_, hr, rfl⟩, ?_⟩)
    exact placed_eq_mathDomain.2 (Function.apply_eq_undefined_iff.2 ⟨hf, _, rfl, h⟩)

/-- Of the operations on constants only these have no value. -/
theorem lacksValue_of_eval_eq {e : Expr} (href : ¬ e.IsReference)
    (hconst : ∀ c ∈ e.children, c.IsConstant) (h : e.eval .empty = .error .mathDomain) :
    e.LacksValue := by
  cases e with
  | literal => cases h
  | entity | output | index => exact absurd trivial href
  | binary op left right pos =>
    obtain ⟨l, hl⟩ := (hconst left (.head _)).exists_value
    obtain ⟨r, hr⟩ := (hconst right (.tail _ (.head _))).exists_value
    rw [eval, hl, ok_bind, hr] at h
    -- all operators but the remainder have a value or refuse their operands
    cases op with
    | and => exact absurd h (evalAnd_ne l r pos)
    | or => exact absurd h (evalOr_ne l r pos)
    | mod =>
      exact .remainder hl hr (BinaryOp.apply_eq_undefined_iff.1 (placed_eq_mathDomain.1 h)).2
    | _ => exact nomatch (BinaryOp.apply_eq_undefined_iff.1 (placed_eq_mathDomain.1 h)).1
  | unary op operand pos =>
    obtain ⟨r, hr⟩ := (hconst operand (.head _)).exists_value
    rw [eval, hr, ok_bind] at h
    exact absurd h (placed_ne (op.apply_refuses r) pos)
  | cond condition a b pos =>
    obtain ⟨c, hc⟩ := (hconst condition (.head _)).exists_value
    obtain ⟨r, hr⟩ := (hconst a (.tail _ (.head _))).exists_value
    obtain ⟨s, hs⟩ := (hconst b (.tail _ (.tail _ (.head _)))).exists_value
    rw [eval, hc, ok_bind, hr, hs] at h
    obtain h | ⟨taken, -, h⟩ := bind_eq_error.1 h
    · exact absurd h (placed_ne c.truth_refuses pos)
    · cases taken <;> cases h
  | call f args pos =>
    obtain ⟨rs, hrs⟩ : ∃ rs, evalItems .empty args = .ok rs := exists_results hconst
    rw [eval, hrs, ok_bind, placed_eq_mathDomain] at h
    obtain ⟨hf, r, rfl, hr⟩ := Function.apply_eq_undefined_iff.1 h
    obtain ⟨arg, rfl, harg⟩ := evalItems_eq_singleton hrs
    exact .ofAngle hf harg hr
  | array items pos =>
    obtain ⟨rs, hrs⟩ : ∃ rs, evalItems .empty items = .ok rs := exists_results hconst
    rw [eval, hrs] at h
    cases h
  | map entries pos =>
    obtain ⟨rs, hrs⟩ : ∃ rs, evalEntries .empty entries = .ok rs := exists_resultEntries hconst
    rw [eval, hrs] at h
    cases h

/-- **What is undefined** is a remainder or an angle function that has no value on its constant
operands. -/
theorem isUndefined_iff {e : Expr} :
    e.IsUndefined ↔ (∀ c ∈ e.children, c.IsConstant) ∧ e.LacksValue := by
  constructor
  · rintro ⟨href, hconst, h⟩
    exact ⟨hconst, lacksValue_of_eval_eq href hconst h⟩
  · rintro ⟨hconst, h⟩
    refine ⟨?_, hconst, h.eval_eq⟩
    cases h <;> exact id

end Expr

/-! ## Texts -/

/-- A text that is an expression is read with folding to the tree, folded. -/
theorem Expr.parse?_folded {source : String} {tree : Expr}
    (h : Expr.parse? source false = .ok tree) : Expr.parse? source true = tree.folded := by
  obtain ⟨tokens, ht, h⟩ := bind_eq_ok.1 h
  rw [Expr.parse?, ht, ok_bind, (Parser.ofTokens?_folded tokens).1 tree (anchored_eq_ok.1 h)]
  cases he : tree.folded with
  | ok e => rfl
  | error f =>
    obtain rfl := folded_eq_mathDomain he
    rfl

/-- A text that is no expression fails alike with folding, unless the folding fails first. -/
theorem Expr.parse?_error {source : String} {f : Failure}
    (h : Expr.parse? source false = .error f) :
    Expr.parse? source true = .error f ∨ Expr.parse? source true = .error .mathDomain := by
  obtain ht | ⟨tokens, ht, h⟩ := bind_eq_error.1 h
  · left
    rw [Expr.parse?, ht]
    rfl
  · rw [Expr.parse?, ht, ok_bind]
    cases hf : Expr.ofTokens? false tokens with
    | ok tree =>
      rw [hf] at h
      cases h
    | error f' =>
      rw [hf] at h
      cases h
      obtain hx | hx := (Parser.ofTokens?_folded tokens).2 f' hf
      · rw [hx]
        exact .inl rfl
      · rw [hx]
        exact .inr rfl

/-- **Which texts are read with folding.** A text that is an expression is read with folding, to an
expression of the same meaning, if and only if no part of it is undefined; otherwise it is refused
for lack of a value. A text that is no expression fails alike, unless it lacks a value before. -/
theorem Expression.parse?_fold_outcome (source : String) :
    (∀ tree, Expression.parse? source false = .ok tree →
      ((∃ p, tree.root.Part p ∧ p.IsUndefined) →
        Expression.parse? source true = .error .mathDomain) ∧
      ((∀ p, tree.root.Part p → ¬ p.IsUndefined) →
        ∃ exp, Expression.parse? source true = .ok exp ∧ SameMeaning tree.root exp.root)) ∧
    ∀ f, Expression.parse? source false = .error f →
      Expression.parse? source true = .error f ∨
        Expression.parse? source true = .error .mathDomain := by
  constructor
  · intro tree h
    obtain ⟨root, hroot, ⟨⟩⟩ := bind_eq_ok.1 h
    rw [Expression.parse?, Expr.parse?_folded hroot]
    constructor
    · intro hp
      rw [Expr.folded_eq_error_iff.2 hp]
      rfl
    · intro hp
      cases he : root.folded with
      | ok e => exact ⟨⟨source, e⟩, rfl, (Expr.foldsTo_of_folded_eq_ok he).sameMeaning⟩
      | error f =>
        obtain ⟨-, p, hpart, hu⟩ := Expr.of_folded_eq_error he
        exact absurd hu (hp p hpart)
  · intro f h
    obtain h | ⟨_, -, ⟨⟩⟩ := bind_eq_error.1 h
    obtain h | h := Expr.parse?_error h
    · left
      rw [Expression.parse?, h]
      rfl
    · right
      rw [Expression.parse?, h]
      rfl

/-! ## An infinity -/

/-- The sine of one divided by zero. -/
def sineOfInfinity : Expr :=
  .call .sin [.binary .div (.literal (.plain 1.0) 4) (.literal (.plain 0.0) 6) 5] 0

set_option maxRecDepth 20000 in
theorem parse?_sineOfInfinity_false : Expr.parse? "sin(1/0)" false = .ok sineOfInfinity := by
  have ht : Token.tokensFrom 0 "sin(1/0)".toList = .ok [⟨.word, "sin", 0⟩, ⟨.symbol, "(", 3⟩,
      ⟨.number, "1", 4⟩, ⟨.symbol, "/", 5⟩, ⟨.number, "0", 6⟩, ⟨.symbol, ")", 7⟩,
      ⟨.finish, "", 8⟩] := by
    cbv
  have hone : IsPrefixed [⟨.number, "1", 4⟩] (.literal (.plain 1.0) 4) :=
    .primary (.number (t := ⟨.number, "1", 4⟩) rfl (by decide +kernel))
  have hzero : IsPrefixed [⟨.number, "0", 6⟩] (.literal (.plain 0.0) 6) :=
    .primary (.number (t := ⟨.number, "0", 6⟩) rfl (by decide +kernel))
  have hslash : Token.isSymbol ⟨.symbol, "/", 5⟩ BinaryOp.div.symbol = true := rfl
  have hopening : Token.isSymbol ⟨.symbol, "(", 3⟩ "(" = true := rfl
  have hclosing : Token.isSymbol ⟨.symbol, ")", 7⟩ ")" = true := rfl
  have hargs := IsArgs.some hopening (.one (isExpr_binary hone hslash hzero)) hclosing
  have hcall : IsPrimary _ sineOfInfinity :=
    .call (t := ⟨.word, "sin", 0⟩) (f := .sin) rfl rfl hargs (by decide) (by decide)
  exact parse?_iff.2 ⟨_, ht, _, ⟨.finish, "", 8⟩, rfl, rfl,
    ((IsPrefixed.primary hcall).isOperation .disjunction).isExpr⟩

/-- The quotient is a constant, and its sine is undefined. -/
theorem folded_sineOfInfinity : sineOfInfinity.folded = .error .mathDomain := by
  have hinf : (Number.quotient 1.0 0.0).isInf = true := by decide +kernel
  have hliteral (value : Result) (pos : Nat) : (Expr.literal value pos).IsConstant :=
    Expr.isConstant_iff.2 ⟨id, ⟨value, rfl⟩, nofun⟩
  refine Expr.folded_eq_error_iff.2 ⟨sineOfInfinity, .self, Expr.isUndefined_iff.2 ⟨?_, ?_⟩⟩
  · refine List.forall_mem_singleton.2 (Expr.isConstant_iff.2 ⟨id, ⟨_, rfl⟩, ?_⟩)
    exact List.forall_mem_cons.2 ⟨hliteral _ 4, List.forall_mem_singleton.2 (hliteral _ 6)⟩
  · exact .ofAngle (.inl rfl) rfl ⟨.inl rfl, hinf⟩

/-- **The sine of an infinity is an expression, but not with folding.** -/
theorem Expression.parse?_sineOfInfinity :
    Expression.parse? "sin(1/0)" false = .ok ⟨"sin(1/0)", sineOfInfinity⟩ ∧
      Expression.parse? "sin(1/0)" true = .error .mathDomain := by
  constructor
  · exact bind_eq_ok.2 ⟨_, parse?_sineOfInfinity_false, rfl⟩
  · rw [Expression.parse?, Expr.parse?_folded parse?_sineOfInfinity_false, folded_sineOfInfinity]
    rfl

end ModelInputs
