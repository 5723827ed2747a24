import ModelInputs.Proofs.Outcome
import ModelInputs.Proofs.Parser.Grammar
import ModelInputs.Proofs.Parser.Readers

/-!
# The end token

The tokens of a text end with the only end token among them. The readers stop there: no reader takes
the end token, so what stands behind it is never looked at, and the outcome does not depend on it.

* **`tokensFrom_finish`**: the tokens of a text and their end token;
* `HasFinish`, `Extends`: the same outcome with more tokens behind the rest;
* **`exprFrom_extends`** and its like: a reader has the same outcome whatever stands behind the end
  token.
-/

namespace ModelInputs

/-! ## The tokens of a text -/

/-- One end token at the end, and none before it. -/
def EndsOnce (tokens : List Token) : Prop :=
  ∃ ts finish, tokens = ts ++ [finish] ∧ finish.kind = .finish ∧ NoFinish ts

theorem EndsOnce.cons {tokens : List Token} {k : TokenKind} {value : String} {pos : Nat}
    (h : EndsOnce tokens) (hk : k ≠ .finish := by decide) :
    EndsOnce (⟨k, value, pos⟩ :: tokens) := by
  obtain ⟨ts, finish, rfl, hf, hts⟩ := h
  exact ⟨⟨k, value, pos⟩ :: ts, finish, rfl, hf, hts.cons rfl hk⟩

namespace Token

/-- **The tokens of a text end with their only end token.** -/
theorem tokensFrom_finish {pos : Nat} {cs : List Char} {tokens : List Token}
    (h : tokensFrom pos cs = .ok tokens) : EndsOnce tokens := by
  fun_induction tokensFrom pos cs generalizing tokens with
  | case1 =>
    cases h
    exact ⟨[], _, rfl, rfl, .nil⟩
  | case2 | case4 =>
    rename_i ih
    exact ih h
  | case3 | case5 | case8 | case9 | case11 | case15 => cases h
  | case6 | case7 | case10 | case12 | case13 | case14 =>
    rename_i ih
    obtain ⟨ts, hts, ht⟩ := bind_eq_ok.1 h
    cases ht
    exact (ih hts).cons

theorem tokenize_finish {source : String} {tokens : List Token}
    (h : tokenize source = .ok tokens) : EndsOnce tokens := by
  rw [tokenize] at h
  cases ht : tokensFrom 0 source.toList with
  | error f =>
    rw [ht] at h
    cases h
  | ok ts =>
    rw [ht] at h
    cases h
    exact tokensFrom_finish ht

end Token

namespace Parser

/-! ## The same outcome with more tokens behind -/

/-- The end token is still to come. -/
def HasFinish (tokens : List Token) : Prop :=
  ∃ t ∈ tokens, t.kind = .finish

theorem not_hasFinish_nil : ¬ HasFinish [] := by
  rintro ⟨t, ht, -⟩
  cases ht

/-- A token of another kind is not the end token. -/
theorem HasFinish.tail {t : Token} {rest : List Token} {k : TokenKind}
    (h : HasFinish (t :: rest)) (ht : t.kind = k) (hk : k ≠ .finish := by decide) :
    HasFinish rest := by
  obtain ⟨u, hu, hf⟩ := h
  rcases List.mem_cons.1 hu with rfl | hu
  · exact absurd (ht.symm.trans hf) hk
  · exact ⟨u, hu, hf⟩

theorem HasFinish.behind {t : Token} {rest : List Token} {s : String}
    (h : HasFinish (t :: rest)) (ht : t.isSymbol s = true) : HasFinish rest :=
  h.tail (Token.isSymbol_iff.1 ht).1

/-- The same failure, or the same result with the end token among the rest and more tokens behind
it. -/
inductive Extends (junk : List Token) {α : Type} :
    Except Failure (α × List Token) → Except Failure (α × List Token) → Prop
  | error (f : Failure) : Extends junk (.error f) (.error f)
  | ok (a : α) {rest : List Token} (h : HasFinish rest) :
    Extends junk (.ok (a, rest)) (.ok (a, rest ++ junk))

section Extends

variable {junk : List Token} {α β : Type}

theorem Extends.bind {x y : Except Failure (α × List Token)}
    {k k' : α × List Token → Except Failure (β × List Token)} (h : Extends junk x y)
    (hk : ∀ a rest, x = .ok (a, rest) → HasFinish rest →
      Extends junk (k (a, rest)) (k' (a, rest ++ junk))) :
    Extends junk (x >>= k) (y >>= k') := by
  cases h with
  | error f => exact .error f
  | ok a hr => exact hk a _ rfl hr

/-- The same computation stands in front of both. -/
theorem Extends.bind_same {x : Except Failure α} {k k' : α → Except Failure (β × List Token)}
    (hk : ∀ a, Extends junk (k a) (k' a)) : Extends junk (x >>= k) (x >>= k') := by
  cases x with
  | error f => exact .error f
  | ok a => exact hk a

/-- What looks at no token behind the end token does not tell the two apart. -/
theorem Extends.bind_eq {x y : Except Failure (α × List Token)}
    {k : α × List Token → Except Failure β}
    (h : Extends junk x y) (hk : ∀ a rest, HasFinish rest → k (a, rest ++ junk) = k (a, rest)) :
    y >>= k = x >>= k := by
  cases h with
  | error f => rfl
  | ok a hr => exact hk a _ hr

theorem Extends.bind_behind {s : String} {tokens : List Token} (h : HasFinish tokens)
    {k k' : List Token → Except Failure (β × List Token)}
    (hk : ∀ rest, behind s tokens = .ok rest → HasFinish rest →
      Extends junk (k rest) (k' (rest ++ junk))) :
    Extends junk (behind s tokens >>= k) (behind s (tokens ++ junk) >>= k') := by
  cases tokens with
  | nil => exact absurd h not_hasFinish_nil
  | cons t rest =>
    rw [List.cons_append]
    rw [behind_cons] at hk
    rw [behind_cons, behind_cons]
    split
    · next ht => exact hk rest (if_pos ht) (h.behind ht)
    split
    · exact .error _
    · exact .error _

end Extends

/-! ## No reader looks behind the end token -/

theorem nextIs_append {s : String} {rest junk : List Token} (h : HasFinish rest) :
    nextIs s (rest ++ junk) = nextIs s rest := by
  cases rest with
  | nil => exact absurd h not_hasFinish_nil
  | cons t rest => rfl

variable {junk : List Token} {fold : Bool}

theorem numberFrom_extends {t : Token} {rest : List Token} (h : HasFinish rest) :
    Extends junk (numberFrom t rest) (numberFrom t (rest ++ junk)) := by
  rw [numberFrom_eq, numberFrom_eq]
  cases Number.readFloat? t.value with
  | none => exact .error _
  | some x =>
    cases rest with
    | nil => exact absurd h not_hasFinish_nil
    | cons u rest =>
      rw [List.cons_append]
      simp only
      split
      · next hu =>
        cases PhysicalUnit.find? u.value with
        | none => exact .error _
        | some unit => exact .ok _ (h.tail hu)
      · exact .ok _ h

mutual

/-- **The outcome of reading an expression does not depend on what stands behind the end token.** -/
theorem exprFrom_extends (least : Nat) {tokens : List Token} (h : HasFinish tokens) :
    Extends junk (exprFrom fold least tokens) (exprFrom fold least (tokens ++ junk)) := by
  rw [exprFrom_eq, exprFrom_eq]
  refine (operandFrom_extends h).bind ?_
  intro left rest hread hrest
  have := length_operandFrom hread
  exact operatorsFrom_extends least left hrest
termination_by (tokens.length, 2)

theorem operatorsFrom_extends (least : Nat) (left : Expr) :
    ∀ {tokens : List Token}, HasFinish tokens →
      Extends junk (operatorsFrom fold least left tokens)
        (operatorsFrom fold least left (tokens ++ junk))
  | [], h => absurd h not_hasFinish_nil
  | t :: rest, h => by
    rw [List.cons_append, operatorsFrom_cons, operatorsFrom_cons]
    split
    · exact .ok left h
    next hk =>
    have hrest := h.tail (Decidable.of_not_not hk)
    split
    · split
      · exact .ok left h
      · refine (exprFrom_extends 0 hrest).bind ?_
        intro a rest₁ h₁ hrest₁
        have := length_exprFrom h₁
        refine .bind_behind hrest₁ ?_
        intro rest₂ h₂ hrest₂
        have := length_behind h₂
        refine (exprFrom_extends 0 hrest₂).bind ?_
        intro b rest₃ _ hrest₃
        refine .bind_same fun e => ?_
        exact .ok e hrest₃
    · cases BinaryOp.ofSymbol? t.value with
      | none => exact .ok left h
      | some op =>
        simp only
        split
        · exact .ok left h
        · refine (exprFrom_extends op.rightStrength hrest).bind ?_
          intro right rest₁ h₁ hrest₁
          have := length_exprFrom h₁
          refine .bind_same fun e => ?_
          exact operatorsFrom_extends least e hrest₁
termination_by tokens => (tokens.length, 0)

theorem operandFrom_extends {tokens : List Token} (h : HasFinish tokens) :
    Extends junk (operandFrom fold tokens) (operandFrom fold (tokens ++ junk)) := by
  cases tokens with
  | nil => exact absurd h not_hasFinish_nil
  | cons t rest =>
    rw [List.cons_append, operandFrom_cons, operandFrom_cons]
    cases hk : t.kind with
    | number => exact numberFrom_extends (h.tail hk)
    | text => exact .ok _ (h.tail hk)
    | square =>
      have hrest := h.tail hk
      simp only
      split
      · exact .error _
      · exact chainFrom_extends _ hrest
    | word =>
      have hrest := h.tail hk
      simp only
      split
      · exact chainFrom_extends _ hrest
      split
      · exact .ok _ hrest
      · cases Function.ofName? t.value with
        | none => exact .error _
        | some f =>
          refine (argsFrom_extends hrest).bind ?_
          intro args rest' _ hrest'
          refine .bind_same fun _ => ?_
          refine .bind_same fun e => ?_
          exact .ok e hrest'
    | symbol =>
      have hrest := h.tail hk
      simp only
      split
      · refine (exprFrom_extends 0 hrest).bind ?_
        intro e rest₁ _ hrest₁
        refine .bind_behind hrest₁ ?_
        intro rest₂ _ hrest₂
        exact .ok e hrest₂
      · cases UnaryOp.ofSymbol? t.value with
        | some op =>
          refine (exprFrom_extends UnaryOp.strength hrest).bind ?_
          intro operand rest' _ hrest'
          refine .bind_same fun e => ?_
          exact .ok e hrest'
        | none =>
          simp only
          split
          · exact collectionFrom_extends t.pos hrest
          · exact .error _
    | finish => exact .error _
termination_by (tokens.length, 1)

theorem chainFrom_extends (target : Expr) :
    ∀ {tokens : List Token}, HasFinish tokens →
      Extends junk (chainFrom fold target tokens) (chainFrom fold target (tokens ++ junk))
  | [], h => absurd h not_hasFinish_nil
  | t :: rest, h => by
    rw [List.cons_append, chainFrom_cons, chainFrom_cons]
    split
    · next ht =>
      have hrest := h.behind ht
      cases rest with
      | nil => exact absurd hrest not_hasFinish_nil
      | cons name rest =>
        rw [List.cons_append]
        simp only
        split
        · next hname => exact chainFrom_extends _ (hrest.tail hname)
        · exact .error _
    split
    · next hi =>
      have hrest := h.behind (Bool.and_eq_true_iff.1 hi).1
      refine (exprFrom_extends 0 hrest).bind ?_
      intro i rest₁ h₁ hrest₁
      have := length_exprFrom h₁
      refine .bind_behind hrest₁ ?_
      intro rest₂ h₂ hrest₂
      have := length_behind h₂
      exact chainFrom_extends _ hrest₂
    · exact .ok target h
termination_by tokens => (tokens.length, 0)

theorem argsFrom_extends {tokens : List Token} (h : HasFinish tokens) :
    Extends junk (argsFrom fold tokens) (argsFrom fold (tokens ++ junk)) := by
  rw [argsFrom_eq, argsFrom_eq]
  refine .bind_behind h ?_
  intro rest hread hrest
  have := length_behind hread
  rw [nextIs_append hrest]
  split
  · refine .bind_behind hrest ?_
    intro rest' _ hrest'
    exact .ok [] hrest'
  · refine (itemsFrom_extends hrest).bind ?_
    intro args rest₁ _ hrest₁
    refine .bind_behind hrest₁ ?_
    intro rest₂ _ hrest₂
    exact .ok args hrest₂
termination_by (tokens.length, 0)

theorem collectionFrom_extends (pos : Nat) :
    ∀ {tokens : List Token}, HasFinish tokens →
      Extends junk (collectionFrom fold pos tokens) (collectionFrom fold pos (tokens ++ junk))
  | [], h => absurd h not_hasFinish_nil
  | t :: rest, h => by
    rw [List.cons_append, collectionFrom_cons, collectionFrom_cons]
    split
    · next ht => exact .ok _ (h.behind ht)
    have hentry : (t.kind = .text ∧ nextIs ":" (rest ++ junk) = true) ↔
        (t.kind = .text ∧ nextIs ":" rest = true) :=
      and_congr_right fun hk => by rw [nextIs_append (h.tail hk)]
    simp only [hentry]
    split
    · refine (entriesFrom_extends [] h).bind ?_
      intro entries rest₁ _ hrest₁
      refine .bind_behind hrest₁ ?_
      intro rest₂ _ hrest₂
      refine .bind_same fun e => ?_
      exact .ok e hrest₂
    · refine (itemsFrom_extends h).bind ?_
      intro items rest₁ _ hrest₁
      refine .bind_behind hrest₁ ?_
      intro rest₂ _ hrest₂
      refine .bind_same fun e => ?_
      exact .ok e hrest₂
termination_by tokens => (tokens.length, 4)

theorem itemsFrom_extends {tokens : List Token} (h : HasFinish tokens) :
    Extends junk (itemsFrom fold tokens) (itemsFrom fold (tokens ++ junk)) := by
  rw [itemsFrom_eq, itemsFrom_eq]
  refine (exprFrom_extends 0 h).bind ?_
  intro item rest hread hrest
  have := length_exprFrom hread
  cases rest with
  | nil => exact absurd hrest not_hasFinish_nil
  | cons t rest =>
    rw [List.cons_append]
    simp only
    split
    · next ht =>
      have : rest.length < tokens.length := by
        simp only [List.length_cons] at this
        omega
      refine (itemsFrom_extends (hrest.behind ht)).bind ?_
      intro items rest' _ hrest'
      exact .ok _ hrest'
    · exact .ok _ hrest
termination_by (tokens.length, 3)

theorem entriesFrom_extends (seen : List String) :
    ∀ {tokens : List Token}, HasFinish tokens →
      Extends junk (entriesFrom fold seen tokens) (entriesFrom fold seen (tokens ++ junk))
  | [], h => absurd h not_hasFinish_nil
  | key :: rest, h => by
    rw [List.cons_append, entriesFrom_cons, entriesFrom_cons]
    split
    · exact .error _
    next hkey =>
    have hrest := h.tail (Decidable.of_not_not hkey)
    split
    · exact .error _
    · refine .bind_behind hrest ?_
      intro rest₁ h₁ hrest₁
      have := length_behind h₁
      refine (exprFrom_extends 0 hrest₁).bind ?_
      intro value rest₂ h₂ hrest₂
      have := length_exprFrom h₂
      cases rest₂ with
      | nil => exact absurd hrest₂ not_hasFinish_nil
      | cons t rest₃ =>
        rw [List.cons_append]
        simp only
        split
        · next ht =>
          have : rest₃.length < rest.length := by
            simp only [List.length_cons] at this
            omega
          refine (entriesFrom_extends (key.value :: seen) (hrest₂.behind ht)).bind ?_
          intro entries rest₄ _ hrest₄
          exact .ok _ hrest₄
        · exact .ok _ hrest₂
termination_by tokens => (tokens.length, 0)

end

/-- Nothing behind the end token changes the expression of the tokens. -/
theorem ofTokens?_append {tokens : List Token} (h : HasFinish tokens) :
    Expr.ofTokens? fold (tokens ++ junk) = Expr.ofTokens? fold tokens := by
  rw [ofTokens?_eq, ofTokens?_eq]
  refine (exprFrom_extends 0 h).bind_eq ?_
  intro e rest hrest
  cases rest with
  | nil => exact absurd hrest not_hasFinish_nil
  | cons t rest => rfl

end Parser

end ModelInputs
