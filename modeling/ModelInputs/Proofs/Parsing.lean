import Mathlib.Data.List.Permutation
import ModelInputs.Proofs.Parser.Finish
import ModelInputs.Proofs.Parser.Soundness

/-!
# Reading is exact

A text is an expression if and only if its tokens are those of one in the grammar, and then it is
the expression of the derivation. The grammar is not ambiguous, since a reader takes the tokens of
every derivation in the same way. All other texts are refused with an error of the expression, and
nothing behind the end token has a part in it.

* `ofTokens?_of_derives`, `derives_of_ofTokens?`: both directions for the tokens of a text;
* `Derives.unique`: the tokens have one tree at most;
* **`parse?_exact`**: what a text of readable numbers is read as.
-/

namespace ModelInputs

open ModelInputs.Parser

/-- The tokens of a derivation are read as its tree. -/
theorem ofTokens?_of_derives {tokens : List Token} {e : Expr} (h : Derives tokens e) :
    Expr.ofTokens? false tokens = .ok e := by
  obtain ⟨ts, finish, rfl, hf, he⟩ := h
  rw [ofTokens?_eq, exprFrom_of_isExpr he (stops_of_finish hf), ok_bind]
  exact if_pos hf

/-- The tokens have one tree at most. -/
theorem Derives.unique {tokens : List Token} {e e' : Expr} (h : Derives tokens e)
    (h' : Derives tokens e') : e = e' :=
  Except.ok.inj ((ofTokens?_of_derives h).symm.trans (ofTokens?_of_derives h'))

theorem EndsOnce.hasFinish {tokens : List Token} (h : EndsOnce tokens) : HasFinish tokens := by
  obtain ⟨ts, finish, rfl, hf, -⟩ := h
  exact ⟨finish, List.mem_append_right ts (List.mem_singleton_self finish), hf⟩

/-- Nothing stands behind the end token of a text. -/
theorem EndsOnce.eq_nil {us rest : List Token} {t : Token} (h : EndsOnce (us ++ t :: rest))
    (ht : t.kind = .finish) : rest = [] := by
  obtain ⟨ts, finish, heq, -, hts⟩ := h
  rcases List.eq_nil_or_concat rest with hnil | ⟨rest', last, rfl⟩
  · exact hnil
  · rw [List.concat_eq_append] at heq
    have hcons : us ++ t :: (rest' ++ [last]) = (us ++ t :: rest') ++ [last] := by
      rw [List.append_assoc, List.cons_append]
    obtain ⟨rfl, -⟩ := List.append_inj' (hcons.symm.trans heq) rfl
    exact absurd ht (hts t (List.mem_append_right us List.mem_cons_self))

/-- Tokens that are read make the expression of a derivation, and all others an error, which may
also be that a number cannot be read. -/
theorem ofTokens?_yields {G : Failure → Prop} {tokens : List Token} (hend : EndsOnce tokens)
    (hr : Readable G tokens) :
    YieldsUnless G (Derives tokens) (Expr.ofTokens? false tokens) := by
  rw [ofTokens?_eq]
  refine (exprFrom_sound 0 hr).bind ?_
  rintro ⟨e, rest⟩ - ⟨us, rfl, he, -⟩
  cases rest with
  | nil =>
    rw [List.append_nil] at hend
    obtain ⟨t, ht, hf⟩ := hend.hasFinish
    exact absurd hf (he.expr.not_finish t ht)
  | cons t rest =>
    simp only
    split
    · next ht =>
      rw [hend.eq_nil ht]
      exact ⟨us, t, rfl, ht, he.expr⟩
    · exact yields_failAt

/-- Tokens whose numbers can be read make the expression of a derivation or give an error of the
expression. -/
theorem ofTokens?_sound {tokens : List Token} (hend : EndsOnce tokens)
    (hr : ∀ t ∈ tokens, t.kind = .number → (Number.readFloat? t.value).isSome) :
    Yields (Derives tokens) (Expr.ofTokens? false tokens) :=
  (ofTokens?_yields hend fun t ht hn => .inl (hr t ht hn)).yields

/-- What the tokens of a text are read as is the tree of a derivation. -/
theorem derives_of_ofTokens? {tokens : List Token} {e : Expr} (hend : EndsOnce tokens)
    (h : Expr.ofTokens? false tokens = .ok e) : Derives tokens e := by
  have hy := ofTokens?_yields (G := fun _ => True) hend fun _ _ _ => .inr trivial
  rw [h] at hy
  exact hy

/-- **A text is read exactly as the grammar derives it.** If its numbers can be read, it is an
expression if and only if its tokens have a derivation, which then has the same tree, and this is
the only one; otherwise it is refused with an error of the expression. What stands behind the end
token is never looked at. -/
theorem parse?_exact {source : String} {tokens : List Token}
    (ht : Token.tokenize source = .ok tokens)
    (hr : ∀ t ∈ tokens, t.kind = .number → (Number.readFloat? t.value).isSome) :
    (∀ e, Expr.parse? source false = .ok e ↔ Derives tokens e) ∧
      (∀ e e', Derives tokens e → Derives tokens e' → e = e') ∧
      ((¬ ∃ e, Derives tokens e) →
        ∃ error, Expr.parse? source false = .error (.expression error)) ∧
      ∀ junk, Expr.ofTokens? false (tokens ++ junk) = Expr.ofTokens? false tokens := by
  have hend := Token.tokenize_finish ht
  have hparse : Expr.parse? source false = anchored source (Expr.ofTokens? false tokens) := by
    rw [Expr.parse?, ht]
    rfl
  have hsound := (ofTokens?_sound hend hr).anchored source
  rw [← hparse] at hsound
  refine ⟨fun e => ⟨fun h => ?_, fun h => ?_⟩, fun e e' h h' => h.unique h', fun hne => ?_,
    fun junk => ofTokens?_append hend.hasFinish⟩
  · rw [h] at hsound
    exact hsound
  · rw [hparse, ofTokens?_of_derives h]
    rfl
  · cases hp : Expr.parse? source false with
    | ok e =>
      rw [hp] at hsound
      exact absurd ⟨e, hsound⟩ hne
    | error failure =>
      rw [hp] at hsound
      obtain ⟨error, rfl⟩ := hsound
      exact ⟨error, rfl⟩

set_option maxRecDepth 20000 in
/-- Numbers and texts between operators of three levels. -/
theorem parse?_exact_operators :
    ∃ tokens,
      Token.tokenize "1+\"a\"^2*\"b\"" = .ok tokens ∧
      (∀ t ∈ tokens, t.kind = .number → (Number.readFloat? t.value).isSome) ∧
      (∀ e, Expr.parse? "1+\"a\"^2*\"b\"" false = .ok e ↔ Derives tokens e) ∧
      (∀ e e', Derives tokens e → Derives tokens e' → e = e') ∧
      ((¬ ∃ e, Derives tokens e) →
        ∃ error, Expr.parse? "1+\"a\"^2*\"b\"" false = .error (.expression error)) ∧
      ∀ junk, Expr.ofTokens? false (tokens ++ junk) = Expr.ofTokens? false tokens := by
  have ht : Token.tokenize "1+\"a\"^2*\"b\"" =
      .ok [⟨.number, "1", 0⟩, ⟨.symbol, "+", 1⟩, ⟨.text, "a", 2⟩, ⟨.symbol, "^", 5⟩,
        ⟨.number, "2", 6⟩, ⟨.symbol, "*", 7⟩, ⟨.text, "b", 8⟩, ⟨.finish, "", 11⟩] := by
    cbv
  have hr : ∀ t ∈ ([⟨.number, "1", 0⟩, ⟨.symbol, "+", 1⟩, ⟨.text, "a", 2⟩, ⟨.symbol, "^", 5⟩,
      ⟨.number, "2", 6⟩, ⟨.symbol, "*", 7⟩, ⟨.text, "b", 8⟩, ⟨.finish, "", 11⟩] : List Token),
      t.kind = .number → (Number.readFloat? t.value).isSome := by
    decide
  exact ⟨_, ht, hr, parse?_exact ht hr⟩

end ModelInputs
