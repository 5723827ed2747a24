import ModelInputs.Proofs.Parser.Completeness

/-!
# What is read is derived

A reader that succeeds has taken the tokens of a derivation, and one that fails does so with an
error of the expression. The loop over operators keeps an invariant: what stands on the left is an
operand with operators in front of it, or an operation of some level behind which no operator of a
tighter level comes next. So the next operator finds a left operand of its own level.

* `Takes`: the tokens that a reader takes, and what they are;
* `Reads`: what an expression of operators tighter than a bound is in the grammar;
* `Grown`: the invariant of the loop, with `Grown.reads` where the loop ends and `Grown.binary`
  where it goes on;
* **`exprFrom_sound`** and its like: each reader takes the tokens of a derivation.
-/

namespace ModelInputs.Parser

/-! ## Taking tokens -/

/-- The tokens are those of `P` with the rest behind them. -/
def Takes {α : Type} (P : List Token → α → List Token → Prop) (tokens : List Token) :
    α × List Token → Prop
  | (a, rest) => ∃ us, tokens = us ++ rest ∧ P us a rest

variable {G : Failure → Prop}

/-- Every number among the tokens can be read, or that it cannot is a failure of `G`. -/
def Readable (G : Failure → Prop) (tokens : List Token) : Prop :=
  ∀ t ∈ tokens, t.kind = .number →
    (Number.readFloat? t.value).isSome ∨ G (.notANumber t.value)

theorem Readable.tail {t : Token} {ts : List Token} (h : Readable G (t :: ts)) : Readable G ts :=
  fun u hu => h u (List.mem_cons_of_mem t hu)

theorem Readable.rest {us ts : List Token} (h : Readable G (us ++ ts)) : Readable G ts :=
  fun u hu => h u (List.mem_append_right us hu)

theorem yields_failAt {α : Type} {P : α → Prop} {pos : Nat} {fault : ExprFault} :
    YieldsUnless G P (failAt pos fault) :=
  .inl ⟨_, rfl⟩

theorem yields_behind {s : String} {tokens : List Token} :
    YieldsUnless G (fun rest => ∃ t, tokens = t :: rest ∧ t.isSymbol s = true)
      (behind s tokens) := by
  cases tokens with
  | nil => exact yields_failAt
  | cons t rest =>
    rw [behind_cons]
    split
    · next ht => exact ⟨t, rfl, ht⟩
    split
    · exact yields_failAt
    · exact yields_failAt

theorem yields_checkArity {f : Function} {given pos : Nat} :
    YieldsUnless G (fun _ => f.minArgs ≤ given ∧ ∀ most, f.maxArgs = some most → given ≤ most)
      (checkArity f given pos) := by
  cases h : checkArity f given pos with
  | ok _ => exact checkArity_eq_ok.1 h
  | error failure =>
    unfold checkArity at h
    split at h
    · cases h
      exact .inl ⟨_, rfl⟩
    · split at h
      · split at h
        · cases h
          exact .inl ⟨_, rfl⟩
        · cases h
      · cases h

theorem numberFrom_sound {t : Token} {rest : List Token} (ht : t.kind = .number)
    (hr : Readable G (t :: rest)) :
    YieldsUnless G (Takes (fun us e _ => IsPrimary (t :: us) e) rest) (numberFrom t rest) := by
  cases hx : Number.readFloat? t.value with
  | none =>
    rcases hr t List.mem_cons_self ht with hsome | hg
    · rw [hx] at hsome
      cases hsome
    · simp only [numberFrom_eq, hx]
      exact .inr hg
  | some x =>
  simp only [numberFrom_eq, hx]
  cases rest with
  | nil => exact ⟨[], rfl, .number ht hx⟩
  | cons u rest =>
    simp only
    split
    · next hu =>
      cases hunit : PhysicalUnit.find? u.value with
      | none => exact yields_failAt
      | some unit => exact ⟨[u], rfl, .quantity ht hx hu hunit⟩
    · exact ⟨[], rfl, .number ht hx⟩

/-! ## The invariant of the loop -/

/-- What an expression of operators tighter than `least` is in the grammar. -/
structure Reads (least : Nat) (us : List Token) (e : Expr) : Prop where
  expr : IsExpr us e
  operation : 0 < least → ∀ l : Level,
    (∀ op : BinaryOp, least < op.strength → l.strength ≤ op.strength) → IsOperation l us e
  isPrefixed : UnaryOp.strength ≤ least → IsPrefixed us e

/-- What stands on the left in the loop: an operand, or an operation behind which no tighter
operator comes next. -/
inductive Grown (least : Nat) (ls : List Token) (left : Expr) (tokens : List Token) : Prop
  | operand (h : IsPrefixed ls left)
  | operation {l : Level} (hl : least < l.strength) (h : IsOperation l ls left)
      (hnext : AtMost l.guard tokens)

theorem Reads.of_isExpr {us : List Token} {e : Expr} (h : IsExpr us e) : Reads 0 us e :=
  ⟨h, nofun, nofun⟩

theorem Level.exists_op (l : Level) : ∃ op : BinaryOp, op.level = l := by
  cases l with
  | disjunction => exact ⟨.or, rfl⟩
  | conjunction => exact ⟨.and, rfl⟩
  | equality => exact ⟨.eq, rfl⟩
  | order => exact ⟨.lt, rfl⟩
  | sum => exact ⟨.add, rfl⟩
  | product => exact ⟨.mul, rfl⟩
  | power => exact ⟨.pow, rfl⟩

namespace Grown

variable {least : Nat} {ls tokens rest : List Token} {left : Expr} {t : Token}

/-- Where the loop ends, what stands on the left is an expression of tighter operators. -/
theorem reads (h : Grown least ls left tokens) : Reads least ls left := by
  cases h with
  | operand h => exact ⟨(h.isOperation .power).isExpr, fun _ l _ => h.isOperation l, fun _ => h⟩
  | @operation l hl h hnext =>
    refine ⟨h.isExpr, ?_, ?_⟩
    · intro _ l' hle
      obtain ⟨op, rfl⟩ := Level.exists_op l
      rw [op.strength_level] at hl
      exact h.mono (Nat.le_trans (hle op hl) (Nat.le_of_eq op.strength_level.symm))
    · intro hle
      have : 50 < l.strength := Nat.lt_of_le_of_lt hle hl
      have := l.strength_le_power
      omega

theorem disjunction (h : Grown least ls left tokens) : IsOperation .disjunction ls left := by
  cases h with
  | operand h => exact h.isOperation _
  | @operation l hl h hnext => exact h.mono (by cases l <;> decide)

/-- The next operator finds a left operand of its own level. -/
theorem isOperation {op : BinaryOp} (h : Grown least ls left (t :: rest))
    (ht : t.isSymbol op.symbol = true) : IsOperation op.level ls left := by
  cases h with
  | operand h => exact h.isOperation _
  | @operation l hl h hnext =>
    have := hnext t rfl op ht
    have := l.guard_le_strength
    exact h.mono (by rw [op.strength_level]; omega)

/-- A power finds an operand, since no power follows what already is one. -/
theorem isPrefixed (h : Grown least ls left (t :: rest))
    (ht : t.isSymbol BinaryOp.pow.symbol = true) : IsPrefixed ls left := by
  cases h with
  | operand h => exact h
  | @operation l hl h hnext =>
    have := hnext t rfl .pow ht
    exact absurd this (by cases l <;> decide)

/-- The loop goes on with the operation that the next operator makes. -/
theorem binary {op : BinaryOp} {rs rest₁ : List Token} {right : Expr}
    (h : Grown least ls left (t :: rest)) (ht : t.isSymbol op.symbol = true)
    (hl : least < op.strength) (hright : Reads op.rightStrength rs right)
    (hnext : AtMost op.rightStrength rest₁) :
    Grown least (ls ++ t :: rs) (.binary op left right t.pos) rest₁ := by
  rw [← op.strength_level] at hl
  rw [← op.guard_level] at hright hnext
  refine .operation hl ?_ hnext
  cases hl' : op.level.next? with
  | none =>
    obtain rfl : op = .pow := by
      revert hl'
      cases op <;> decide
    exact .power (h.isPrefixed ht) ht
      (hright.operation (by decide) .power fun op' h' => by revert h'; cases op' <;> decide)
  | some l' =>
    have hg := Level.guard_of_next? hl'
    refine .left rfl hl' (h.isOperation ht) ht (hright.operation ?_ l' ?_)
    · cases op <;> decide
    · intro op' hlt
      exact Level.next?_le_of_lt hl' (hg ▸ hlt)

end Grown

/-! ## What is read is derived -/

theorem atMost_nil {least : Nat} : AtMost least [] :=
  nofun

/-- A token that is no operator, or not a tighter one, ends the loop. -/
theorem atMost_cons {least : Nat} {t : Token} {rest : List Token}
    (h : ∀ op, t.kind = .symbol → BinaryOp.ofSymbol? t.value = some op → op.strength ≤ least) :
    AtMost least (t :: rest) := by
  rintro _ ⟨⟩ op hop
  obtain ⟨hk, hv⟩ := Token.isSymbol_iff.1 hop
  exact h op hk (BinaryOp.ofSymbol?_eq_some.2 hv)

/-- The loop may end in front of any token that is no tighter operator. -/
theorem Grown.done {least : Nat} {ls tokens : List Token} {left : Expr}
    (h : Grown least ls left tokens) (hmost : AtMost least tokens) :
    Takes (fun us e rest => Reads least (ls ++ us) e ∧ AtMost least rest) tokens (left, tokens) :=
  ⟨[], rfl, (List.append_nil ls).symm ▸ h.reads, hmost⟩

mutual

/-- **What is read as an expression is derived as one.** -/
theorem exprFrom_sound (least : Nat) {tokens : List Token} (hr : Readable G tokens) :
    YieldsUnless G (Takes (fun us e rest => Reads least us e ∧ AtMost least rest) tokens)
      (exprFrom false least tokens) := by
  rw [exprFrom_eq]
  refine (operandFrom_sound hr).bind ?_
  rintro ⟨left, rest⟩ hread ⟨us, htokens, hus⟩
  have := length_operandFrom hread
  rw [htokens] at hr
  refine (operatorsFrom_sound (.operand hus) hr.rest).mono ?_
  rintro ⟨e, rest'⟩ ⟨vs, hrest, he⟩
  refine ⟨us ++ vs, ?_, he⟩
  rw [htokens, hrest, List.append_assoc]
termination_by (tokens.length, 2)

theorem operatorsFrom_sound {least : Nat} {left : Expr} {ls tokens : List Token}
    (hg : Grown least ls left tokens) (hr : Readable G tokens) :
    YieldsUnless G (Takes (fun us e rest => Reads least (ls ++ us) e ∧ AtMost least rest) tokens)
      (operatorsFrom false least left tokens) := by
  cases tokens with
  | nil =>
    rw [operatorsFrom_nil]
    exact hg.done atMost_nil
  | cons t rest =>
    rw [operatorsFrom_cons]
    split
    · next hk => exact hg.done (atMost_cons fun _ hk' _ => absurd hk' hk)
    next hk =>
    have hk := Decidable.of_not_not hk
    split
    · next hv =>
      have ht : t.isSymbol "?" = true := Token.isSymbol_iff.2 ⟨hk, hv⟩
      split
      · refine hg.done (atMost_cons fun op _ hop => ?_)
        rw [hv] at hop
        cases hop
      · next hl =>
        obtain rfl : least = 0 := by omega
        refine (exprFrom_sound 0 hr.tail).bind ?_
        rintro ⟨a, rest₁⟩ h₁ ⟨as, hrest, ha, -⟩
        have := length_exprFrom h₁
        refine yields_behind.bind ?_
        rintro rest₂ h₂ ⟨colon, rfl, hcolon⟩
        rw [hrest] at hr
        refine (exprFrom_sound 0 hr.tail.rest.tail).bind ?_
        rintro ⟨b, rest₃⟩ - ⟨bs, rfl, hb, hmost⟩
        refine ⟨t :: (as ++ colon :: bs), ?_, .of_isExpr ?_, hmost⟩
        · rw [hrest, List.cons_append, List.append_assoc, List.cons_append]
        · exact .choice hg.disjunction ht ha.expr hcolon hb.expr
    · cases ho : BinaryOp.ofSymbol? t.value with
      | none =>
        refine hg.done (atMost_cons fun op _ hop => ?_)
        exact nomatch ho.symm.trans hop
      | some op =>
        have ht : t.isSymbol op.symbol = true :=
          Token.isSymbol_iff.2 ⟨hk, BinaryOp.ofSymbol?_eq_some.1 ho⟩
        simp only
        split
        · next hle =>
          refine hg.done (atMost_cons fun op' _ hop => ?_)
          cases ho.symm.trans hop
          exact hle
        · next hlt =>
          refine (exprFrom_sound op.rightStrength hr.tail).bind ?_
          rintro ⟨right, rest₁⟩ h₁ ⟨rs, hrest, hright, hnext⟩
          have := length_exprFrom h₁
          rw [hrest] at hr
          have hg' := hg.binary ht (Nat.not_le.1 hlt) hright hnext
          refine (operatorsFrom_sound hg' hr.tail.rest).mono ?_
          rintro ⟨e, rest₂⟩ ⟨us, hrest₁, he⟩
          refine ⟨t :: (rs ++ us), ?_, ?_⟩
          · rw [hrest, hrest₁, List.cons_append, List.append_assoc]
          · rw [List.append_assoc, List.cons_append] at he
            exact he
termination_by (tokens.length, 0)

theorem operandFrom_sound {tokens : List Token} (hr : Readable G tokens) :
    YieldsUnless G (Takes (fun us e _ => IsPrefixed us e) tokens) (operandFrom false tokens) := by
  cases tokens with
  | nil =>
    rw [operandFrom_nil]
    exact yields_failAt
  | cons t rest =>
    rw [operandFrom_cons]
    cases hk : t.kind with
    | number =>
      refine (numberFrom_sound hk hr).mono ?_
      rintro ⟨e, rest'⟩ ⟨us, rfl, h⟩
      exact ⟨t :: us, rfl, .primary h⟩
    | text => exact ⟨[t], rfl, .primary (.text hk)⟩
    | square =>
      simp only
      split
      · exact yields_failAt
      · next hv =>
        refine (chainFrom_sound (.entity (some t.value) t.pos) hr.tail).mono ?_
        rintro ⟨e, rest'⟩ ⟨us, rfl, h⟩
        exact ⟨t :: us, rfl, .primary (.entity hk hv h)⟩
    | word =>
      simp only
      split
      · next hv =>
        refine (chainFrom_sound (.entity none t.pos) hr.tail).mono ?_
        rintro ⟨e, rest'⟩ ⟨us, rfl, h⟩
        exact ⟨t :: us, rfl, .primary (.this hk hv h)⟩
      split
      · next hv => exact ⟨[t], rfl, .primary (.null hk hv)⟩
      · cases hf : Function.ofName? t.value with
        | none => exact yields_failAt
        | some f =>
          refine (argsFrom_sound hr.tail).bind ?_
          rintro ⟨args, rest'⟩ - ⟨us, rfl, h⟩
          refine yields_checkArity.bind ?_
          rintro - - ⟨hmin, hmax⟩
          exact ⟨t :: us, rfl,
            .primary (.call hk (Function.ofName?_eq_some.1 hf) h hmin hmax)⟩
    | symbol =>
      simp only
      split
      · next hv =>
        have ht : t.isSymbol "(" = true := Token.isSymbol_iff.2 ⟨hk, hv⟩
        refine (exprFrom_sound 0 hr.tail).bind ?_
        rintro ⟨e, rest₁⟩ - ⟨us, rfl, h, -⟩
        refine yields_behind.bind ?_
        rintro rest₂ - ⟨c, rfl, hc⟩
        refine ⟨t :: (us ++ [c]), ?_, .primary (.group ht h.expr hc)⟩
        rw [List.cons_append, List.append_assoc, List.singleton_append]
      · cases ho : UnaryOp.ofSymbol? t.value with
        | some op =>
          have ht : t.isSymbol op.symbol = true :=
            Token.isSymbol_iff.2 ⟨hk, UnaryOp.ofSymbol?_eq_some.1 ho⟩
          refine (exprFrom_sound UnaryOp.strength hr.tail).bind ?_
          rintro ⟨e, rest'⟩ - ⟨us, rfl, h, -⟩
          exact ⟨t :: us, rfl, .operator ht (h.isPrefixed (Nat.le_refl _))⟩
        | none =>
          simp only
          split
          · next hv =>
            have ht : t.isSymbol "\x7b" = true := Token.isSymbol_iff.2 ⟨hk, hv⟩
            refine (collectionFrom_sound ht hr.tail).mono ?_
            rintro ⟨e, rest'⟩ ⟨us, rfl, h⟩
            exact ⟨t :: us, rfl, .primary h⟩
          · exact yields_failAt
    | finish => exact yields_failAt
termination_by (tokens.length, 1)

theorem chainFrom_sound (target : Expr) {tokens : List Token} (hr : Readable G tokens) :
    YieldsUnless G (Takes (fun us e _ => IsChain target us e) tokens)
      (chainFrom false target tokens) := by
  cases tokens with
  | nil =>
    rw [chainFrom_nil]
    exact ⟨[], rfl, .done⟩
  | cons t rest =>
    rw [chainFrom_cons]
    split
    · next ht =>
      cases rest with
      | nil => exact yields_failAt
      | cons name rest =>
        simp only
        split
        · next hname =>
          refine (chainFrom_sound (.output target name.value name.pos) hr.tail.tail).mono ?_
          rintro ⟨e, rest'⟩ ⟨us, rfl, h⟩
          exact ⟨t :: name :: us, rfl, .output ht hname h⟩
        · exact yields_failAt
    split
    · next hi =>
      obtain ⟨ht, hi⟩ := Bool.and_eq_true_iff.1 hi
      refine (exprFrom_sound 0 hr.tail).bind ?_
      rintro ⟨i, rest₁⟩ h₁ ⟨is, hrest, h, -⟩
      have := length_exprFrom h₁
      refine yields_behind.bind ?_
      rintro rest₂ - ⟨c, rfl, hc⟩
      rw [hrest] at hr
      refine (chainFrom_sound (.index target i t.pos) hr.tail.rest.tail).mono ?_
      rintro ⟨e, rest₃⟩ ⟨us, rfl, he⟩
      refine ⟨t :: (is ++ c :: us), ?_, .index hi ht h.expr hc he⟩
      rw [hrest, List.cons_append, List.append_assoc, List.cons_append]
    · exact ⟨[], rfl, .done⟩
termination_by (tokens.length, 0)

theorem argsFrom_sound {tokens : List Token} (hr : Readable G tokens) :
    YieldsUnless G (Takes (fun us args _ => IsArgs us args) tokens) (argsFrom false tokens) := by
  rw [argsFrom_eq]
  refine yields_behind.bind ?_
  rintro rest - ⟨o, rfl, ho⟩
  split
  · refine yields_behind.bind ?_
    rintro rest' - ⟨c, rfl, hc⟩
    exact ⟨[o, c], rfl, .none ho hc⟩
  · refine (itemsFrom_sound hr.tail).bind ?_
    rintro ⟨args, rest₁⟩ - ⟨us, rfl, h⟩
    refine yields_behind.bind ?_
    rintro rest₂ - ⟨c, rfl, hc⟩
    refine ⟨o :: (us ++ [c]), ?_, .some ho h hc⟩
    rw [List.cons_append, List.append_assoc, List.singleton_append]
termination_by (tokens.length, 0)

theorem collectionFrom_sound {o : Token} (ho : o.isSymbol "\x7b" = true) :
    ∀ {tokens : List Token}, Readable G tokens →
      YieldsUnless G (Takes (fun us e _ => IsPrimary (o :: us) e) tokens)
        (collectionFrom false o.pos tokens)
  | [], _ => by
    rw [collectionFrom_nil]
    exact yields_failAt
  | t :: rest, hr => by
    rw [collectionFrom_cons]
    split
    · next hc => exact ⟨[t], rfl, .emptyArray ho hc⟩
    split
    · refine (entriesFrom_sound [] hr).bind ?_
      rintro ⟨entries, rest₁⟩ - ⟨us, hrest, h, hkeys, -⟩
      refine yields_behind.bind ?_
      rintro rest₂ - ⟨c, rfl, hc⟩
      refine ⟨us ++ [c], ?_, .map ho h hkeys hc⟩
      rw [hrest, List.append_assoc, List.singleton_append]
    · refine (itemsFrom_sound hr).bind ?_
      rintro ⟨items, rest₁⟩ - ⟨us, hrest, h⟩
      refine yields_behind.bind ?_
      rintro rest₂ - ⟨c, rfl, hc⟩
      refine ⟨us ++ [c], ?_, .array ho h hc⟩
      rw [hrest, List.append_assoc, List.singleton_append]
termination_by tokens => (tokens.length, 4)

theorem itemsFrom_sound {tokens : List Token} (hr : Readable G tokens) :
    YieldsUnless G (Takes (fun us items _ => IsItems us items) tokens)
      (itemsFrom false tokens) := by
  rw [itemsFrom_eq]
  refine (exprFrom_sound 0 hr).bind ?_
  rintro ⟨item, rest⟩ h₁ ⟨us, htokens, h, -⟩
  have := length_exprFrom h₁
  cases rest with
  | nil => exact ⟨us, htokens, .one h.expr⟩
  | cons t rest =>
    simp only
    split
    · next ht =>
      have : rest.length < tokens.length := by
        simp only [List.length_cons] at this
        omega
      rw [htokens] at hr
      refine (itemsFrom_sound hr.rest.tail).bind ?_
      rintro ⟨items, rest'⟩ - ⟨vs, hrest, hs⟩
      refine ⟨us ++ t :: vs, ?_, .more h.expr ht hs⟩
      rw [htokens, hrest, List.append_assoc, List.cons_append]
    · exact ⟨us, htokens, .one h.expr⟩
termination_by (tokens.length, 3)

theorem entriesFrom_sound (seen : List String) {tokens : List Token} (hr : Readable G tokens) :
    YieldsUnless G (Takes (fun us entries _ => IsEntries us entries ∧ (entries.map (·.1)).Nodup ∧
        ∀ key ∈ entries.map (·.1), key ∉ seen) tokens)
      (entriesFrom false seen tokens) := by
  cases tokens with
  | nil =>
    rw [entriesFrom_nil]
    exact yields_failAt
  | cons key rest =>
    rw [entriesFrom_cons]
    split
    · exact yields_failAt
    next hkey =>
    have hkey := Decidable.of_not_not hkey
    split
    · exact yields_failAt
    · next hnew =>
      rw [List.contains_iff_mem] at hnew
      refine yields_behind.bind ?_
      rintro rest₁ - ⟨colon, rfl, hcolon⟩
      refine (exprFrom_sound 0 hr.tail.tail).bind ?_
      rintro ⟨value, rest₂⟩ h₂ ⟨us, hrest, h, -⟩
      have := length_exprFrom h₂
      have hone : Takes (fun us entries _ => IsEntries us entries ∧ (entries.map (·.1)).Nodup ∧
          ∀ key ∈ entries.map (·.1), key ∉ seen) (key :: colon :: rest₁)
          ([(key.value, value)], rest₂) := by
        refine ⟨key :: colon :: us, ?_, .one hkey hcolon h.expr, List.pairwise_singleton _ _, ?_⟩
        · rw [hrest, List.cons_append, List.cons_append]
        · intro k hk
          rw [List.mem_singleton.1 hk]
          exact hnew
      cases rest₂ with
      | nil => exact hone
      | cons t rest₃ =>
        simp only
        split
        · next ht =>
          have : rest₃.length < rest₁.length := by
            simp only [List.length_cons] at this
            omega
          rw [hrest] at hr
          refine (entriesFrom_sound (key.value :: seen) hr.tail.tail.rest.tail).bind ?_
          rintro ⟨entries, rest₄⟩ - ⟨vs, hrest₃, hs, hnodup, hseen⟩
          refine ⟨key :: colon :: (us ++ t :: vs), ?_, .more hkey hcolon h.expr ht hs, ?_, ?_⟩
          · rw [hrest, hrest₃, List.cons_append, List.cons_append, List.append_assoc,
              List.cons_append]
          · refine List.nodup_cons.2 ⟨fun hmem => ?_, hnodup⟩
            exact hseen _ hmem List.mem_cons_self
          · intro k hk
            rcases List.mem_cons.1 hk with rfl | hk
            · exact hnew
            · exact fun hmem => hseen k hk (List.mem_cons_of_mem _ hmem)
        · exact hone
termination_by (tokens.length, 0)

end

end ModelInputs.Parser
