import ModelInputs.Proofs.Evaluated

/-!
# The laws of the logical operators

The operators `&&`, `||` and `!` and the choice share one notion of truth. An expression holds or
does not hold if its result is a number, whatever the unit type, and it does not hold exactly for
zero. Nothing else of an operand matters to a logical operator, and its right operand is evaluated
only where the left one leaves the truth value open. So the operators can be written as choices, a
negation moves into its operand, and the branches of a choice change places under a negation. The
failures need not be the same, because every operator has its own words and position for them.

* `Expr.Decides`: the truth values that are the results of an expression;
* `Expr.decides_not`, `Expr.decides_logical`, `Expr.Decides.cond`: the operators, one by one;
* `Expr.evaluates_right`, `Expr.evaluates_then`, `Expr.evaluates_else`: the operands that are not
  always evaluated;
* `Interchangeable`: the same result, and the same operands evaluated;
* `Expr.and_asChoice`, `Expr.or_asChoice`, `Expr.not_logical`, `Expr.cond_not`: each law;
* **`Expr.logical_laws`**: the five laws.
-/

namespace ModelInputs

theorem UnaryOp.apply_not_eq_ok {r r' : Result} :
    UnaryOp.not.apply r = .ok r' ↔ ∃ b, r.truth = .ok b ∧ r' = .ofBool !b := by
  cases r with
  | number x u =>
    have hnot : (x == 0.0) = !(x != 0.0) := by rw [bne, Bool.not_not]
    show Except.ok (Result.ofBool (x == 0.0)) = Except.ok r' ↔
      ∃ b, Except.ok (x != 0.0) = Except.ok b ∧ r' = .ofBool !b
    rw [hnot]
    constructor
    · rintro ⟨⟩
      exact ⟨_, rfl, rfl⟩
    · rintro ⟨_, ⟨⟩, rfl⟩
      rfl
  | _ =>
    constructor
    · nofun
    · rintro ⟨_, ⟨⟩, -⟩

namespace Expr

variable {env : Env} {a b c : Expr} {pos : Nat} {r : Result}

/-! ## Results that are truth values -/

/-- The results of the expression are the truth values for which `P` holds. -/
def Decides (env : Env) (e : Expr) (P : Bool → Prop) : Prop :=
  ∀ r, e.eval env = .ok r ↔ ∃ v, P v ∧ r = .ofBool v

theorem Decides.holds_iff {P : Bool → Prop} {v : Bool} (h : a.Decides env P) :
    a.Holds env v ↔ P v := by
  constructor
  · rintro ⟨r, hr, hv⟩
    obtain ⟨w, hw, rfl⟩ := (h r).1 hr
    rw [Result.truth_ofBool] at hv
    cases hv
    exact hw
  · intro hv
    exact ⟨.ofBool v, (h _).2 ⟨v, hv, rfl⟩, Result.truth_ofBool v⟩

theorem Decides.sameResult {P Q : Bool → Prop} (ha : a.Decides env P) (hb : b.Decides env Q)
    (h : ∀ v, P v ↔ Q v) : SameResult (a.eval env) (b.eval env) := by
  rw [sameResult_iff]
  intro r
  rw [ha r, hb r]
  exact exists_congr fun v => and_congr_left fun _ => h v

theorem decides_not : (unary .not a pos).Decides env fun v => a.Holds env !v := by
  intro r
  rw [eval_unary_eq_ok]
  constructor
  · rintro ⟨x, hx, h⟩
    obtain ⟨v, hv, rfl⟩ := UnaryOp.apply_not_eq_ok.1 h
    exact ⟨!v, ⟨x, hx, by rw [Bool.not_not, hv]⟩, rfl⟩
  · rintro ⟨v, ⟨x, hx, hv⟩, rfl⟩
    exact ⟨x, hx, UnaryOp.apply_not_eq_ok.2 ⟨!v, hv, by rw [Bool.not_not]⟩⟩

theorem holds_not {v : Bool} : (unary .not a pos).Holds env v ↔ a.Holds env !v :=
  decides_not.holds_iff

/-- A logical operator stops at its left operand or takes the truth value of its right one. -/
theorem decides_logical {op : BinaryOp} {stop : Bool} (hop : op.stop? = some stop) :
    (binary op a b pos).Decides env fun v =>
      a.Holds env stop ∧ v = stop ∨ a.Holds env (!stop) ∧ b.Holds env v := by
  intro r
  rw [eval_logical hop, bind_eq_ok]
  constructor
  · rintro ⟨l, hl, h⟩
    rw [test_eq_ok] at hl
    by_cases hstop : l = stop
    · rw [if_pos hstop] at h
      cases h
      exact ⟨stop, .inl ⟨hstop ▸ hl, rfl⟩, rfl⟩
    · rw [if_neg hstop, bind_eq_ok] at h
      obtain ⟨v, hv, ⟨⟩⟩ := h
      exact ⟨v, .inr ⟨Bool.eq_not.2 hstop ▸ hl, test_eq_ok.1 hv⟩, rfl⟩
  · rintro ⟨v, ⟨hl, rfl⟩ | ⟨hl, hv⟩, rfl⟩
    · exact ⟨v, test_eq_ok.2 hl, if_pos rfl⟩
    · refine ⟨!stop, test_eq_ok.2 hl, ?_⟩
      rw [if_neg (Bool.not_eq_self stop).1, test_eq_ok.2 hv]
      rfl

theorem holds_logical {op : BinaryOp} {stop v : Bool} (hop : op.stop? = some stop) :
    (binary op a b pos).Holds env v ↔
      a.Holds env stop ∧ v = stop ∨ a.Holds env (!stop) ∧ b.Holds env v :=
  (decides_logical hop).holds_iff

theorem eval_cond_eq_ok_iff :
    (cond c a b pos).eval env = .ok r ↔
      c.Holds env true ∧ a.eval env = .ok r ∨ c.Holds env false ∧ b.eval env = .ok r := by
  rw [eval_cond_eq, bind_eq_ok, Bool.exists_bool, test_eq_ok, test_eq_ok, or_comm]
  rfl

theorem Decides.cond {P Q : Bool → Prop} (ha : a.Decides env P) (hb : b.Decides env Q) :
    (cond c a b pos).Decides env fun v => c.Holds env true ∧ P v ∨ c.Holds env false ∧ Q v := by
  intro r
  rw [eval_cond_eq_ok_iff, ha r, hb r, ← exists_and_left, ← exists_and_left, ← exists_or]
  exact exists_congr fun v => by rw [← and_assoc, ← and_assoc, or_and_right]

/-- The literal `1`. -/
def one (pos : Nat) : Expr :=
  literal (.plain 1.0) pos

/-- The literal `0`. -/
def zero (pos : Nat) : Expr :=
  literal (.plain 0.0) pos

theorem decides_one : (one pos).Decides env (· = true) := by
  intro r
  rw [exists_eq_left, one, eval_literal, Except.ok.injEq, eq_comm]
  rfl

theorem decides_zero : (zero pos).Decides env (· = false) := by
  intro r
  rw [exists_eq_left, zero, eval_literal, Except.ok.injEq, eq_comm]
  rfl

/-- The truth value of an expression, as a choice. -/
theorem decides_cond_one_zero {i j : Nat} :
    (cond b (one i) (zero j) pos).Decides env (b.Holds env) := by
  intro r
  rw [decides_one.cond decides_zero r]
  refine exists_congr fun v => and_congr_left fun _ => ?_
  cases v <;> simp

/-! ## Evaluated operands -/

theorem evaluates_cons {e x : Expr} {i : Nat} {place : List Nat} (h : e.children[i]? = some x) :
    e.Evaluates env (i :: place) ↔ e.TurnsTo env i ∧ x.Evaluates env place := by
  refine and_congr_right fun _ => ?_
  constructor
  · rintro ⟨y, hy, hplace⟩
    cases h.symm.trans hy
    exact hplace
  · intro hplace
    exact ⟨x, h, hplace⟩

/-- Every evaluation turns to the first child. -/
theorem evaluates_first {e x : Expr} {place : List Nat} (h : e.children[0]? = some x) :
    e.Evaluates env (0 :: place) ↔ x.Evaluates env place := by
  have hturn : e.TurnsTo env 0 := by
    cases e with
    | _ => exact List.forall_mem_nil _
  rw [evaluates_cons h, and_iff_right hturn]

theorem evaluates_right {op : BinaryOp} {stop : Bool} (hop : op.stop? = some stop)
    {place : List Nat} :
    (binary op a b pos).Evaluates env (1 :: place) ↔
      a.Holds env (!stop) ∧ b.Evaluates env place := by
  rw [evaluates_cons rfl, turnsTo_right hop]

theorem evaluates_then {place : List Nat} :
    (cond c a b pos).Evaluates env (1 :: place) ↔ c.Holds env true ∧ a.Evaluates env place :=
  evaluates_cons rfl

theorem evaluates_else {place : List Nat} :
    (cond c a b pos).Evaluates env (2 :: place) ↔ c.Holds env false ∧ b.Evaluates env place :=
  evaluates_cons rfl

end Expr

/-! ## Interchangeable expressions -/

/-- A part that two expressions have in common, and its place in either. -/
structure CommonPart where
  /-- the part -/
  part : Expr
  /-- the place in the one expression -/
  place : List Nat
  /-- the place in the other expression -/
  place' : List Nat

/-- Two expressions have the same result or both fail, and of the common parts their evaluations
come to the same ones. -/
structure Interchangeable (env : Env) (e e' : Expr) (common : List CommonPart) : Prop where
  same : SameResult (e.eval env) (e'.eval env)
  stand : ∀ x ∈ common, e.partAt? x.place = some x.part ∧ e'.partAt? x.place' = some x.part
  evaluated : ∀ x ∈ common, e.Evaluates env x.place ↔ e'.Evaluates env x.place'

namespace Expr

variable {env : Env} {a b c : Expr} {i j k l m n : Nat}

/-- A conjunction as a choice. -/
theorem and_asChoice :
    Interchangeable env (binary .and a b i) (cond a (cond b (one j) (zero k) l) (zero m) n)
      [⟨b, [1], [1, 0]⟩] where
  same := (decides_logical rfl).sameResult (decides_cond_one_zero.cond decides_zero)
    fun v => or_comm
  stand := List.forall_mem_singleton.2 ⟨rfl, rfl⟩
  evaluated := by
    rw [List.forall_mem_singleton, evaluates_right rfl, evaluates_then, evaluates_first rfl]
    rfl

/-- A disjunction as a choice. -/
theorem or_asChoice :
    Interchangeable env (binary .or a b i) (cond a (one j) (cond b (one k) (zero l) m) n)
      [⟨b, [1], [2, 0]⟩] where
  same := (decides_logical rfl).sameResult (decides_one.cond decides_cond_one_zero)
    fun v => Iff.rfl
  stand := List.forall_mem_singleton.2 ⟨rfl, rfl⟩
  evaluated := by
    rw [List.forall_mem_singleton, evaluates_right rfl, evaluates_else, evaluates_first rfl]
    rfl

/-- A negation moves into a conjunction or a disjunction, which becomes the other one. -/
theorem not_logical {op op' : BinaryOp} {stop : Bool} (hop : op.stop? = some stop)
    (hop' : op'.stop? = some !stop) :
    Interchangeable env (unary .not (binary op a b i) j)
      (binary op' (unary .not a k) (unary .not b l) m) [⟨b, [0, 1], [1, 0]⟩] where
  same := decides_not.sameResult (decides_logical hop') fun v => by
    rw [holds_logical hop, holds_not, holds_not, holds_not, Bool.not_not, Bool.not_eq_eq_eq_not]
  stand := List.forall_mem_singleton.2 ⟨rfl, rfl⟩
  evaluated := by
    rw [List.forall_mem_singleton, evaluates_first rfl, evaluates_right hop, evaluates_right hop',
      evaluates_first rfl, holds_not, Bool.not_not]

/-- The branches of a choice change places under a negation. -/
theorem cond_not :
    Interchangeable env (cond a b c i) (cond (unary .not a j) c b k)
      [⟨b, [1], [2]⟩, ⟨c, [2], [1]⟩] where
  same := by
    rw [sameResult_iff]
    intro r
    rw [eval_cond_eq_ok_iff, eval_cond_eq_ok_iff, holds_not, holds_not, or_comm]
    rfl
  stand := List.forall_mem_cons.2 ⟨⟨rfl, rfl⟩, List.forall_mem_singleton.2 ⟨rfl, rfl⟩⟩
  evaluated := by
    rw [List.forall_mem_cons, List.forall_mem_singleton, evaluates_then, evaluates_else,
      evaluates_else, evaluates_then, holds_not, holds_not]
    exact ⟨Iff.rfl, Iff.rfl⟩

/-- Conjunctions and disjunctions are choices between `1` and `0`, De Morgan's laws hold, and a
negated condition exchanges the branches of a choice; the operands that may be left out are
evaluated on the one side exactly if they are on the other. -/
theorem logical_laws (env : Env) (a b c : Expr) (i j k l m n : Nat) :
    Interchangeable env
      (binary .and a b i) (cond a (cond b (one j) (zero k) l) (zero m) n) [⟨b, [1], [1, 0]⟩] ∧
    Interchangeable env
      (binary .or a b i) (cond a (one j) (cond b (one k) (zero l) m) n) [⟨b, [1], [2, 0]⟩] ∧
    Interchangeable env
      (unary .not (binary .and a b i) j) (binary .or (unary .not a k) (unary .not b l) m)
      [⟨b, [0, 1], [1, 0]⟩] ∧
    Interchangeable env
      (unary .not (binary .or a b i) j) (binary .and (unary .not a k) (unary .not b l) m)
      [⟨b, [0, 1], [1, 0]⟩] ∧
    Interchangeable env
      (cond a b c i) (cond (unary .not a j) c b k) [⟨b, [1], [2]⟩, ⟨c, [2], [1]⟩] :=
  ⟨and_asChoice, or_asChoice, not_logical rfl rfl, not_logical rfl rfl, cond_not⟩

end Expr

end ModelInputs
