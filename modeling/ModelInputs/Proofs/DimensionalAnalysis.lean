import ModelInputs.Proofs.Grouping
import ModelInputs.Proofs.Selection
import ModelInputs.Proofs.Unit.Inference

/-!
# Dimensional analysis

A formula is made of numbers by signs, sums, differences, products, quotients, remainders, choices,
roundings and the greatest or smallest of several numbers. Its dimension can be found without
knowing any rule for unit types: a number has the dimension of its unit type, a product has the sum
and a quotient the difference of the dimensions of both operands, a choice has that of the branch
that is taken, and everything else asks for operands of one dimension, which it keeps. Wherever the
evaluation of a formula succeeds, it has kept to this.

* `Expr.IsFormula`, `Expr.NeedsOneDimension`: formulas, and the operations on like numbers;
* `Expr.HasDimension`: the dimension of an expression along the branches that are taken;
* `BinaryOp.apply_additive`, `selectBest_numbers`: one operation on like numbers;
* **`Expr.IsFormula.eval_dimension`**, **`Expr.IsFormula.operands_dimension`**: all formulas;
* **`World.evaluate_dimension`**: formulas in a world, folded or not.
-/

namespace ModelInputs

/-- The operator keeps the size of a number, or the number itself. -/
abbrev UnaryOp.IsSign (op : UnaryOp) : Prop :=
  op = .neg ∨ op = .pos

/-- The operator is made for numbers of one dimension. -/
abbrev BinaryOp.IsAdditive (op : BinaryOp) : Prop :=
  op = .add ∨ op = .sub ∨ op = .mod

/-- The function takes one number and keeps its unit type. -/
abbrev Function.IsRounding (f : Function) : Prop :=
  f = .abs ∨ f = .ceil ∨ f = .floor

/-- The function yields one of several numbers of one dimension. -/
abbrev Function.IsSelection (f : Function) : Prop :=
  f = .max ∨ f = .min

theorem Function.IsRounding.not_isSelection {f : Function} (hf : f.IsRounding) :
    ¬ f.IsSelection := by
  obtain rfl | rfl | rfl := hf <;> decide

namespace Expr

/-! ## Formulas -/

/-- The expression is made of numbers by arithmetic, choices, roundings and selections. -/
inductive IsFormula : Expr → Prop where
  | number {x : Float} {u : UnitType} {pos : Nat} : IsFormula (literal (.number x u) pos)
  | sign {op : UnaryOp} {operand : Expr} {pos : Nat} :
    op.IsSign → IsFormula operand → IsFormula (unary op operand pos)
  | additive {op : BinaryOp} {left right : Expr} {pos : Nat} :
    op.IsAdditive → IsFormula left → IsFormula right → IsFormula (binary op left right pos)
  | product {left right : Expr} {pos : Nat} :
    IsFormula left → IsFormula right → IsFormula (binary .mul left right pos)
  | quotient {left right : Expr} {pos : Nat} :
    IsFormula left → IsFormula right → IsFormula (binary .div left right pos)
  | choice {condition thenExpr elseExpr : Expr} {pos : Nat} :
    IsFormula condition → IsFormula thenExpr → IsFormula elseExpr →
    IsFormula (cond condition thenExpr elseExpr pos)
  | rounding {f : Function} {arg : Expr} {pos : Nat} :
    f.IsRounding → IsFormula arg → IsFormula (call f [arg] pos)
  | selection {f : Function} {args : List Expr} {pos : Nat} :
    f.IsSelection → (∀ arg ∈ args, IsFormula arg) → IsFormula (call f args pos)

theorem IsFormula.of_mem_children {e c : Expr} (he : e.IsFormula) (hc : c ∈ e.children) :
    c.IsFormula := by
  cases he with
  | number => cases hc
  | sign _ ho =>
    obtain rfl := List.mem_singleton.1 hc
    exact ho
  | additive _ hl hr | product hl hr | quotient hl hr =>
    simp only [children, List.mem_cons, List.not_mem_nil, or_false] at hc
    obtain rfl | rfl := hc
    · exact hl
    · exact hr
  | choice htest hthen helse =>
    simp only [children, List.mem_cons, List.not_mem_nil, or_false] at hc
    obtain rfl | rfl | rfl := hc
    · exact htest
    · exact hthen
    · exact helse
  | rounding _ ha =>
    obtain rfl := List.mem_singleton.1 hc
    exact ha
  | selection _ ha => exact ha c hc

/-- The parts of a formula are formulas. -/
theorem IsFormula.of_part {e p : Expr} (he : e.IsFormula) (hp : e.Part p) : p.IsFormula := by
  induction hp with
  | self => exact he
  | child _ hc ih => exact ih.of_mem_children hc

/-- The node is an operation on numbers of one dimension. -/
def NeedsOneDimension : Expr → Prop
  | binary op .. => op.IsAdditive
  | call f .. => f.IsSelection
  | _ => False

/-! ## The dimension of a formula -/

/-- Dimensional analysis gives the expression this dimension, with choices taken as they are
evaluated. -/
inductive HasDimension (env : Env) : Expr → Dimension → Prop where
  | number {x : Float} {u : UnitType} {pos : Nat} :
    HasDimension env (literal (.number x u) pos) u.dimension
  | sign {op : UnaryOp} {operand : Expr} {d : Dimension} {pos : Nat} :
    op.IsSign → HasDimension env operand d → HasDimension env (unary op operand pos) d
  | additive {op : BinaryOp} {left right : Expr} {d : Dimension} {pos : Nat} :
    op.IsAdditive → HasDimension env left d → HasDimension env right d →
    HasDimension env (binary op left right pos) d
  | product {left right : Expr} {d d' : Dimension} {pos : Nat} :
    HasDimension env left d → HasDimension env right d' →
    HasDimension env (binary .mul left right pos) (d + d')
  | quotient {left right : Expr} {d d' : Dimension} {pos : Nat} :
    HasDimension env left d → HasDimension env right d' →
    HasDimension env (binary .div left right pos) (d - d')
  | choice {condition thenExpr elseExpr : Expr} {test : Result} {b : Bool} {d d' : Dimension}
    {pos : Nat} :
    HasDimension env condition d' → condition.eval env = .ok test → test.truth = .ok b →
    HasDimension env (if b then thenExpr else elseExpr) d →
    HasDimension env (cond condition thenExpr elseExpr pos) d
  | rounding {f : Function} {arg : Expr} {d : Dimension} {pos : Nat} :
    f.IsRounding → HasDimension env arg d → HasDimension env (call f [arg] pos) d
  | selection {f : Function} {args : List Expr} {d : Dimension} {pos : Nat} :
    f.IsSelection → args ≠ [] → (∀ arg ∈ args, HasDimension env arg d) →
    HasDimension env (call f args pos) d

variable {env : Env}

/-- An expression has one dimension at most. -/
theorem HasDimension.unique {e : Expr} {d d' : Dimension} (h : e.HasDimension env d)
    (h' : e.HasDimension env d') : d = d' := by
  induction h generalizing d' with
  | number =>
    cases h'
    rfl
  | sign _ _ ih =>
    cases h' with
    | sign _ h' => exact ih h'
  | additive hop _ _ ih _ =>
    cases h' with
    | additive _ hl _ => exact ih hl
    | product | quotient => exact absurd hop (by decide)
  | product _ _ ihl ihr =>
    cases h' with
    | additive hop => exact absurd hop (by decide)
    | product hl hr => rw [ihl hl, ihr hr]
  | quotient _ _ ihl ihr =>
    cases h' with
    | additive hop => exact absurd hop (by decide)
    | quotient hl hr => rw [ihl hl, ihr hr]
  | choice _ htest hb _ _ ih =>
    cases h' with
    | choice _ htest' hb' h' =>
      cases htest.symm.trans htest'
      cases hb.symm.trans hb'
      exact ih h'
  | rounding hf _ ih =>
    cases h' with
    | rounding _ h' => exact ih h'
    | selection hf' => exact absurd hf' hf.not_isSelection
  | selection hf hne _ ih =>
    cases h' with
    | rounding hf' => exact absurd hf hf'.not_isSelection
    | selection _ _ h' =>
      obtain ⟨arg, harg⟩ := List.exists_mem_of_ne_nil _ hne
      exact ih arg harg (h' arg harg)

end Expr

/-! ## One operation -/

theorem UnaryOp.apply_sign {op : UnaryOp} (hop : op.IsSign) {x : Float} {u : UnitType}
    {res : Result} (h : op.apply (.number x u) = .ok res) : ∃ y, res = .number y u := by
  obtain rfl | rfl := hop
  · cases h
    exact ⟨-x, rfl⟩
  · cases h
    exact ⟨x, rfl⟩

/-- Sums, differences and remainders are of numbers of one unit type, which they have too. -/
theorem BinaryOp.apply_additive {op : BinaryOp} (hop : op.IsAdditive) {x y : Float}
    {u v : UnitType} {res : Result} (h : op.apply (.number x u) (.number y v) = .ok res) :
    u = v ∧ ∃ z, res = .number z u := by
  obtain rfl | rfl | rfl := hop
  · obtain ⟨⟨⟩, hsame, ⟨⟩⟩ := (bind_eq_ok (x := sameUnit u v)).1 h
    exact ⟨sameUnit_eq_ok.1 hsame, _, rfl⟩
  · obtain ⟨⟨⟩, hsame, ⟨⟩⟩ := (bind_eq_ok (x := sameUnit u v)).1 h
    exact ⟨sameUnit_eq_ok.1 hsame, _, rfl⟩
  · obtain ⟨⟨⟩, hsame, h⟩ := (bind_eq_ok (x := sameUnit u v)).1 h
    refine ⟨sameUnit_eq_ok.1 hsame, ?_⟩
    split at h
    · cases h
      exact ⟨_, rfl⟩
    · split at h
      · cases h
        exact ⟨_, rfl⟩
      · cases h

theorem Function.apply_rounding {f : Function} (hf : f.IsRounding) {x : Float} {u : UnitType}
    {res : Result} (h : f.apply [.number x u] = .ok res) : ∃ y, res = .number y u := by
  obtain rfl | rfl | rfl := hf <;> cases h <;> exact ⟨_, rfl⟩

/-- The best of several numbers is looked for among numbers of one unit type, which it has too. -/
theorem selectBest_numbers {f : Function} {beats : Float → Float → Bool} {rs : List Result}
    {res : Result} (hrs : ∀ r ∈ rs, ∃ x u, r = .number x u) (h : selectBest f beats rs = .ok res) :
    rs ≠ [] ∧ ∃ u, (∃ x, res = .number x u) ∧ ∀ r ∈ rs, ∃ x, r = .number x u := by
  obtain ⟨⟨u, x, xs⟩, hs, ⟨⟩⟩ := bind_eq_ok.1 h
  unfold sameUnitNumbers at hs
  split at hs
  · -- a single array is no number
    obtain ⟨_, _, ⟨⟩⟩ := hrs _ (List.mem_singleton.2 rfl)
  · cases rs with
    | nil => cases hs
    | cons first rs =>
      obtain ⟨⟨y, v⟩, hy, hs⟩ := bind_eq_ok.1 hs
      obtain ⟨ys, hys, ⟨⟩⟩ := bind_eq_ok.1 hs
      obtain rfl := Result.number?_eq_ok.1 hy
      obtain rfl := numbersOf_eq_ok.1 hys
      refine ⟨nofun, u, ⟨_, rfl⟩, List.forall_mem_cons.2 ⟨⟨x, rfl⟩, ?_⟩⟩
      exact List.forall_mem_map.2 fun y _ => ⟨y, rfl⟩

theorem Function.apply_selection {f : Function} (hf : f.IsSelection) {rs : List Result}
    {res : Result} (hrs : ∀ r ∈ rs, ∃ x u, r = .number x u) (h : f.apply rs = .ok res) :
    rs ≠ [] ∧ ∃ u, (∃ x, res = .number x u) ∧ ∀ r ∈ rs, ∃ x, r = .number x u := by
  obtain rfl | rfl := hf <;> exact selectBest_numbers hrs h

/-! ## All formulas -/

namespace Expr

variable {env : Env}

theorem eval_additive_eq_ok {op : BinaryOp} {left right : Expr} {pos : Nat} {res : Result}
    (hop : op.IsAdditive) (h : (binary op left right pos).eval env = .ok res) :
    ∃ l r, left.eval env = .ok l ∧ right.eval env = .ok r ∧ op.apply l r = .ok res := by
  refine eval_binary_eq_ok h ?_ ?_
  · rintro rfl
    exact absurd hop (by decide)
  · rintro rfl
    exact absurd hop (by decide)

theorem eval_cond_eq_ok {condition thenExpr elseExpr : Expr} {pos : Nat} {res : Result}
    (h : (cond condition thenExpr elseExpr pos).eval env = .ok res) :
    ∃ test b, condition.eval env = .ok test ∧ test.truth = .ok b ∧
      (if b then thenExpr else elseExpr).eval env = .ok res := by
  obtain ⟨test, htest, h⟩ := bind_eq_ok.1 h
  obtain ⟨b, hb, h⟩ := bind_eq_ok.1 h
  refine ⟨test, b, htest, mapError_eq_ok.1 hb, ?_⟩
  cases b <;> exact h

/-- The results of some expressions are those of each of them. -/
theorem evalItems_eq_ok {items : List Expr} {rs : List Result} (h : evalItems env items = .ok rs) :
    (∀ r ∈ rs, ∃ item ∈ items, item.eval env = .ok r) ∧
      ∀ item ∈ items, ∃ r ∈ rs, item.eval env = .ok r := by
  induction items generalizing rs with
  | nil =>
    cases h
    exact ⟨List.forall_mem_nil _, List.forall_mem_nil _⟩
  | cons item items ih =>
    obtain ⟨first, hfirst, h⟩ := bind_eq_ok.1 h
    obtain ⟨rest, hrest, ⟨⟩⟩ := bind_eq_ok.1 h
    obtain ⟨hof, hin⟩ := ih hrest
    constructor
    · refine List.forall_mem_cons.2 ⟨⟨item, .head _, hfirst⟩, fun r hr => ?_⟩
      obtain ⟨item', hitem', hr'⟩ := hof r hr
      exact ⟨item', .tail _ hitem', hr'⟩
    · refine List.forall_mem_cons.2 ⟨⟨first, .head _, hfirst⟩, fun item' hitem' => ?_⟩
      obtain ⟨r, hr, hr'⟩ := hin item' hitem'
      exact ⟨r, .tail _ hr, hr'⟩

/-- A selection among expressions that yield numbers succeeds only if these are of one unit type. -/
theorem eval_selection_eq_ok {f : Function} {args : List Expr} {pos : Nat} {res : Result}
    (hf : f.IsSelection)
    (hargs : ∀ arg ∈ args, ∀ r, arg.eval env = .ok r → ∃ x u, r = .number x u)
    (h : (call f args pos).eval env = .ok res) :
    args ≠ [] ∧ ∃ u, (∃ x, res = .number x u) ∧
      ∀ arg ∈ args, ∃ x, arg.eval env = .ok (.number x u) := by
  obtain ⟨rs, hrs, h⟩ := eval_call_eq_ok.1 h
  obtain ⟨hof, hin⟩ := evalItems_eq_ok hrs
  have hnumbers : ∀ r ∈ rs, ∃ x u, r = .number x u := by
    intro r hr
    obtain ⟨arg, harg, hvalue⟩ := hof r hr
    exact hargs arg harg r hvalue
  obtain ⟨hne, u, hres, hall⟩ := Function.apply_selection hf hnumbers h
  refine ⟨?_, u, hres, ?_⟩
  · rintro rfl
    cases hrs
    exact hne rfl
  · intro arg harg
    obtain ⟨r, hr, hvalue⟩ := hin arg harg
    obtain ⟨x, rfl⟩ := hall r hr
    exact ⟨x, hvalue⟩

/-- **The value of a formula has the dimension of the formula.** -/
theorem IsFormula.eval_dimension {e : Expr} (he : e.IsFormula) {res : Result}
    (h : e.eval env = .ok res) : ∃ x u, res = .number x u ∧ e.HasDimension env u.dimension := by
  induction he generalizing res with
  | @number x u pos =>
    cases h
    exact ⟨x, u, rfl, .number⟩
  | sign hop _ ih =>
    obtain ⟨r, hr, h⟩ := eval_unary_eq_ok.1 h
    obtain ⟨x, u, rfl, hd⟩ := ih hr
    obtain ⟨y, rfl⟩ := UnaryOp.apply_sign hop h
    exact ⟨y, u, rfl, .sign hop hd⟩
  | additive hop _ _ ihl ihr =>
    obtain ⟨l, r, hl, hr, h⟩ := eval_additive_eq_ok hop h
    obtain ⟨x, u, rfl, hu⟩ := ihl hl
    obtain ⟨y, v, rfl, hv⟩ := ihr hr
    obtain ⟨rfl, z, rfl⟩ := BinaryOp.apply_additive hop h
    exact ⟨z, u, rfl, .additive hop hu hv⟩
  | product _ _ ihl ihr =>
    obtain ⟨l, r, hl, hr, h⟩ := eval_binary_eq_ok h nofun nofun
    obtain ⟨x, u, y, v, w, rfl, rfl, hw, rfl⟩ := BinaryOp.product_eq_ok h
    obtain ⟨_, _, ⟨⟩, hu⟩ := ihl hl
    obtain ⟨_, _, ⟨⟩, hv⟩ := ihr hr
    refine ⟨_, w, rfl, ?_⟩
    rw [UnitType.dimension_mul? hw]
    exact .product hu hv
  | quotient _ _ ihl ihr =>
    obtain ⟨l, r, hl, hr, h⟩ := eval_binary_eq_ok h nofun nofun
    obtain ⟨x, u, y, v, w, rfl, rfl, hw, rfl⟩ := BinaryOp.quotient_eq_ok h
    obtain ⟨_, _, ⟨⟩, hu⟩ := ihl hl
    obtain ⟨_, _, ⟨⟩, hv⟩ := ihr hr
    refine ⟨_, w, rfl, ?_⟩
    rw [UnitType.dimension_div? hw]
    exact .quotient hu hv
  | choice _ _ _ ihc iht ihe =>
    obtain ⟨test, b, htest, hb, h⟩ := eval_cond_eq_ok h
    obtain ⟨_, _, -, hcondition⟩ := ihc htest
    cases b with
    | true =>
      obtain ⟨x, u, rfl, hu⟩ := iht h
      exact ⟨x, u, rfl, .choice hcondition htest hb hu⟩
    | false =>
      obtain ⟨x, u, rfl, hu⟩ := ihe h
      exact ⟨x, u, rfl, .choice hcondition htest hb hu⟩
  | rounding hf _ ih =>
    obtain ⟨_, hrs, h⟩ := eval_call_eq_ok.1 h
    obtain ⟨r, hr, hrs⟩ := bind_eq_ok.1 hrs
    obtain ⟨_, ⟨⟩, ⟨⟩⟩ := bind_eq_ok.1 hrs
    obtain ⟨x, u, rfl, hd⟩ := ih hr
    obtain ⟨y, rfl⟩ := Function.apply_rounding hf h
    exact ⟨y, u, rfl, .rounding hf hd⟩
  | @selection f args pos hf _ ih =>
    have hargs : ∀ arg ∈ args, ∀ r, arg.eval env = .ok r → ∃ x u, r = .number x u := by
      intro arg harg r hr
      obtain ⟨x, u, hres, -⟩ := ih arg harg hr
      exact ⟨x, u, hres⟩
    obtain ⟨hne, u, ⟨x, rfl⟩, hvalues⟩ := eval_selection_eq_ok hf hargs h
    refine ⟨x, u, rfl, .selection hf hne ?_⟩
    intro arg harg
    obtain ⟨y, hy⟩ := hvalues arg harg
    obtain ⟨_, _, ⟨⟩, hd⟩ := ih arg harg hy
    exact hd

theorem IsFormula.eval_number {e : Expr} (he : e.IsFormula) {res : Result}
    (h : e.eval env = .ok res) : ∃ x u, res = .number x u := by
  obtain ⟨x, u, hres, -⟩ := he.eval_dimension h
  exact ⟨x, u, hres⟩

/-- **Operations on like numbers are of one dimension**: where one of them succeeds in a formula,
all of its operands have values of one dimension. -/
theorem IsFormula.operands_dimension {e : Expr} (he : e.IsFormula) (hneeds : e.NeedsOneDimension)
    {res : Result} (h : e.eval env = .ok res) :
    ∃ d, ∀ c ∈ e.children, ∃ x u, c.eval env = .ok (.number x u) ∧ u.dimension = d := by
  cases he with
  | number | sign | choice => cases hneeds
  | product | quotient =>
    have hop : BinaryOp.IsAdditive _ := hneeds
    exact absurd hop (by decide)
  | rounding hf => exact absurd hneeds hf.not_isSelection
  | additive hop hel her =>
    obtain ⟨l, r, hl, hr, h⟩ := eval_additive_eq_ok hop h
    obtain ⟨x, u, rfl⟩ := hel.eval_number hl
    obtain ⟨y, v, rfl⟩ := her.eval_number hr
    obtain ⟨rfl, -⟩ := BinaryOp.apply_additive hop h
    refine ⟨u.dimension, List.forall_mem_cons.2 ⟨⟨x, u, hl, rfl⟩, ?_⟩⟩
    exact List.forall_mem_singleton.2 ⟨y, u, hr, rfl⟩
  | selection hf ha =>
    obtain ⟨-, u, -, hvalues⟩ :=
      eval_selection_eq_ok hf (fun arg harg r hr => (ha arg harg).eval_number hr) h
    refine ⟨u.dimension, fun arg harg => ?_⟩
    obtain ⟨x, hx⟩ := hvalues arg harg
    exact ⟨x, u, hx, rfl⟩

end Expr

/-! ## Formulas in a world -/

/-- The expression is the tree as it stands, or with its constant parts folded while its text was
read. -/
def Expression.Reads (exp : Expression) (tree : Expr) : Prop :=
  exp.root = tree ∨
    (Expr.parse? exp.source false = .ok tree ∧ Expr.parse? exp.source true = .ok exp.root)

theorem Expression.Reads.sameMeaning {exp : Expression} {tree : Expr} (h : exp.Reads tree) :
    SameMeaning exp.root tree := by
  obtain rfl | ⟨htree, hroot⟩ := h
  · exact .refl _
  · obtain ⟨e, he, hm⟩ := parse?_follows exp.source exp.root hroot
    cases htree.symm.trans he
    exact hm

/-- **Units are dimensionally right**: if the evaluation of a formula succeeds, it yields a number
whose unit type has the dimension that dimensional analysis gives, and no other one; and no part of
a formula that is an operation on like numbers is evaluated successfully unless all of its operands
have values of one dimension. -/
theorem World.evaluate_dimension {exp : Expression} {tree : Expr} (hexp : exp.Reads tree)
    (hf : tree.IsFormula) (w : World) (this : Option EntityId) (t : Float) (everywhere : Bool) :
    (∀ res, w.evaluate exp this t everywhere = .ok res →
      ∃ x u, res = .number x u ∧
        ∀ d, tree.HasDimension (w.envWith w.readings this everywhere t) d ↔ d = u.dimension) ∧
    ∀ (env : Env) (p : Expr) (res : Result), tree.Part p → p.NeedsOneDimension →
      p.eval env = .ok res →
      ∃ d, ∀ c ∈ p.children, ∃ x u, c.eval env = .ok (.number x u) ∧ u.dimension = d := by
  constructor
  · intro res h
    have htree := (hexp.sameMeaning _).symm.trans (evaluateWith_eq_ok.1 h)
    obtain ⟨x, u, rfl, hd⟩ := hf.eval_dimension htree
    refine ⟨x, u, rfl, fun d => ⟨fun hd' => hd'.unique hd, ?_⟩⟩
    rintro rfl
    exact hd
  · intro env p res hp hneeds h
    exact (hf.of_part hp).operands_dimension hneeds h

/-- A way, behind a condition that is true. The other branch has another dimension. -/
def wayOrMass : Expr :=
  .cond (.literal (.number 1.0 .time) 0)
    (.binary .add (.literal (.number 1.0 .distance) 5)
      (.binary .mul (.literal (.number 1.0 .speed) 10) (.literal (.number 1.0 .time) 17) 16) 9)
    (.literal (.number 1.0 .mass) 22) 4

theorem isFormula_wayOrMass : wayOrMass.IsFormula :=
  .choice .number (.additive (.inl rfl) .number (.product .number .number)) .number

/-- The choice has the dimension of the branch that is taken, which is a length. -/
theorem World.evaluate_dimension_wayOrMass :
    Expression.Reads ⟨"1[s]?1[m]+1[m/s]*1[s]:1[kg]", wayOrMass⟩ wayOrMass ∧
      wayOrMass.IsFormula ∧
      ∀ (w : World) (t : Float), ∃ x u,
        w.evaluate ⟨"1[s]?1[m]+1[m/s]*1[s]:1[kg]", wayOrMass⟩ none t false = .ok (.number x u) ∧
          wayOrMass.HasDimension (w.envWith w.readings none false t) u.dimension := by
  have hreads : Expression.Reads ⟨"1[s]?1[m]+1[m/s]*1[s]:1[kg]", wayOrMass⟩ wayOrMass := .inl rfl
  refine ⟨hreads, isFormula_wayOrMass, fun w t => ?_⟩
  have htrue : (1.0 != (0.0 : Float)) = true := by decide +kernel
  have h : w.evaluate ⟨"1[s]?1[m]+1[m/s]*1[s]:1[kg]", wayOrMass⟩ none t false =
      .ok (.number (1.0 + 1.0 * 1.0) .distance) := by
    refine evaluateWith_eq_ok.2 (bind_eq_ok.2 ⟨.number 1.0 .time, rfl, ?_⟩)
    refine bind_eq_ok.2 ⟨true, mapError_eq_ok.2 (congrArg Except.ok htrue), ?_⟩
    rfl
  obtain ⟨hvalue, -⟩ := evaluate_dimension hreads isFormula_wayOrMass w none t false
  obtain ⟨x, u, hres, hu⟩ := hvalue _ h
  exact ⟨x, u, h.trans (congrArg _ hres), (hu _).2 rfl⟩

end ModelInputs
