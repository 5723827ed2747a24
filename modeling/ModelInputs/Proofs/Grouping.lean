import Mathlib.Tactic.Abel
import ModelInputs.Proofs.Folding
import ModelInputs.Proofs.Printing
import ModelInputs.Proofs.Reading.Depth
import ModelInputs.Proofs.Unit.Dimensions
import ModelInputs.Proofs.Unit.Operations

/-!
# Products and quotients in any grouping

An expression that is made of numbers by products and quotients is a fraction, with numbers above
and below its line. Its value has the dimension that these numbers give, so that all expressions of
the same numbers above and below the line have the same unit type, however they are grouped and
ordered, unless it is a density of energy for one of them and a pressure for the other. This happens
only where a density of energy stands above the line: one that is multiplied with a volume is an
energy, and an energy divided by a volume is a pressure.

* `Expr.IsFraction`: the numbers above and below the line of an expression;
* **`Expr.IsFraction.eval`**: the dimension of the value;
* **`evaluate_regrouped`**: texts of the same numbers;
* `thereAndBack`, `byItself`: two groupings of a factor and its inverse;
* **`evaluate_energyDensity_regrouped`**: two texts with different unit types.
-/

namespace ModelInputs

open Token
open ModelInputs.Parser (quantity)

/-! ## Fractions -/

/-- The expression is made of numbers by products and quotients. Those above and below the line of
the fraction that it is, with nested quotients resolved, have these unit types. -/
inductive Expr.IsFraction : Expr → List UnitType → List UnitType → Prop where
  | number {x : Float} {u : UnitType} {pos : Nat} : IsFraction (.literal (.number x u) pos) [u] []
  | product {left right : Expr} {above below above' below' : List UnitType} {pos : Nat} :
    IsFraction left above below → IsFraction right above' below' →
    IsFraction (.binary .mul left right pos) (above ++ above') (below ++ below')
  | quotient {left right : Expr} {above below above' below' : List UnitType} {pos : Nat} :
    IsFraction left above below → IsFraction right above' below' →
    IsFraction (.binary .div left right pos) (above ++ below') (below ++ above')

/-- The dimension of a fraction. -/
def fractionDimension (above below : List UnitType) : Dimension :=
  (above.map UnitType.dimension).sum - (below.map UnitType.dimension).sum

theorem fractionDimension_perm {above above' below below' : List UnitType}
    (ha : above.Perm above') (hb : below.Perm below') :
    fractionDimension above below = fractionDimension above' below' := by
  rw [fractionDimension, fractionDimension, (ha.map _).sum_eq, (hb.map _).sum_eq]

theorem fractionDimension_append (above below above' below' : List UnitType) :
    fractionDimension (above ++ above') (below ++ below') =
      fractionDimension above below + fractionDimension above' below' := by
  simp only [fractionDimension, List.map_append, List.sum_append]
  abel

theorem fractionDimension_append_swap (above below above' below' : List UnitType) :
    fractionDimension (above ++ below') (below ++ above') =
      fractionDimension above below - fractionDimension above' below' := by
  simp only [fractionDimension, List.map_append, List.sum_append]
  abel

/-! ## Values -/

theorem numberOf_eq_ok {x : Float} {u v : UnitType} {unit : Option UnitType} {res : Result} :
    numberOf x u v unit = .ok res ↔ ∃ w, unit = some w ∧ res = .number x w := by
  cases unit with
  | none => exact ⟨nofun, nofun⟩
  | some w =>
    constructor
    · rintro ⟨⟩
      exact ⟨w, rfl, rfl⟩
    · rintro ⟨_, ⟨⟩, rfl⟩
      rfl

/-- A product is one of numbers whose unit types can be multiplied. -/
theorem BinaryOp.product_eq_ok {l r res : Result} (h : product l r = .ok res) :
    ∃ x u y v w, l = .number x u ∧ r = .number y v ∧ UnitType.mul? u v = some w ∧
      res = .number (x * y) w := by
  obtain ⟨⟨⟨x, u⟩, y, v⟩, hn, h⟩ := bind_eq_ok.1 h
  obtain ⟨w, hw, rfl⟩ := numberOf_eq_ok.1 h
  obtain ⟨rfl, rfl⟩ := twoNumbers_eq_ok.1 hn
  exact ⟨x, u, y, v, w, rfl, rfl, hw, rfl⟩

/-- A quotient is one of numbers whose unit types can be divided. -/
theorem BinaryOp.quotient_eq_ok {l r res : Result} (h : quotient l r = .ok res) :
    ∃ x u y v w, l = .number x u ∧ r = .number y v ∧ UnitType.div? u v = some w ∧
      res = .number (Number.quotient x y) w := by
  obtain ⟨⟨⟨x, u⟩, y, v⟩, hn, h⟩ := bind_eq_ok.1 h
  obtain ⟨w, hw, rfl⟩ := numberOf_eq_ok.1 h
  obtain ⟨rfl, rfl⟩ := twoNumbers_eq_ok.1 hn
  exact ⟨x, u, y, v, w, rfl, rfl, hw, rfl⟩

/-- An operator that is not a logical one is applied to the values of its operands. -/
theorem Expr.eval_binary_eq_ok {env : Env} {op : BinaryOp} {left right : Expr} {pos : Nat}
    {res : Result} (h : (binary op left right pos).eval env = .ok res) (hand : op ≠ .and)
    (hor : op ≠ .or) :
    ∃ l r, left.eval env = .ok l ∧ right.eval env = .ok r ∧ op.apply l r = .ok res := by
  rw [eval_binary] at h
  obtain ⟨l, hl, h⟩ := bind_eq_ok.1 h
  cases op with
  | and => exact absurd rfl hand
  | or => exact absurd rfl hor
  | _ =>
    obtain ⟨r, hr, h⟩ := bind_eq_ok.1 h
    exact ⟨l, r, hl, hr, mapError_eq_ok.1 h⟩

/-- **The value of a fraction has its dimension.** It is a density of energy only if there is one
above the line. -/
theorem Expr.IsFraction.eval {env : Env} {e : Expr} {above below : List UnitType}
    (he : e.IsFraction above below) {res : Result} (h : e.eval env = .ok res) :
    ∃ x u, res = .number x u ∧ u.dimension = fractionDimension above below ∧
      (u = .energyDensity → .energyDensity ∈ above) := by
  induction he generalizing res with
  | @number x u pos =>
    cases h
    refine ⟨x, u, rfl, ?_, fun hu => List.mem_singleton.2 hu.symm⟩
    simp [fractionDimension]
  | product _ _ ihl ihr =>
    obtain ⟨l, r, hl, hr, h⟩ := eval_binary_eq_ok h nofun nofun
    obtain ⟨x, u, y, v, w, rfl, rfl, hw, rfl⟩ := BinaryOp.product_eq_ok h
    obtain ⟨_, _, ⟨⟩, hu, hud⟩ := ihl hl
    obtain ⟨_, _, ⟨⟩, hv, hvd⟩ := ihr hr
    refine ⟨_, w, rfl, ?_, ?_⟩
    · rw [UnitType.dimension_mul? hw, hu, hv, fractionDimension_append]
    · rintro rfl
      obtain hd | hd := UnitType.eq_energyDensity_of_mul? hw
      · exact List.mem_append_left _ (hud hd)
      · exact List.mem_append_right _ (hvd hd)
  | quotient _ _ ihl ihr =>
    obtain ⟨l, r, hl, hr, h⟩ := eval_binary_eq_ok h nofun nofun
    obtain ⟨x, u, y, v, w, rfl, rfl, hw, rfl⟩ := BinaryOp.quotient_eq_ok h
    obtain ⟨_, _, ⟨⟩, hu, hud⟩ := ihl hl
    obtain ⟨_, _, ⟨⟩, hv, -⟩ := ihr hr
    refine ⟨_, w, rfl, ?_, ?_⟩
    · rw [UnitType.dimension_div? hw, hu, hv, fractionDimension_append_swap]
    · rintro rfl
      exact List.mem_append_left _ (hud (UnitType.eq_energyDensity_of_div? hw))

/-! ## Texts -/

/-- A text that is a fraction has the value of one, folded or not. -/
theorem evaluate_fraction {source : String} {fold : Bool} {tree exp : Expression}
    (htree : Expression.parse? source false = .ok tree)
    (hexp : Expression.parse? source fold = .ok exp) {above below : List UnitType}
    (hf : tree.root.IsFraction above below) {w : World} {this : Option EntityId} {t : Float}
    {everywhere : Bool} {res : Result} (h : w.evaluate exp this t everywhere = .ok res) :
    ∃ x u, res = .number x u ∧ u.dimension = fractionDimension above below ∧
      (u = .energyDensity → .energyDensity ∈ above) := by
  have hroot := World.evaluateWith_eq_ok.1 h
  cases fold with
  | false =>
    cases htree.symm.trans hexp
    exact hf.eval hroot
  | true =>
    obtain ⟨e, he, ⟨⟩⟩ := bind_eq_ok.1 htree
    obtain ⟨e', he', ⟨⟩⟩ := bind_eq_ok.1 hexp
    obtain ⟨e'', he'', hm⟩ := parse?_follows source e' he'
    cases he.symm.trans he''
    exact hf.eval ((hm _).symm.trans hroot)

/-- **The unit type of a product or quotient does not depend on its grouping**, up to that of a
density of energy: two texts that have the same unit types above and below the line, in any order,
have values of the same dimension, and of the same unit type unless one of them is a density of
energy that stands above the line and the other one a pressure. -/
theorem evaluate_regrouped {source source' : String} {fold fold' : Bool}
    {tree tree' exp exp' : Expression}
    (htree : Expression.parse? source false = .ok tree)
    (htree' : Expression.parse? source' false = .ok tree')
    (hexp : Expression.parse? source fold = .ok exp)
    (hexp' : Expression.parse? source' fold' = .ok exp')
    {above below above' below' : List UnitType}
    (hf : tree.root.IsFraction above below) (hf' : tree'.root.IsFraction above' below')
    (habove : above.Perm above') (hbelow : below.Perm below')
    {w w' : World} {this this' : Option EntityId} {t t' : Float} {everywhere everywhere' : Bool}
    {res res' : Result} (h : w.evaluate exp this t everywhere = .ok res)
    (h' : w'.evaluate exp' this' t' everywhere' = .ok res') :
    ∃ x u x' u', res = .number x u ∧ res' = .number x' u' ∧
      u.dimension = fractionDimension above below ∧ u'.dimension = u.dimension ∧
      (u = u' ∨ .energyDensity ∈ above ∧ u.IsEnergyDensityOrPressure u') := by
  obtain ⟨x, u, rfl, hu, hud⟩ := evaluate_fraction htree hexp hf h
  obtain ⟨x', u', rfl, hu', hud'⟩ := evaluate_fraction htree' hexp' hf' h'
  have hdim : u.dimension = u'.dimension :=
    hu.trans ((fractionDimension_perm habove hbelow).trans hu'.symm)
  refine ⟨x, u, x', u', rfl, rfl, hu, hdim.symm, ?_⟩
  obtain heq | hne := UnitType.dimension_eq_iff.1 hdim
  · exact .inl heq
  · refine .inr ⟨?_, hne⟩
    obtain ⟨hd, -⟩ | ⟨-, hd⟩ := hne
    · exact hud hd
    · exact habove.mem_iff.2 (hud' hd)

/-! ## A factor and its inverse -/

section Inverse

variable {source left right : String} (a b : PhysicalUnit)

/-- One of a unit, multiplied with one of another unit and divided by it. -/
def thereAndBack : Expr :=
  .binary .div
    (.binary .mul (.literal (quantity 1.0 a) 0) (.literal (quantity 1.0 b) 8) 7)
    (.literal (quantity 1.0 b) 14) 13

/-- One of a unit, multiplied with the quotient of one of another unit with itself. -/
def byItself : Expr :=
  .binary .mul (.literal (quantity 1.0 a) 0)
    (.binary .div (.literal (quantity 1.0 b) 9) (.literal (quantity 1.0 b) 15) 14) 7

theorem isFraction_thereAndBack :
    (thereAndBack a b).IsFraction [a.unitType, b.unitType] [b.unitType] :=
  .quotient (.product .number .number) .number

theorem isFraction_byItself :
    (byItself a b).IsFraction [a.unitType, b.unitType] [b.unitType] :=
  .product .number (.quotient .number .number)

variable {a b}

/-- One of a unit is an operand. -/
theorem isPrefixed_one {name : String} {u : PhysicalUnit}
    (hu : PhysicalUnit.find? name = some u) (pos pos' : Nat) :
    IsPrefixed [⟨.number, "1", pos⟩, ⟨.square, name, pos'⟩]
      (.literal (quantity 1.0 u) pos) := by
  have hone : Number.readFloat? "1" = some 1.0 := by decide +kernel
  exact .primary (.quantity (t := ⟨.number, "1", pos⟩) rfl hone rfl hu)

theorem parse?_thereAndBack
    (ha : PhysicalUnit.find? left = some a) (hb : PhysicalUnit.find? right = some b)
    (ht : tokensFrom 0 source.toList = .ok [⟨.number, "1", 0⟩, ⟨.square, left, 1⟩,
      ⟨.symbol, "*", 7⟩, ⟨.number, "1", 8⟩, ⟨.square, right, 9⟩, ⟨.symbol, "/", 13⟩,
      ⟨.number, "1", 14⟩, ⟨.square, right, 15⟩, ⟨.finish, "", 19⟩]) :
    Expression.parse? source false = .ok ⟨source, thereAndBack a b⟩ := by
  have hmul : BinaryOp.mul.level = .product := rfl
  have hdiv : BinaryOp.div.level = .product := rfl
  have hstar : Token.isSymbol ⟨.symbol, "*", 7⟩ BinaryOp.mul.symbol = true := rfl
  have hslash : Token.isSymbol ⟨.symbol, "/", 13⟩ BinaryOp.div.symbol = true := rfl
  have hproduct := IsOperation.left hmul rfl ((isPrefixed_one ha 0 1).isOperation .product) hstar
    ((isPrefixed_one hb 8 9).isOperation .power)
  have hquotient := IsOperation.left hdiv rfl hproduct hslash
    ((isPrefixed_one hb 14 15).isOperation .power)
  have hparse : Expr.parse? source false = .ok (thereAndBack a b) :=
    parse?_iff.2 ⟨_, ht, _, ⟨.finish, "", 19⟩, rfl, rfl, hquotient.isExpr⟩
  exact bind_eq_ok.2 ⟨_, hparse, rfl⟩

theorem parse?_byItself
    (ha : PhysicalUnit.find? left = some a) (hb : PhysicalUnit.find? right = some b)
    (ht : tokensFrom 0 source.toList = .ok [⟨.number, "1", 0⟩, ⟨.square, left, 1⟩,
      ⟨.symbol, "*", 7⟩, ⟨.symbol, "(", 8⟩, ⟨.number, "1", 9⟩, ⟨.square, right, 10⟩,
      ⟨.symbol, "/", 14⟩, ⟨.number, "1", 15⟩, ⟨.square, right, 16⟩, ⟨.symbol, ")", 20⟩,
      ⟨.finish, "", 21⟩]) :
    Expression.parse? source false = .ok ⟨source, byItself a b⟩ := by
  have hstar : Token.isSymbol ⟨.symbol, "*", 7⟩ BinaryOp.mul.symbol = true := rfl
  have hslash : Token.isSymbol ⟨.symbol, "/", 14⟩ BinaryOp.div.symbol = true := rfl
  have hopening : Token.isSymbol ⟨.symbol, "(", 8⟩ "(" = true := rfl
  have hclosing : Token.isSymbol ⟨.symbol, ")", 20⟩ ")" = true := rfl
  have hquotient := isExpr_binary (isPrefixed_one hb 9 10) hslash (isPrefixed_one hb 15 16)
  have hproduct := isExpr_binary (isPrefixed_one ha 0 1) hstar
    (.primary (.group hopening hquotient hclosing))
  have hparse : Expr.parse? source false = .ok (byItself a b) :=
    parse?_iff.2 ⟨_, ht, _, ⟨.finish, "", 21⟩, rfl, rfl, hproduct⟩
  exact bind_eq_ok.2 ⟨_, hparse, rfl⟩

end Inverse

/-- A flow of volume. -/
def cubicMetresPerSecond : PhysicalUnit := ⟨"m3/s", .volumeFlow, 1.0⟩

/-- A time. -/
def milliseconds : PhysicalUnit := ⟨"ms", .time, 0.001⟩

/-- A density of energy. -/
def joulesPerCubicMetre : PhysicalUnit := ⟨"J/m3", .energyDensity, 1.0⟩

/-- A volume. -/
def cubicMetres : PhysicalUnit := ⟨"m3", .volume, 1.0⟩

set_option maxRecDepth 20000 in
/-- A flow of volume is one again after a time and back, as it is where the time is divided by
itself. -/
theorem evaluate_volumeFlow_regrouped :
    Expression.parse? "1[m3/s]*1[ms]/1[ms]" false =
        .ok ⟨"1[m3/s]*1[ms]/1[ms]", thereAndBack cubicMetresPerSecond milliseconds⟩ ∧
      Expression.parse? "1[m3/s]*(1[ms]/1[ms])" false =
        .ok ⟨"1[m3/s]*(1[ms]/1[ms])", byItself cubicMetresPerSecond milliseconds⟩ ∧
      (thereAndBack cubicMetresPerSecond milliseconds).IsFraction [.volumeFlow, .time] [.time] ∧
      (byItself cubicMetresPerSecond milliseconds).IsFraction [.volumeFlow, .time] [.time] ∧
      ∀ (w : World) (t : Float), ∃ x u x' u',
        w.evaluate ⟨"1[m3/s]*1[ms]/1[ms]", thereAndBack cubicMetresPerSecond milliseconds⟩
          none t = .ok (.number x u) ∧
        w.evaluate ⟨"1[m3/s]*(1[ms]/1[ms])", byItself cubicMetresPerSecond milliseconds⟩
          none t = .ok (.number x' u') ∧
        u = .volumeFlow ∧ u.dimension = fractionDimension [.volumeFlow, .time] [.time] ∧
        u'.dimension = u.dimension ∧
        (u = u' ∨
          .energyDensity ∈ [UnitType.volumeFlow, .time] ∧ u.IsEnergyDensityOrPressure u') := by
  have hparse : Expression.parse? "1[m3/s]*1[ms]/1[ms]" false =
      .ok ⟨"1[m3/s]*1[ms]/1[ms]", thereAndBack cubicMetresPerSecond milliseconds⟩ :=
    parse?_thereAndBack rfl rfl (by cbv)
  have hparse' : Expression.parse? "1[m3/s]*(1[ms]/1[ms])" false =
      .ok ⟨"1[m3/s]*(1[ms]/1[ms])", byItself cubicMetresPerSecond milliseconds⟩ :=
    parse?_byItself rfl rfl (by cbv)
  have hf := isFraction_thereAndBack cubicMetresPerSecond milliseconds
  have hf' := isFraction_byItself cubicMetresPerSecond milliseconds
  refine ⟨hparse, hparse', hf, hf', fun w t => ?_⟩
  have h : ∃ x, w.evaluate ⟨"1[m3/s]*1[ms]/1[ms]",
      thereAndBack cubicMetresPerSecond milliseconds⟩ none t = .ok (.number x .volumeFlow) :=
    ⟨_, rfl⟩
  have h' : ∃ x, w.evaluate ⟨"1[m3/s]*(1[ms]/1[ms])",
      byItself cubicMetresPerSecond milliseconds⟩ none t = .ok (.number x .volumeFlow) :=
    ⟨_, rfl⟩
  obtain ⟨x, hx⟩ := h
  obtain ⟨x', hx'⟩ := h'
  obtain ⟨_, _, _, _, ⟨⟩, ⟨⟩, hu, hu', heq⟩ :=
    evaluate_regrouped hparse hparse' hparse hparse' hf hf' (.refl _) (.refl _) hx hx'
  exact ⟨x, .volumeFlow, x', .volumeFlow, hx, hx', rfl, hu, hu', heq⟩

set_option maxRecDepth 20000 in
/-- A density of energy is a pressure after a volume and back; where the volume is divided by
itself, it stays what it is. -/
theorem evaluate_energyDensity_regrouped :
    Expression.parse? "1[J/m3]*1[m3]/1[m3]" false =
        .ok ⟨"1[J/m3]*1[m3]/1[m3]", thereAndBack joulesPerCubicMetre cubicMetres⟩ ∧
      Expression.parse? "1[J/m3]*(1[m3]/1[m3])" false =
        .ok ⟨"1[J/m3]*(1[m3]/1[m3])", byItself joulesPerCubicMetre cubicMetres⟩ ∧
      (thereAndBack joulesPerCubicMetre cubicMetres).IsFraction [.energyDensity, .volume]
        [.volume] ∧
      (byItself joulesPerCubicMetre cubicMetres).IsFraction [.energyDensity, .volume] [.volume] ∧
      ∀ (w : World) (t : Float), ∃ x x',
        w.evaluate ⟨"1[J/m3]*1[m3]/1[m3]", thereAndBack joulesPerCubicMetre cubicMetres⟩ none t =
          .ok (.number x .pressure) ∧
        w.evaluate ⟨"1[J/m3]*(1[m3]/1[m3])", byItself joulesPerCubicMetre cubicMetres⟩ none t =
          .ok (.number x' .energyDensity) :=
  ⟨parse?_thereAndBack rfl rfl (by cbv), parse?_byItself rfl rfl (by cbv),
    isFraction_thereAndBack _ _, isFraction_byItself _ _, fun _ _ => ⟨_, _, rfl, rfl⟩⟩

end ModelInputs
