import Mathlib.Data.List.Forall2
import ModelInputs.Expression.UnitInference
import ModelInputs.Proofs.Outcome

/-!
# Units of operations

The rules that find the unit type of an operation before it is evaluated, beside the operation
itself: if the operands have the unit types that are known of them, the number that the operation
yields has the unit type of the rule. Where only one side of a sum is known this holds because the
sum of unlike units is refused. One rule is not enough by itself: the greatest or smallest item of
an array has the unit type of the items, of which the rule knows nothing.

* `Result.Fits`: a number has the unit type, if one is known;
* `UnaryOp.apply_fits`, **`BinaryOp.apply_fits`**: the operators;
* **`Function.apply_fits`**: the functions, arrays to choose from aside.
-/

namespace ModelInputs

namespace Result

/-- A number has the unit type, if one is known. -/
def Fits (unit : Option UnitType) (r : Result) : Prop :=
  ∀ u x v, unit = some u → r = .number x v → v = u

theorem fits_none (r : Result) : r.Fits none :=
  nofun

theorem fits_number {x : Float} {u v : UnitType} : (number x v).Fits (some u) ↔ v = u := by
  constructor
  · intro h
    exact h u x v rfl rfl
  · rintro rfl _ _ _ ⟨⟩ ⟨⟩
    rfl

theorem fits_plain (x : Float) : (plain x).Fits (some .dimensionless) :=
  fits_number.2 rfl

theorem fits_ofBool (b : Bool) : (ofBool b).Fits (some .dimensionless) :=
  fits_plain _

theorem fits_text (s : String) (unit : Option UnitType) : (text s).Fits unit := by
  rintro u x v - ⟨⟩

theorem number?_eq_ok {user : String} {r : Result} {x : Float} {u : UnitType} :
    r.number? user = .ok (x, u) ↔ r = .number x u := by
  cases r with
  | number y v =>
    rw [number?, Except.ok.injEq, Prod.mk.injEq, Result.number.injEq]
  | _ => exact ⟨nofun, nofun⟩

end Result

open Result (Fits fits_none fits_number fits_plain fits_ofBool fits_text number?_eq_ok)

theorem twoNumbers_eq_ok {op : BinaryOp} {l r : Result} {x y : Float} {u v : UnitType} :
    twoNumbers op l r = .ok ((x, u), (y, v)) ↔ l = .number x u ∧ r = .number y v := by
  constructor
  · intro h
    unfold twoNumbers at h
    split at h
    · cases h
      exact ⟨rfl, rfl⟩
    · cases h
  · rintro ⟨rfl, rfl⟩
    rfl

theorem sameUnit_eq_ok {u v : UnitType} : sameUnit u v = .ok () ↔ u = v := by
  unfold sameUnit
  split
  · next h => exact ⟨fun _ => h, fun _ => rfl⟩
  · next h => exact ⟨nofun, fun h' => absurd h' h⟩

/-! ## Operators -/

theorem UnaryOp.apply_fits {op : UnaryOp} {operand res : Result} {unit : Option UnitType}
    (ho : operand.Fits unit) (h : op.apply operand = .ok res) :
    res.Fits (if op = .not then some .dimensionless else unit) := by
  obtain ⟨⟨x, u⟩, hx, h⟩ := bind_eq_ok.1 h
  rw [number?_eq_ok] at hx
  subst hx
  cases op with
  | neg =>
    cases h
    rw [if_neg nofun]
    rintro w _ v hw ⟨⟩
    exact ho w x u hw rfl
  | pos =>
    cases h
    rw [if_neg nofun]
    exact ho
  | not =>
    cases h
    exact fits_ofBool _

namespace BinaryOp

variable {l r res : Result} {u v w : Option UnitType} {pos : Nat}

/-- The unit type of numbers that must be alike is that of either of them. -/
theorem fits_of_sameUnit {x y z : Float} {a b : UnitType} (hl : (Result.number x a).Fits u)
    (hr : (Result.number y b).Fits v) (hab : a = b) : (Result.number z a).Fits (u <|> v) := by
  cases u with
  | some c => exact fits_number.2 (fits_number.1 hl)
  | none =>
    cases v with
    | none => exact fits_none _
    | some c => exact fits_number.2 (hab.trans (fits_number.1 hr))

theorem sum_fits (hl : l.Fits u) (hr : r.Fits v) (h : sum l r = .ok res) : res.Fits (u <|> v) := by
  unfold sum at h
  split at h
  · cases h
    exact fits_text _ _
  · obtain ⟨⟨⟨x, a⟩, y, b⟩, hn, h₁⟩ := bind_eq_ok.1 h
    obtain ⟨⟨⟩, hab, h₂⟩ := bind_eq_ok.1 h₁
    obtain ⟨rfl, rfl⟩ := twoNumbers_eq_ok.1 hn
    cases h₂
    exact fits_of_sameUnit hl hr (sameUnit_eq_ok.1 hab)

theorem difference_fits (hl : l.Fits u) (hr : r.Fits v) (h : difference l r = .ok res) :
    res.Fits (u <|> v) := by
  obtain ⟨⟨⟨x, a⟩, y, b⟩, hn, h₁⟩ := bind_eq_ok.1 h
  obtain ⟨⟨⟩, hab, h₂⟩ := bind_eq_ok.1 h₁
  obtain ⟨rfl, rfl⟩ := twoNumbers_eq_ok.1 hn
  cases h₂
  exact fits_of_sameUnit hl hr (sameUnit_eq_ok.1 hab)

theorem remainder_fits (hl : l.Fits u) (hr : r.Fits v) (h : remainder l r = .ok res) :
    res.Fits (u <|> v) := by
  obtain ⟨⟨⟨x, a⟩, y, b⟩, hn, h₁⟩ := bind_eq_ok.1 h
  obtain ⟨⟨⟩, hab, h₂⟩ := bind_eq_ok.1 h₁
  obtain ⟨rfl, rfl⟩ := twoNumbers_eq_ok.1 hn
  have hfits := fun z => fits_of_sameUnit (z := z) hl hr (sameUnit_eq_ok.1 hab)
  split at h₂
  · cases h₂
    exact hfits _
  · split at h₂
    · cases h₂
      exact hfits _
    · cases h₂

/-- A product or quotient has the unit type that the rule gives for those of its operands. -/
theorem numberOf_fits {rule : UnitType → UnitType → Option UnitType} {x y z : Float}
    {a b : UnitType} (hl : (Result.number x a).Fits u) (hr : (Result.number y b).Fits v)
    (hi : Expr.combineUnits rule pos u v = .ok w) (h : numberOf z a b (rule a b) = .ok res) :
    res.Fits w := by
  cases u with
  | none =>
    cases hi
    exact fits_none _
  | some c =>
    cases v with
    | none =>
      cases hi
      exact fits_none _
    | some d =>
      obtain rfl := fits_number.1 hl
      obtain rfl := fits_number.1 hr
      cases hc : rule a b with
      | none =>
        simp only [Expr.combineUnits, hc] at hi
        cases hi
      | some e =>
        simp only [Expr.combineUnits, hc] at hi h
        cases hi
        cases h
        exact fits_number.2 rfl

theorem product_fits (hl : l.Fits u) (hr : r.Fits v)
    (hi : Expr.combineUnits UnitType.mul? pos u v = .ok w) (h : product l r = .ok res) :
    res.Fits w := by
  obtain ⟨⟨⟨x, a⟩, y, b⟩, hn, h₁⟩ := bind_eq_ok.1 h
  obtain ⟨rfl, rfl⟩ := twoNumbers_eq_ok.1 hn
  exact numberOf_fits hl hr hi h₁

theorem quotient_fits (hl : l.Fits u) (hr : r.Fits v)
    (hi : Expr.combineUnits UnitType.div? pos u v = .ok w) (h : quotient l r = .ok res) :
    res.Fits w := by
  obtain ⟨⟨⟨x, a⟩, y, b⟩, hn, h₁⟩ := bind_eq_ok.1 h
  obtain ⟨rfl, rfl⟩ := twoNumbers_eq_ok.1 hn
  exact numberOf_fits hl hr hi h₁

theorem power_fits (h : power l r = .ok res) : res.Fits (some .dimensionless) := by
  obtain ⟨⟨⟨x, a⟩, y, b⟩, -, h₁⟩ := bind_eq_ok.1 h
  simp only at h₁
  split at h₁
  · cases h₁
    exact fits_plain _
  · cases h₁

theorem comparison_fits {op : BinaryOp} (h : op.comparison l r = .ok res) :
    res.Fits (some .dimensionless) := by
  unfold comparison at h
  split at h
  · cases h
    exact fits_ofBool _
  · obtain ⟨⟨⟨x, a⟩, y, b⟩, -, h₁⟩ := bind_eq_ok.1 h
    obtain ⟨⟨⟩, -, h₂⟩ := bind_eq_ok.1 h₁
    cases h₂
    exact fits_ofBool _

/-- **An operator keeps to its rule for units.** -/
theorem apply_fits {op : BinaryOp} (hl : l.Fits u) (hr : r.Fits v)
    (hi : Expr.inferBinary op pos u v = .ok w) (h : op.apply l r = .ok res) : res.Fits w := by
  cases op with
  | add =>
    obtain ⟨⟨⟩, -, hw⟩ := bind_eq_ok.1 hi
    cases hw
    exact sum_fits hl hr h
  | sub =>
    obtain ⟨⟨⟩, -, hw⟩ := bind_eq_ok.1 hi
    cases hw
    exact difference_fits hl hr h
  | mod =>
    obtain ⟨⟨⟩, -, hw⟩ := bind_eq_ok.1 hi
    cases hw
    exact remainder_fits hl hr h
  | mul => exact product_fits hl hr hi h
  | div => exact quotient_fits hl hr hi h
  | pow =>
    cases hi
    exact power_fits h
  | eq | ne =>
    obtain ⟨⟨⟩, -, hw⟩ := bind_eq_ok.1 hi
    cases hw
    obtain ⟨b, -, rfl⟩ := map_eq_ok.1 h
    exact fits_ofBool _
  | lt | gt | le | ge =>
    obtain ⟨⟨⟩, -, hw⟩ := bind_eq_ok.1 hi
    cases hw
    exact comparison_fits h
  | and | or => cases h

end BinaryOp

/-! ## Logical operators -/

namespace Expr

variable {pos : Nat} {left res : Result} {right : Unit → Except Failure Result}

theorem evalAnd_fits (h : evalAnd pos left right = .ok res) : res.Fits (some .dimensionless) := by
  obtain ⟨b, -, h₁⟩ := bind_eq_ok.1 h
  cases b with
  | false =>
    cases h₁
    exact fits_ofBool _
  | true =>
    obtain ⟨r, -, h₂⟩ := bind_eq_ok.1 h₁
    obtain ⟨c, -, h₃⟩ := bind_eq_ok.1 h₂
    cases h₃
    exact fits_ofBool _

theorem evalOr_fits (h : evalOr pos left right = .ok res) : res.Fits (some .dimensionless) := by
  obtain ⟨b, -, h₁⟩ := bind_eq_ok.1 h
  cases b with
  | true =>
    cases h₁
    exact fits_ofBool _
  | false =>
    obtain ⟨r, -, h₂⟩ := bind_eq_ok.1 h₁
    obtain ⟨c, -, h₃⟩ := bind_eq_ok.1 h₂
    cases h₃
    exact fits_ofBool _

end Expr

/-! ## Functions -/

namespace Function

variable {units : List (Option UnitType)} {args : List Result} {arg res : Result}

/-- The greatest or smallest item of an array is looked for, of which the rule for units knows
nothing. -/
def ChoosesItem (f : Function) (args : List Result) : Prop :=
  (f = max ∨ f = min) ∧ ∃ items, args = [.array items]

theorem selectBest_fits {f : Function} {beats : Float → Float → Bool}
    (ha : List.Forall₂ (fun u r => r.Fits u) units args) (harray : ∀ items, args ≠ [.array items])
    (h : selectBest f beats args = .ok res) : res.Fits units.head?.join := by
  obtain ⟨⟨u, x, xs⟩, hs, h₁⟩ := bind_eq_ok.1 h
  cases h₁
  unfold sameUnitNumbers at hs
  split at hs
  next items => exact absurd rfl (harray items)
  next =>
    cases ha with
    | nil => cases hs
    | cons hfirst _ =>
      obtain ⟨⟨y, v⟩, hy, h₂⟩ := bind_eq_ok.1 hs
      obtain ⟨ys, -, h₃⟩ := bind_eq_ok.1 h₂
      cases h₃
      rw [number?_eq_ok] at hy
      subst hy
      rintro w _ _ hw ⟨⟩
      exact hfirst w x u hw rfl

theorem selectIndex_fits {f : Function} {beats : Float → Float → Bool}
    (h : selectIndex f beats args = .ok res) : res.Fits (some .dimensionless) := by
  obtain ⟨⟨u, x, xs⟩, -, h₁⟩ := bind_eq_ok.1 h
  cases h₁
  exact fits_plain _

theorem unitPreserving_fits {f : Function} {g : Float → Float} {unit : Option UnitType}
    (ha : arg.Fits unit) (h : unitPreserving f g arg = .ok res) : res.Fits unit := by
  obtain ⟨⟨x, u⟩, hx, h₁⟩ := bind_eq_ok.1 h
  cases h₁
  rw [number?_eq_ok] at hx
  subst hx
  rintro w _ _ hw ⟨⟩
  exact ha w x u hw rfl

theorem ofDimensionless_fits {f : Function} {g : Float → Float} {unit : UnitType}
    (h : ofDimensionless f g unit arg = .ok res) : res.Fits (some unit) := by
  obtain ⟨⟨x, u⟩, -, h₁⟩ := bind_eq_ok.1 h
  simp only at h₁
  split at h₁
  · cases h₁
    exact fits_number.2 rfl
  · cases h₁

theorem ofAngle_fits {f : Function} {g : Float → Float} (h : ofAngle f g arg = .ok res) :
    res.Fits (some .dimensionless) := by
  obtain ⟨⟨x, u⟩, -, h₁⟩ := bind_eq_ok.1 h
  simp only at h₁
  split at h₁
  · split at h₁
    · cases h₁
      exact fits_plain _
    · cases h₁
  · cases h₁

theorem arcTangent_fits {f : Function} {y x : Result} (h : arcTangent f y x = .ok res) :
    res.Fits (some .angle) := by
  obtain ⟨⟨y, u⟩, -, h₁⟩ := bind_eq_ok.1 h
  obtain ⟨⟨x, v⟩, -, h₂⟩ := bind_eq_ok.1 h₁
  obtain ⟨⟨⟩, -, h₃⟩ := bind_eq_ok.1 h₂
  cases h₃
  exact fits_number.2 rfl

theorem sizeOfResult_fits (h : sizeOfResult arg = .ok res) : res.Fits (some .dimensionless) := by
  cases arg with
  | number | entity => cases h
  | text | array | map =>
    cases h
    exact fits_plain _

theorem applyOne_fits {f : Function} {unit : Option UnitType} (ha : arg.Fits unit)
    (h : f.applyOne arg = .ok res) : res.Fits (f.unitRule [unit]) := by
  cases f with
  | abs | ceil | floor => exact unitPreserving_fits ha h
  | signum =>
    obtain ⟨⟨x, u⟩, -, h₁⟩ := bind_eq_ok.1 h
    cases h₁
    exact fits_plain _
  | sqrt | exp | ln | log | asin | acos | atan => exact ofDimensionless_fits h
  | sin | cos | tan => exact ofAngle_fits h
  | size => exact sizeOfResult_fits h
  | notNull =>
    cases h
    exact fits_ofBool _
  | max | min | indexOfMax | indexOfMin | e | pi | atan2 | choose => cases h

/-- **A function keeps to its rule for units**, unless it looks for an item of an array. -/
theorem apply_fits {f : Function} (ha : List.Forall₂ (fun u r => r.Fits u) units args)
    (hf : ¬ f.ChoosesItem args) (h : f.apply args = .ok res) : res.Fits (f.unitRule units) := by
  unfold apply at h
  split at h
  · exact selectBest_fits ha (fun items hi => hf ⟨.inl rfl, items, hi⟩) h
  · exact selectBest_fits ha (fun items hi => hf ⟨.inr rfl, items, hi⟩) h
  · exact selectIndex_fits h
  · exact selectIndex_fits h
  · cases h
    exact fits_plain _
  · cases h
    exact fits_plain _
  · exact fits_none _
  · exact arcTangent_fits h
  · obtain _ | ⟨hunit, _ | _⟩ := ha
    exact applyOne_fits hunit h
  · cases h

end Function

end ModelInputs
