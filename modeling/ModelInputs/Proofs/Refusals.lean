import ModelInputs.Expression.Function
import ModelInputs.Proofs.Outcome

/-!
# Refusals

Operators and functions refuse operands of the wrong kinds or unit types. On operands that they do
not refuse they have a value, with two exceptions: an infinity has no remainder, and it has no sine,
cosine or tangent. No operands are refused because of a self-reference.

* `Result.LacksRemainder`, `Result.IsInfiniteAngle`: the operands without a value;
* `RefusesUnless`: what fails refuses its operands, unless these have no value;
* **`BinaryOp.apply_refuses`**, **`Function.apply_refuses`**: all operators and functions;
* `BinaryOp.apply_eq_undefined_iff`, `Function.apply_eq_undefined_iff`: which ones have no value.
-/

namespace ModelInputs

/-! ## Infinities -/

namespace Number

theorem isNaN_of_isInf {x : Float} (h : x.isInf = true) : x.isNaN = false := by
  have hinf : x.toModel.unpack.isInf = true := h
  show x.toModel.unpack.isNaN = false
  cases hx : x.toModel.unpack with
  | infinity => rfl
  | notANumber | zero | finite =>
    rw [hx] at hinf
    cases hinf

/-- Only an infinity has no remainder. -/
theorem remainder?_eq_none {x y : Float} :
    remainder? x y = none ↔ x.isInf = true ∧ y.isNaN = false := by
  unfold remainder?
  constructor
  · intro h
    split at h
    · cases h
    · next hnan =>
      split at h
      · next hinf => exact ⟨hinf, (Bool.or_eq_false_iff.1 (eq_false_of_ne_true hnan)).2⟩
      · split at h <;> cases h
  · rintro ⟨hx, hy⟩
    rw [isNaN_of_isInf hx, hy, hx]
    rfl

theorem onFinite?_eq_none {g : Float → Float} {x : Float} :
    onFinite? g x = none ↔ x.isInf = true := by
  unfold onFinite?
  cases x.isInf with
  | true => exact iff_of_true rfl rfl
  | false => exact iff_of_false nofun nofun

end Number

namespace Result

/-- The dividend is an infinity, and the divisor a number of its unit type other than zero. -/
def LacksRemainder : Result → Result → Prop
  | number x u, number y v => u = v ∧ (y == 0.0) = false ∧ x.isInf = true ∧ y.isNaN = false
  | _, _ => False

/-- An infinity as an angle, or without a unit. -/
def IsInfiniteAngle : Result → Prop
  | number x u => (u = .dimensionless ∨ u = .angle) ∧ x.isInf = true
  | _ => False

end Result

/-- The functions of angles. -/
def Function.IsOfAngle (f : Function) : Prop :=
  f = .sin ∨ f = .cos ∨ f = .tan

/-! ## Refusing -/

/-- What fails refuses its operands, for another reason than a self-reference, unless they have no
value because of `lacks`. -/
def RefusesUnless {α : Type} (lacks : Prop) : Except OpFault α → Prop
  | .ok _ => True
  | .error (.refused fault) => fault ≠ .selfReference
  | .error .undefined => lacks

namespace RefusesUnless

variable {α β : Type} {lacks : Prop} {x : Except OpFault α}

theorem ok (a : α) : RefusesUnless lacks (.ok a : Except OpFault α) :=
  trivial

theorem refuse {fault : ExprFault} (h : fault ≠ .selfReference) :
    RefusesUnless lacks (refuse fault : Except OpFault α) :=
  h

theorem bind {k : α → Except OpFault β} (hx : RefusesUnless lacks x)
    (hk : ∀ a, RefusesUnless lacks (k a)) : RefusesUnless lacks (x >>= k) := by
  cases x with
  | ok a => exact hk a
  | error fault => cases fault <;> exact hx

theorem map (hx : RefusesUnless lacks x) (f : α → β) : RefusesUnless lacks (x.map f) := by
  cases x with
  | ok a => trivial
  | error fault => cases fault <;> exact hx

theorem mono {lacks' : Prop} (hx : RefusesUnless lacks x) (h : lacks → lacks') :
    RefusesUnless lacks' x := by
  cases x with
  | ok a => trivial
  | error fault =>
    cases fault with
    | refused fault => exact hx
    | undefined => exact h hx

theorem of_undefined (hx : RefusesUnless lacks x) (h : x = .error .undefined) : lacks := by
  subst h
  exact hx

end RefusesUnless

/-! ## Operators -/

section

variable {lacks : Prop}

theorem Result.number?_refuses (user : String) (r : Result) :
    RefusesUnless lacks (r.number? user) := by
  cases r with
  | number => exact .ok _
  | _ => exact .refuse nofun

theorem Result.truth_refuses (r : Result) : RefusesUnless lacks r.truth :=
  (r.number?_refuses _).bind fun _ => .ok _

theorem twoNumbers_refuses (op : BinaryOp) (l r : Result) :
    RefusesUnless lacks (twoNumbers op l r) := by
  unfold twoNumbers
  split
  · exact .ok _
  · exact .refuse nofun

theorem sameUnit_refuses (u v : UnitType) : RefusesUnless lacks (sameUnit u v) := by
  unfold sameUnit
  split
  · exact .ok _
  · exact .refuse nofun

theorem numberOf_refuses (x : Float) (u v : UnitType) (unit : Option UnitType) :
    RefusesUnless lacks (numberOf x u v unit) := by
  cases unit with
  | some w => exact .ok _
  | none => exact .refuse nofun

theorem UnaryOp.apply_refuses (op : UnaryOp) (r : Result) : RefusesUnless lacks (op.apply r) := by
  refine (r.number?_refuses _).bind fun _ => ?_
  cases op <;> exact .ok _

end

namespace BinaryOp

section

variable {lacks : Prop}

theorem equal_refuses (l r : Result) : RefusesUnless lacks (equal l r) := by
  unfold equal
  split
  · exact (sameUnit_refuses _ _).bind fun _ => .ok _
  · split
    · exact .ok _
    · exact .refuse nofun

theorem comparison_refuses (op : BinaryOp) (l r : Result) :
    RefusesUnless lacks (op.comparison l r) := by
  unfold comparison
  split
  · exact .ok _
  · exact (twoNumbers_refuses _ _ _).bind fun _ => (sameUnit_refuses _ _).bind fun _ => .ok _

theorem sum_refuses (l r : Result) : RefusesUnless lacks (sum l r) := by
  unfold sum
  split
  · exact .ok _
  · exact (twoNumbers_refuses _ _ _).bind fun _ => (sameUnit_refuses _ _).bind fun _ => .ok _

theorem power_refuses (l r : Result) : RefusesUnless lacks (power l r) := by
  refine (twoNumbers_refuses _ _ _).bind fun ⟨⟨x, u⟩, ⟨y, v⟩⟩ => ?_
  dsimp only
  split
  · exact .ok _
  · exact .refuse nofun

end

/-- The remainder of two numbers. -/
theorem remainder_number (x y : Float) (u v : UnitType) :
    remainder (.number x u) (.number y v) =
      (sameUnit u v >>= fun _ =>
        if y == 0.0 then .ok (.number Number.notANumber u)
        else
          match Number.remainder? x y with
          | some r => .ok (.number r u)
          | none => .error .undefined) :=
  rfl

theorem remainder_refuses (l r : Result) : RefusesUnless (l.LacksRemainder r) (remainder l r) := by
  cases l with
  | number x u =>
    cases r with
    | number y v =>
      rw [remainder_number]
      unfold sameUnit
      split
      · next hunit =>
        rw [ok_bind]
        split
        · exact .ok _
        · next hzero =>
          split
          · exact .ok _
          · next hnone =>
            exact ⟨hunit, eq_false_of_ne_true hzero, Number.remainder?_eq_none.1 hnone⟩
      · exact .refuse nofun
    | _ => exact .refuse nofun
  | _ => exact .refuse nofun

/-- **Every operator yields a result or refuses its operands**, but for the remainder of an
infinity. -/
theorem apply_refuses (op : BinaryOp) (l r : Result) :
    RefusesUnless (op = .mod ∧ l.LacksRemainder r) (op.apply l r) := by
  cases op with
  | add => exact sum_refuses l r
  | sub =>
    exact (twoNumbers_refuses _ _ _).bind fun _ => (sameUnit_refuses _ _).bind fun _ => .ok _
  | mul | div => exact (twoNumbers_refuses _ _ _).bind fun _ => numberOf_refuses _ _ _ _
  | mod => exact (remainder_refuses l r).mono fun h => ⟨rfl, h⟩
  | pow => exact power_refuses l r
  | eq | ne => exact (equal_refuses l r).map _
  | lt | le | gt | ge => exact comparison_refuses _ l r
  | and | or => exact .refuse nofun

theorem apply_eq_undefined_iff {op : BinaryOp} {l r : Result} :
    op.apply l r = .error .undefined ↔ op = .mod ∧ l.LacksRemainder r := by
  constructor
  · exact (op.apply_refuses l r).of_undefined
  · rintro ⟨rfl, h⟩
    show remainder l r = _
    cases l with
    | number x u =>
      cases r with
      | number y v =>
        obtain ⟨rfl, hzero, hnone⟩ := h
        rw [remainder_number, sameUnit, if_pos rfl, ok_bind, hzero,
          Number.remainder?_eq_none.2 hnone]
        rfl
      | _ => cases h
    | _ => cases h

end BinaryOp

/-! ## Functions -/

section

variable {lacks : Prop} (f : Function)

theorem numbersOf_refuses (u : UnitType) :
    ∀ rs : List Result, RefusesUnless lacks (numbersOf f u rs)
  | [] => .ok _
  | r :: rs =>
    (r.number?_refuses _).bind fun _ => (sameUnit_refuses _ _).bind fun _ =>
      (numbersOf_refuses u rs).bind fun _ => .ok _

theorem sameUnitNumbers_refuses (args : List Result) :
    RefusesUnless lacks (sameUnitNumbers f args) := by
  unfold sameUnitNumbers
  dsimp only
  split
  · exact .refuse nofun
  · exact (Result.number?_refuses _ _).bind fun _ => (numbersOf_refuses f _ _).bind fun _ => .ok _

theorem selectBest_refuses (beats : Float → Float → Bool) (args : List Result) :
    RefusesUnless lacks (selectBest f beats args) :=
  (sameUnitNumbers_refuses f args).bind fun _ => .ok _

theorem selectIndex_refuses (beats : Float → Float → Bool) (args : List Result) :
    RefusesUnless lacks (selectIndex f beats args) :=
  (sameUnitNumbers_refuses f args).bind fun _ => .ok _

theorem unitPreserving_refuses (g : Float → Float) (r : Result) :
    RefusesUnless lacks (unitPreserving f g r) :=
  (r.number?_refuses _).bind fun _ => .ok _

theorem ofDimensionless_refuses (g : Float → Float) (unit : UnitType) (r : Result) :
    RefusesUnless lacks (ofDimensionless f g unit r) := by
  refine (r.number?_refuses _).bind fun ⟨x, u⟩ => ?_
  dsimp only
  split
  · exact .ok _
  · exact .refuse nofun

theorem arcTangent_refuses (y x : Result) : RefusesUnless lacks (arcTangent f y x) :=
  (y.number?_refuses _).bind fun _ => (x.number?_refuses _).bind fun _ =>
    (sameUnit_refuses _ _).bind fun _ => .ok _

theorem chooseAt_refuses (index : Result) (choices : List Result) :
    RefusesUnless lacks (chooseAt index choices) := by
  refine (index.number?_refuses _).bind fun ⟨x, u⟩ => ?_
  dsimp only
  split
  · split
    · exact .ok _
    · exact .refuse nofun
  · exact .refuse nofun

/-- The function of a number as an angle. -/
theorem ofAngle_number (g : Float → Float) (x : Float) (u : UnitType) :
    ofAngle f g (.number x u) =
      if u = .dimensionless ∨ u = .angle then
        match Number.onFinite? g x with
        | some y => .ok (.plain y)
        | none => .error .undefined
      else refuse (.angleRequired f.name u) :=
  rfl

theorem ofAngle_refuses (g : Float → Float) (r : Result) :
    RefusesUnless r.IsInfiniteAngle (ofAngle f g r) := by
  cases r with
  | number x u =>
    rw [ofAngle_number]
    split
    · next hunit =>
      split
      · exact .ok _
      · next hnone => exact ⟨hunit, Number.onFinite?_eq_none.1 hnone⟩
    · exact .refuse nofun
  | _ => exact .refuse nofun

theorem ofAngle_eq_undefined (g : Float → Float) {r : Result} (h : r.IsInfiniteAngle) :
    ofAngle f g r = .error .undefined := by
  cases r with
  | number x u =>
    rw [ofAngle_number, if_pos h.1, Number.onFinite?_eq_none.2 h.2]
  | _ => cases h

namespace Function

theorem applyOne_refuses (r : Result) :
    RefusesUnless (f.IsOfAngle ∧ r.IsInfiniteAngle) (f.applyOne r) := by
  cases f with
  | abs | ceil | floor => exact unitPreserving_refuses _ _ r
  | signum => exact (r.number?_refuses _).bind fun _ => .ok _
  | sqrt | exp | ln | log | asin | acos | atan => exact ofDimensionless_refuses _ _ _ r
  | sin => exact (ofAngle_refuses _ _ r).mono fun h => ⟨.inl rfl, h⟩
  | cos => exact (ofAngle_refuses _ _ r).mono fun h => ⟨.inr (.inl rfl), h⟩
  | tan => exact (ofAngle_refuses _ _ r).mono fun h => ⟨.inr (.inr rfl), h⟩
  | size =>
    cases r with
    | array | map | text => exact .ok _
    | _ => exact .refuse nofun
  | notNull => exact .ok _
  | max | min | indexOfMax | indexOfMin | e | pi | atan2 | choose => exact .refuse nofun

/-- **Every function yields a result or refuses its arguments**, but for the sine, cosine or tangent
of an infinity. -/
theorem apply_refuses (args : List Result) :
    RefusesUnless (f.IsOfAngle ∧ ∃ r, args = [r] ∧ r.IsInfiniteAngle) (f.apply args) := by
  unfold apply
  split
  · exact selectBest_refuses _ _ _
  · exact selectBest_refuses _ _ _
  · exact selectIndex_refuses _ _ _
  · exact selectIndex_refuses _ _ _
  · exact .ok _
  · exact .ok _
  · exact chooseAt_refuses _ _
  · exact arcTangent_refuses _ _ _
  · exact (applyOne_refuses _ _).mono fun h => ⟨h.1, _, rfl, h.2⟩
  · exact .refuse nofun

theorem apply_eq_undefined_iff {f : Function} {args : List Result} :
    f.apply args = .error .undefined ↔ f.IsOfAngle ∧ ∃ r, args = [r] ∧ r.IsInfiniteAngle := by
  constructor
  · exact (f.apply_refuses args).of_undefined
  · rintro ⟨rfl | rfl | rfl, r, rfl, h⟩
    · exact ofAngle_eq_undefined _ _ h
    · exact ofAngle_eq_undefined _ _ h
    · exact ofAngle_eq_undefined _ _ h

end Function

end

end ModelInputs
