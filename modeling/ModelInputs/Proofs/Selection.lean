import ModelInputs.Proofs.Meaning
import ModelInputs.Proofs.Number.Counting
import ModelInputs.Proofs.Unit.Operations

/-!
# The best of several numbers, and its place

Of several numbers one can ask for the best one, or for the place where it stands. Both questions go
through the numbers from left to right and keep one of them until a later one beats it, so they end
at the same number, whatever is tied with it and whatever cannot be compared. The place is told as a
number, counted from one as the places of a choice are, and comes back from it: to choose at the
place of the best number among the same expressions is to ask for the best number.

* `getElem?_bestIndex`: the best number stands at its place;
* `sameUnitNumbers_eq_ok`, `selectBest_eq_ok`, `selectIndex_eq_ok`: what has a best number;
* `chooseAt_place`: what is chosen at a place;
* **`Expr.choose_indexOf`**: the choice at the place of the greatest or smallest number.
-/

namespace ModelInputs

open scoped Number

variable {beats : Float → Float → Bool}

/-! ## Going through the numbers -/

/-- Along the numbers `zs`, from the kept one `x` and with `xs` still to come, both questions end at
the same number. -/
theorem getElem?_bestIndexFrom {zs xs : List Float} {x : Float} {place next : Nat}
    (hx : zs[place]? = some x) (hxs : zs.drop next = xs) :
    zs[bestIndex beats x place next xs]? = some (best beats x xs) := by
  induction xs generalizing x place next with
  | nil => exact hx
  | cons y ys ih =>
    have hy : zs[next]? = some y := by rw [← List.head?_drop, hxs, List.head?_cons]
    have hys : zs.drop (next + 1) = ys := by rw [← List.tail_drop, hxs, List.tail_cons]
    rw [bestIndex]
    show _ = some (best beats (if beats y x then y else x) ys)
    by_cases hb : beats y x = true
    · rw [if_pos hb, if_pos hb]
      exact ih hy hys
    · rw [if_neg hb, if_neg hb]
      exact ih hx hys

/-- **The best number stands at its place.** -/
theorem getElem?_bestIndex (x : Float) (xs : List Float) :
    (x :: xs)[bestIndex beats x 0 1 xs]? = some (best beats x xs) :=
  getElem?_bestIndexFrom rfl rfl

/-! ## Numbers of one unit type -/

/-- Numbers of that unit type. -/
def Result.numbers (u : UnitType) (xs : List Float) : List Result :=
  xs.map (.number · u)

theorem Result.getElem?_numbers (u : UnitType) (xs : List Float) (i : Nat) :
    (numbers u xs)[i]? = xs[i]?.map (.number · u) :=
  List.getElem?_map

section

variable {f : Function} {u : UnitType} {x : Float} {xs : List Float} {rs : List Result} {r : Result}

theorem numbersOf_eq_ok : numbersOf f u rs = .ok xs ↔ rs = Result.numbers u xs := by
  constructor
  · intro h
    induction rs generalizing xs with
    | nil =>
      cases h
      rfl
    | cons r rs ih =>
      obtain ⟨⟨x, v⟩, hx, h⟩ := bind_eq_ok.1 h
      obtain ⟨⟨⟩, hsame, h⟩ := bind_eq_ok.1 h
      obtain ⟨ys, hys, ⟨⟩⟩ := bind_eq_ok.1 h
      obtain rfl := Result.number?_eq_ok.1 hx
      obtain rfl := sameUnit_eq_ok.1 hsame
      rw [ih hys]
      rfl
  · rintro rfl
    induction xs with
    | nil => rfl
    | cons x xs ih =>
      refine bind_eq_ok.2 ⟨(x, u), rfl, bind_eq_ok.2 ⟨(), sameUnit_eq_ok.2 rfl, ?_⟩⟩
      exact bind_eq_ok.2 ⟨xs, ih, rfl⟩

/-- Several arguments are numbers of one unit type themselves; only a single one may be an array of
them. -/
theorem sameUnitNumbers_eq_ok (htwo : 2 ≤ rs.length) :
    sameUnitNumbers f rs = .ok (u, x, xs) ↔ rs = Result.numbers u (x :: xs) := by
  unfold sameUnitNumbers
  split
  · simp at htwo
  dsimp only
  cases rs with
  | nil => simp at htwo
  | cons first rs =>
    constructor
    · intro h
      obtain ⟨⟨y, v⟩, hy, h⟩ := bind_eq_ok.1 h
      obtain ⟨ys, hys, ⟨⟩⟩ := bind_eq_ok.1 h
      obtain rfl := Result.number?_eq_ok.1 hy
      rw [numbersOf_eq_ok.1 hys]
      rfl
    · intro h
      obtain ⟨rfl, hrs⟩ := List.cons.inj h
      refine bind_eq_ok.2 ⟨(x, u), rfl, bind_eq_ok.2 ⟨xs, ?_, rfl⟩⟩
      exact numbersOf_eq_ok.2 hrs

theorem selectBest_eq_ok (htwo : 2 ≤ rs.length) :
    selectBest f beats rs = .ok r ↔
      ∃ u x xs, rs = Result.numbers u (x :: xs) ∧ r = .number (best beats x xs) u := by
  constructor
  · intro h
    obtain ⟨⟨u, x, xs⟩, hs, ⟨⟩⟩ := bind_eq_ok.1 h
    exact ⟨u, x, xs, (sameUnitNumbers_eq_ok htwo).1 hs, rfl⟩
  · rintro ⟨u, x, xs, hrs, rfl⟩
    exact bind_eq_ok.2 ⟨(u, x, xs), (sameUnitNumbers_eq_ok htwo).2 hrs, rfl⟩

theorem selectIndex_eq_ok (htwo : 2 ≤ rs.length) :
    selectIndex f beats rs = .ok r ↔
      ∃ u x xs, rs = Result.numbers u (x :: xs) ∧
        r = .plain (Float.ofNat (bestIndex beats x 0 1 xs + 1)) := by
  constructor
  · intro h
    obtain ⟨⟨u, x, xs⟩, hs, ⟨⟩⟩ := bind_eq_ok.1 h
    exact ⟨u, x, xs, (sameUnitNumbers_eq_ok htwo).1 hs, rfl⟩
  · rintro ⟨u, x, xs, hrs, rfl⟩
    exact bind_eq_ok.2 ⟨(u, x, xs), (sameUnitNumbers_eq_ok htwo).2 hrs, rfl⟩

end

/-! ## Choosing at a place -/

/-- At a place that is told as a number, the result there is chosen. -/
theorem chooseAt_place {choices : List Result} {k : Nat} {r : Result}
    (hsize : choices.length ≤ 2 ^ (53 : Nat)) (h : choices[k]? = some r) :
    chooseAt (.plain (Float.ofNat (k + 1))) choices = .ok r := by
  obtain ⟨hk, -⟩ := List.getElem?_eq_some_iff.1 h
  obtain ⟨hwhole, htruncate, hone⟩ :=
    Number.ofNat_exact (Nat.zero_lt_succ k) (Nat.le_trans (Nat.succ_le_of_lt hk) hsize)
  have hguard : (Number.isWhole (Float.ofNat (k + 1)) &&
      decide (1.0 ≤ Float.ofNat (k + 1))) = true := by
    rw [hwhole, decide_eq_true hone]
    rfl
  refine bind_eq_ok.2 ⟨(_, .dimensionless), rfl, ?_⟩
  dsimp only
  rw [if_pos hguard, htruncate, Int.toNat_natCast, Nat.succ_sub_one, h]
  rfl

/-- To choose among several results at the place of the best number is to take the best number. -/
theorem chooseAt_selectIndex (f g : Function) {rs : List Result} (htwo : 2 ≤ rs.length)
    (hsize : rs.length ≤ 2 ^ (53 : Nat)) (r : Result) :
    (∃ i, selectIndex f beats rs = .ok i ∧ chooseAt i rs = .ok r) ↔
      selectBest g beats rs = .ok r := by
  have hchosen : ∀ u x xs, rs = Result.numbers u (x :: xs) →
      chooseAt (.plain (Float.ofNat (bestIndex beats x 0 1 xs + 1))) rs =
        .ok (.number (best beats x xs) u) := by
    intro u x xs hrs
    refine chooseAt_place hsize ?_
    rw [hrs, Result.getElem?_numbers, getElem?_bestIndex]
    rfl
  rw [selectBest_eq_ok htwo]
  constructor
  · rintro ⟨i, hi, h⟩
    obtain ⟨u, x, xs, hrs, rfl⟩ := (selectIndex_eq_ok htwo).1 hi
    rw [hchosen u x xs hrs] at h
    cases h
    exact ⟨u, x, xs, hrs, rfl⟩
  · rintro ⟨u, x, xs, hrs, rfl⟩
    exact ⟨_, (selectIndex_eq_ok htwo).2 ⟨u, x, xs, hrs, rfl⟩, hchosen u x xs hrs⟩

/-! ## Expressions -/

namespace Expr

variable {env : Env} {args : List Expr} {r : Result}

theorem length_of_evalItems {rs : List Result} (h : evalItems env args = .ok rs) :
    rs.length = args.length := by
  induction args generalizing rs with
  | nil =>
    cases h
    rfl
  | cons arg args ih =>
    obtain ⟨first, -, h⟩ := bind_eq_ok.1 h
    obtain ⟨rest, hrest, ⟨⟩⟩ := bind_eq_ok.1 h
    rw [List.length_cons, List.length_cons, ih hrest]

/-- A choice evaluates the index and then all that there is to choose from. -/
theorem eval_choose_eq_ok {index : Expr} {pos : Nat} :
    (call .choose (index :: args) pos).eval env = .ok r ↔
      ∃ i rs, index.eval env = .ok i ∧ evalItems env args = .ok rs ∧ chooseAt i rs = .ok r := by
  rw [eval_call_eq_ok]
  constructor
  · rintro ⟨_, hitems, h⟩
    obtain ⟨i, hi, hitems⟩ := bind_eq_ok.1 hitems
    obtain ⟨rs, hrs, ⟨⟩⟩ := bind_eq_ok.1 hitems
    exact ⟨i, rs, hi, hrs, h⟩
  · rintro ⟨i, rs, hi, hrs, h⟩
    exact ⟨i :: rs, bind_eq_ok.2 ⟨i, hi, bind_eq_ok.2 ⟨rs, hrs, rfl⟩⟩, h⟩

/-- One selecting function and the function that tells its place. -/
theorem choose_place {index select : Function}
    (hindex : ∀ rs, index.apply rs = selectIndex index beats rs)
    (hselect : ∀ rs, select.apply rs = selectBest select beats rs) (htwo : 2 ≤ args.length)
    (hsize : args.length ≤ 2 ^ (53 : Nat)) (i j k : Nat) :
    SameResult ((call .choose (call index args i :: args) j).eval env)
      ((call select args k).eval env) := by
  refine sameResult_iff.2 fun r => ?_
  rw [eval_choose_eq_ok, eval_call_eq_ok]
  constructor
  · rintro ⟨place, rs, hplace, hrs, h⟩
    obtain ⟨rs', hrs', hplace⟩ := eval_call_eq_ok.1 hplace
    cases hrs.symm.trans hrs'
    have hlength := length_of_evalItems hrs
    rw [hindex] at hplace
    refine ⟨rs, hrs, (hselect rs).trans ?_⟩
    exact (chooseAt_selectIndex index select (by omega) (by omega) r).1 ⟨place, hplace, h⟩
  · rintro ⟨rs, hrs, h⟩
    have hlength := length_of_evalItems hrs
    rw [hselect] at h
    obtain ⟨place, hplace, h⟩ :=
      (chooseAt_selectIndex index select (by omega) (by omega) r).2 h
    refine ⟨place, rs, ?_, hrs, h⟩
    exact eval_call_eq_ok.2 ⟨rs, hrs, (hindex rs).trans hplace⟩

/-- **The greatest number is the one at the place of the greatest number**, and so is the smallest
one: with several arguments, in every environment, both fail or both yield the same number with the
same unit type. A place is told as a floating point number, and these are exact up to `2 ^ 53`,
which is more arguments than any address space holds. -/
theorem choose_indexOf (env : Env) {args : List Expr} (htwo : 2 ≤ args.length)
    (hsize : args.length ≤ 2 ^ (53 : Nat)) (i j k : Nat) :
    SameResult ((call .choose (call .indexOfMax args i :: args) j).eval env)
        ((call .max args k).eval env) ∧
      SameResult ((call .choose (call .indexOfMin args i :: args) j).eval env)
        ((call .min args k).eval env) :=
  ⟨choose_place (fun _ => rfl) (fun _ => rfl) htwo hsize i j k,
    choose_place (fun _ => rfl) (fun _ => rfl) htwo hsize i j k⟩

/-- Four distances: one of them cannot be compared, and two are the greatest. -/
def tiedDistances : List Expr :=
  [literal (.number 1.0 .distance) 0, literal (.number Number.notANumber .distance) 5,
    literal (.number 2.0 .distance) 13, literal (.number 2.0 .distance) 18]

theorem eval_max_tiedDistances (env : Env) (pos : Nat) :
    (call .max tiedDistances pos).eval env = .ok (.number 2.0 .distance) := by
  have hbest : best greater 1.0 [Number.notANumber, 2.0, 2.0] = 2.0 := by
    have h₁ : greater Number.notANumber 1.0 = false := by decide +kernel
    have h₂ : greater 2.0 1.0 = true := by decide +kernel
    have h₃ : greater 2.0 2.0 = false := by decide +kernel
    simp [best, h₁, h₂, h₃]
  rw [← hbest]
  rfl

theorem eval_min_tiedDistances (env : Env) (pos : Nat) :
    (call .min tiedDistances pos).eval env = .ok (.number 1.0 .distance) := by
  have hbest : best smaller 1.0 [Number.notANumber, 2.0, 2.0] = 1.0 := by
    have h₁ : smaller Number.notANumber 1.0 = false := by decide +kernel
    have h₂ : smaller 2.0 1.0 = false := by decide +kernel
    simp [best, h₁, h₂]
  rw [← hbest]
  rfl

/-- The choice is one of the two greatest distances, and the smallest one. -/
theorem choose_indexOf_tiedDistances :
    2 ≤ tiedDistances.length ∧ tiedDistances.length ≤ 2 ^ (53 : Nat) ∧
      ∀ (env : Env) (i j : Nat),
        (call .choose (call .indexOfMax tiedDistances i :: tiedDistances) j).eval env =
            .ok (.number 2.0 .distance) ∧
          (call .choose (call .indexOfMin tiedDistances i :: tiedDistances) j).eval env =
            .ok (.number 1.0 .distance) := by
  have htwo : 2 ≤ tiedDistances.length := by decide
  have hsize : tiedDistances.length ≤ 2 ^ (53 : Nat) := by decide
  refine ⟨htwo, hsize, fun env i j => ?_⟩
  obtain ⟨hmax, hmin⟩ := choose_indexOf env htwo hsize i j 0
  exact ⟨(sameResult_iff.1 hmax _).2 (eval_max_tiedDistances env 0),
    (sameResult_iff.1 hmin _).2 (eval_min_tiedDistances env 0)⟩

end Expr

end ModelInputs
