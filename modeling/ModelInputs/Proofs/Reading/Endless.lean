import ModelInputs.Model.Reading
import ModelInputs.Proofs.Refusals

/-!
# Failures of self-reference

A reading that refers back to itself comes to the limit of the depth, and the expression around it
turns that into an error of its own. No other step of a reading fails in this way: operators,
functions, conversions and inputs have failures of their own, and an error that is placed anew keeps
its wording.

* `Failure.IsEndless`, `Endless`: the failures of self-reference;
* `NoLoop`: an operator or a function does not fail in this way;
* **`BinaryOp.apply_noLoop`**, **`Function.apply_noLoop`**, **`Value.toResult_not_endless`**;
* `World.GettersPlain`: the outputs of classes do not either.
-/

namespace ModelInputs

/-- The failure of what refers back to itself: the depth is at its limit, or the expression around
says so. -/
def Failure.IsEndless : Failure → Prop
  | tooDeep => True
  | expression error => error.fault = .selfReference
  | _ => False

/-- The computation fails because it refers back to itself. -/
def Endless {α : Type} (x : Except Failure α) : Prop :=
  ∃ f, x = .error f ∧ f.IsEndless

section

variable {α β : Type}

theorem endless_error {f : Failure} : Endless (.error f : Except Failure α) ↔ f.IsEndless := by
  constructor
  · rintro ⟨_, ⟨⟩, h⟩
    exact h
  · exact fun h => ⟨f, rfl, h⟩

theorem not_endless_error {f : Failure} (h : ¬ f.IsEndless) :
    ¬ Endless (.error f : Except Failure α) :=
  fun hf => h (endless_error.1 hf)

theorem not_endless_ok (a : α) : ¬ Endless (.ok a : Except Failure α) := by
  rintro ⟨f, hf, -⟩
  cases hf

theorem not_endless_failAt {pos : Nat} {fault : ExprFault} (h : fault ≠ .selfReference) :
    ¬ Endless (failAt pos fault : Except Failure α) :=
  not_endless_error h

theorem not_endless_input (x : Except InputError α) : ¬ Endless (x.mapError Failure.input) := by
  cases x with
  | ok a => exact not_endless_ok a
  | error e => exact not_endless_error id

theorem not_endless_bind {x : Except Failure α} {k : α → Except Failure β} (hx : ¬ Endless x)
    (hk : ∀ a, ¬ Endless (k a)) : ¬ Endless (x >>= k) := by
  cases x with
  | error f => exact fun h => hx (endless_error.2 (endless_error.1 h))
  | ok a => exact hk a

theorem not_endless_mapM {k : α → Except Failure β} (hk : ∀ a, ¬ Endless (k a)) (as : List α) :
    ¬ Endless (as.mapM k) := by
  induction as with
  | nil => exact not_endless_ok _
  | cons a as ih =>
    rw [List.mapM_cons]
    exact not_endless_bind (hk a) fun _ => not_endless_bind ih fun _ => not_endless_ok _

end

/-! ## Errors placed anew -/

namespace Failure

theorem isEndless_relocated (pos : Nat) (f : Failure) :
    IsEndless (match f with
      | .expression error => .exprAt pos error.fault
      | failure => failure) ↔ f.IsEndless := by
  cases f <;> exact Iff.rfl

theorem isEndless_anchoredIn (source : String) (f : Failure) :
    (f.anchoredIn source).IsEndless ↔ f.IsEndless := by
  cases f with
  | expression error =>
    show (error.anchoredIn source).fault = _ ↔ error.fault = _
    rw [ExprError.fault_anchoredIn]
  | _ => exact Iff.rfl

/-- The failure as it leaves an expression. -/
def leaving (exp : Expression) : Failure → Failure
  | tooDeep => expression ⟨.selfReference, 0, some exp.source⟩
  | failure => failure

theorem isEndless_leaving (exp : Expression) (f : Failure) :
    (f.leaving exp).IsEndless ↔ f.IsEndless := by
  cases f with
  | tooDeep => exact iff_of_true rfl trivial
  | _ => exact Iff.rfl

end Failure

theorem World.withinExpression_eq_mapError (exp : Expression) (x : Except Failure Result) :
    World.withinExpression exp x = x.mapError (Failure.leaving exp) := by
  cases x with
  | ok a => rfl
  | error f => cases f <;> rfl

/-! ## Operators and functions -/

/-- The operands are not refused because of a self-reference. -/
def NoLoop {α : Type} (x : Except OpFault α) : Prop :=
  x ≠ .error (.refused .selfReference)

namespace NoLoop

variable {α : Type} {x : Except OpFault α}

theorem of_refuses {lacks : Prop} (h : RefusesUnless lacks x) : NoLoop x := by
  rintro rfl
  exact h rfl

theorem not_endless (h : NoLoop x) (pos : Nat) : ¬ Endless (placed pos x) := by
  rintro ⟨f, hf, hendless⟩
  cases x with
  | ok a => cases hf
  | error fault =>
    cases hf
    cases fault with
    | undefined => exact hendless
    | refused fault =>
      obtain rfl : fault = .selfReference := hendless
      exact h rfl

end NoLoop

theorem Result.truth_noLoop (r : Result) : NoLoop r.truth :=
  .of_refuses (r.truth_refuses : RefusesUnless False _)

theorem UnaryOp.apply_noLoop (op : UnaryOp) (r : Result) : NoLoop (op.apply r) :=
  .of_refuses (op.apply_refuses r : RefusesUnless False _)

/-- **No operator refuses its operands because of a self-reference.** -/
theorem BinaryOp.apply_noLoop (op : BinaryOp) (l r : Result) : NoLoop (op.apply l r) :=
  .of_refuses (op.apply_refuses l r)

/-- **No function refuses its arguments because of a self-reference.** -/
theorem Function.apply_noLoop (f : Function) (args : List Result) : NoLoop (f.apply args) :=
  .of_refuses (f.apply_refuses args)

/-- Indexing does not fail because of a self-reference. -/
theorem Expr.itemAt_not_endless (nameOf : EntityId → String) (target index : Result) (pos : Nat) :
    ¬ Endless ((itemAt nameOf target index).mapError (.exprAt pos)) := by
  have hfault : itemAt nameOf target index ≠ .error .selfReference := by
    unfold itemAt
    dsimp only
    repeat' split
    all_goals nofun
  rintro ⟨f, hf, hendless⟩
  cases hx : itemAt nameOf target index with
  | ok a =>
    rw [hx] at hf
    cases hf
  | error fault =>
    rw [hx] at hf hfault
    cases hf
    exact hfault (congrArg _ hendless)

/-! ## Values -/

namespace Value

mutual

/-- **No value is refused in expressions because of a self-reference.** -/
theorem toResult_not_endless (names : Names) (unit : UnitType) :
    ∀ v : Value, ¬ Endless (v.toResult names unit)
  | result _ | none | entity _ | bool _ | float _ | text _ | date _ | member _ => not_endless_ok _
  | int n => by
    have hnumber : ¬ Endless (numberOfInt? n) := by
      unfold numberOfInt?
      dsimp only
      split
      · exact not_endless_ok _
      · exact not_endless_error id
    exact not_endless_bind hnumber fun _ => not_endless_ok _
  | colour _ | vector _ => not_endless_ok _
  | keywordRef .. | input _ | chain _ | sampler _ | provider _ | handle _ | object =>
    not_endless_failAt nofun
  | list items | tuple items =>
    not_endless_bind (toResults_not_endless names unit items) fun _ => not_endless_ok _
  | map entries =>
    not_endless_bind (toEntries_not_endless names unit entries) fun _ => not_endless_ok _

theorem toResults_not_endless (names : Names) (unit : UnitType) :
    ∀ vs : List Value, ¬ Endless (toResults names unit vs)
  | [] => not_endless_ok _
  | v :: vs =>
    not_endless_bind (toResult_not_endless names unit v) fun _ =>
      not_endless_bind (toResults_not_endless names unit vs) fun _ => not_endless_ok _

theorem toEntries_not_endless (names : Names) (unit : UnitType) :
    ∀ entries : List (Value × Value), ¬ Endless (toEntries names unit entries)
  | [] => not_endless_ok _
  | (_, v) :: entries =>
    not_endless_bind (toResult_not_endless names unit v) fun _ =>
      not_endless_bind (toEntries_not_endless names unit entries) fun _ => not_endless_ok _

end

theorem members_not_endless (v : Value) : ¬ Endless v.members := by
  cases v with
  | list | tuple | map | text | colour | vector | keywordRef => exact not_endless_ok _
  | _ => exact not_endless_error id

theorem asPair_not_endless (index : Nat) (item : Value) : ¬ Endless (asPair index item) := by
  refine not_endless_bind item.members_not_endless fun parts => ?_
  split
  · exact not_endless_ok _
  · exact not_endless_error id

theorem listed_not_endless (v : Value) : ¬ Endless v.listed := by
  unfold listed
  split
  · exact members_not_endless _
  · exact not_endless_ok _

theorem asEntries_not_endless (v : Value) : ¬ Endless v.asEntries := by
  unfold asEntries
  split
  · exact not_endless_ok _
  · refine not_endless_bind (listed_not_endless _) fun _ => ?_
    exact not_endless_bind (not_endless_mapM (fun _ => asPair_not_endless _ _) _) fun _ =>
      not_endless_ok _

end Value

theorem Input.current?_not_endless (i : Input) : ¬ Endless i.current? := by
  unfold current?
  split
  · exact not_endless_bind (Value.asEntries_not_endless _) fun _ => not_endless_ok _
  · exact not_endless_ok _

namespace World

variable (w : World)

theorem valueOf_not_endless (id : InputId) : ¬ Endless (w.valueOf id) := by
  unfold valueOf
  split
  · exact Input.current?_not_endless _
  · exact not_endless_ok _

theorem samplerOf_not_endless (v : Value) : ¬ Endless (w.samplerOf v) := by
  unfold samplerOf
  split
  · exact not_endless_ok _
  · split
    · exact not_endless_ok _
    · exact not_endless_error id
  · exact not_endless_error id

/-- The outputs of classes do not evaluate expressions: what they yield is never a
self-reference. -/
def GettersPlain : Prop :=
  ∀ e name t, ¬ Endless (w.outputValue e name t)

end World

end ModelInputs
