import ModelInputs.Model.Reading
import ModelInputs.Proofs.Unit.Inference

/-!
# Unit types of handles

Where an output of an entity is read, its unit type is known without reading it. A custom output
yields numbers of no other unit type, since those are refused. An attribute whose value comes from
an expression may do so, because its unit type was fixed when it was defined; and an input may whose
value is a truth value or was computed with a unit type already. Nothing is known here about the
outputs of classes, which are expected to keep to what they declare.

* `Value.KeepsUnit`: the values that take the unit type with which they are read;
* `World.GettersFaithful`, `World.HandleFaithful`;
* **`World.numericUnit_sound_iff`**: what is known of a handle holds if and only if it is faithful.
-/

namespace ModelInputs

open Result (Fits fits_none fits_number fits_plain fits_ofBool)

/-! ## Values -/

namespace Value

/-- A number that the value gives has the unit type with which the value is read. -/
def KeepsUnit (u : UnitType) : Value → Prop
  | bool _ => u = .dimensionless
  | result r => r.Fits (some u)
  | _ => True

theorem keepsUnit_iff (names : Names) {u : UnitType} {v : Value} :
    v.KeepsUnit u ↔ ∀ r, v.toResult names u = .ok r → r.Fits (some u) := by
  cases v with
  | bool b =>
    constructor
    · rintro rfl _ ⟨⟩
      exact fits_ofBool b
    · intro h
      exact (fits_number.1 (h _ rfl)).symm
  | result r =>
    constructor
    · rintro h _ ⟨⟩
      exact h
    · intro h
      exact h r rfl
  | int n =>
    refine ⟨fun _ r hr => ?_, fun _ => trivial⟩
    obtain ⟨x, -, hr₁⟩ := bind_eq_ok.1 hr
    cases hr₁
    exact fits_number.2 rfl
  | float x =>
    refine ⟨fun _ r hr => ?_, fun _ => trivial⟩
    cases hr
    exact fits_number.2 rfl
  | list | tuple | map =>
    refine ⟨fun _ r hr => ?_, fun _ => trivial⟩
    obtain ⟨rs, -, hr₁⟩ := bind_eq_ok.1 hr
    cases hr₁
    rintro _ _ _ - ⟨⟩
  | none | text | entity | date | member | colour | vector =>
    refine ⟨fun _ r hr => ?_, fun _ => trivial⟩
    cases hr
    rintro _ _ _ - ⟨⟩
  | keywordRef | input | chain | sampler | provider | handle | object =>
    refine ⟨fun _ r hr => ?_, fun _ => trivial⟩
    cases hr

end Value

namespace World

variable (w : World) (t : Float)

/-- The outputs of classes that declare numbers yield them in the unit type that they declare. -/
def GettersFaithful : Prop :=
  ∀ e name spec v, w.outputSpec? e name = some spec → spec.type.isNumeric = true →
    w.outputValue e name t = .ok v → v.KeepsUnit spec.unitType

/-- A number that the handle yields has the unit type that is known of the handle. -/
def HandleFaithful : Handle → Prop
  | .output .. | .custom _ => True
  | .attribute a =>
    ∀ x r, w.attribute? a = some x → x.type.isNumeric = true →
      w.readings.result (.attribute a) t = .ok r → r.Fits (some x.unitType)
  | .input id =>
    ∀ u v, (w.typeOfHandle (.input id)).isNumeric = true →
      w.readings.unit (.input id) = .ok u → w.readings.value (.input id) t = .ok v → v.KeepsUnit u

variable {w t}

theorem numericUnit_eq_ok {r : Readings} {h : Handle} {unit : Option UnitType} :
    w.numericUnit r h = .ok unit ↔
      ((w.typeOfHandle h).isNumeric = true ∧ ∃ u, r.unit h = .ok u ∧ unit = some u) ∨
        ((w.typeOfHandle h).isNumeric = false ∧ unit = none) := by
  unfold numericUnit
  cases (w.typeOfHandle h).isNumeric with
  | true =>
    rw [if_pos rfl, bind_eq_ok]
    constructor
    · rintro ⟨u, hu, ⟨⟩⟩
      exact .inl ⟨rfl, u, hu, rfl⟩
    · rintro (⟨-, u, hu, rfl⟩ | ⟨⟨⟩, -⟩)
      exact ⟨u, hu, rfl⟩
  | false =>
    rw [if_neg nofun]
    constructor
    · rintro ⟨⟩
      exact .inr ⟨rfl, rfl⟩
    · rintro (⟨⟨⟩, -⟩ | ⟨-, rfl⟩)
      rfl

/-! ## The readings of a world -/

theorem readings_result (h : Handle) (t : Float) :
    w.readings.result h t = w.resultWith (w.readingsWithin w.depthLimit) t h :=
  rfl

theorem readings_unit (h : Handle) :
    w.readings.unit h = w.unitWith (w.readingsWithin w.depthLimit) h :=
  rfl

theorem customResult_fits {r : Readings} {o : CustomOutput} {res : Result}
    (h : w.customResult r o t = .ok res) : res.Fits (some o.unitType) := by
  obtain ⟨res', -, h₁⟩ := bind_eq_ok.1 h
  cases res' with
  | number x u =>
    simp only at h₁
    split at h₁
    · next hu =>
      cases h₁
      exact fits_number.2 hu
    · cases h₁
  | _ =>
    cases h₁
    rintro _ _ _ - ⟨⟩

/-- The result of an input is its value, read with the unit type of the input. -/
theorem inputResult_eq_ok {id : InputId} {r : Result} :
    w.readings.result (.input id) t = .ok r ↔
      ∃ v u, w.readings.value (.input id) t = .ok v ∧ w.readings.unit (.input id) = .ok u ∧
        v.toResult w.names u = .ok r := by
  rw [readings_result, resultWith, bind_eq_ok]
  constructor
  · rintro ⟨v, hv, h⟩
    obtain ⟨u, hu, hr⟩ := bind_eq_ok.1 h
    exact ⟨v, u, hv, hu, hr⟩
  · rintro ⟨v, u, hv, hu, hr⟩
    exact ⟨v, hv, bind_eq_ok.2 ⟨u, hu, hr⟩⟩

theorem attributeResult_exists {a : AttributeId} {r : Result}
    (h : w.readings.result (.attribute a) t = .ok r) : ∃ x, w.attribute? a = some x := by
  rw [readings_result, resultWith] at h
  cases hx : w.attribute? a with
  | none =>
    rw [hx] at h
    cases h
  | some x => exact ⟨x, rfl⟩

theorem typeOfHandle_attribute {a : AttributeId} {x : Attribute} (h : w.attribute? a = some x) :
    w.typeOfHandle (.attribute a) = x.type := by
  rw [typeOfHandle, h]
  rfl

theorem unit_attribute {a : AttributeId} {x : Attribute} (h : w.attribute? a = some x) :
    w.readings.unit (.attribute a) = .ok x.unitType := by
  rw [readings_unit, unitWith, h]
  rfl

theorem typeOfHandle_output {e : EntityId} {name : String} {spec : OutputSpec}
    (h : w.outputSpec? e name = some spec) : w.typeOfHandle (.output e name) = spec.type := by
  rw [typeOfHandle, h]
  rfl

/-- The result of an output of a class is its value, read with the unit type it declares. -/
theorem outputResult_eq_ok {e : EntityId} {name : String} {r : Result} :
    w.readings.result (.output e name) t = .ok r ↔
      ∃ spec v, w.outputSpec? e name = some spec ∧ w.outputValue e name t = .ok v ∧
        v.toResult w.names spec.unitType = .ok r := by
  rw [readings_result, resultWith, bind_eq_ok]
  constructor
  · rintro ⟨v, hv, h⟩
    obtain ⟨u, hu, hr⟩ := bind_eq_ok.1 h
    rw [unitWith] at hu
    split at hu
    · next spec hspec =>
      cases hu
      exact ⟨spec, v, hspec, hv, hr⟩
    · cases hu
  · rintro ⟨spec, v, hspec, hv, hr⟩
    refine ⟨v, hv, bind_eq_ok.2 ⟨spec.unitType, ?_, hr⟩⟩
    rw [unitWith, hspec]

/-- **What is known of a handle holds of its result if and only if the handle is faithful.** -/
theorem numericUnit_sound_iff (hw : w.GettersFaithful t) (h : Handle) :
    (∀ unit r, w.numericUnit w.readings h = .ok unit → w.readings.result h t = .ok r →
      r.Fits unit) ↔ w.HandleFaithful t h := by
  match h with
  | .output e name =>
    refine ⟨fun _ => trivial, fun _ unit r hunit hr => ?_⟩
    obtain ⟨hnum, u, hu, rfl⟩ | ⟨-, rfl⟩ := numericUnit_eq_ok.1 hunit
    · obtain ⟨spec, v, hspec, hv, hr₁⟩ := outputResult_eq_ok.1 hr
      rw [typeOfHandle_output hspec] at hnum
      rw [readings_unit, unitWith, hspec] at hu
      cases hu
      exact (Value.keepsUnit_iff w.names).1 (hw e name spec v hspec hnum hv) r hr₁
    · exact fits_none r
  | .custom o =>
    refine ⟨fun _ => trivial, fun _ unit r hunit hr => ?_⟩
    obtain ⟨-, u, hu, rfl⟩ | ⟨-, rfl⟩ := numericUnit_eq_ok.1 hunit
    · cases hu
      exact customResult_fits hr
    · exact fits_none r
  | .attribute a =>
    constructor
    · intro h x r hx hnum hr
      refine h (some x.unitType) r (numericUnit_eq_ok.2 (.inl ⟨?_, x.unitType, ?_, rfl⟩)) hr
      · rw [typeOfHandle_attribute hx]
        exact hnum
      · exact unit_attribute hx
    · intro h unit r hunit hr
      obtain ⟨x, hx⟩ := attributeResult_exists hr
      obtain ⟨hnum, u, hu, rfl⟩ | ⟨-, rfl⟩ := numericUnit_eq_ok.1 hunit
      · rw [typeOfHandle_attribute hx] at hnum
        rw [unit_attribute hx] at hu
        cases hu
        exact h x r hx hnum hr
      · exact fits_none r
  | .input id =>
    constructor
    · intro h u v hnum hu hv
      rw [Value.keepsUnit_iff w.names]
      intro r hr
      exact h (some u) r (numericUnit_eq_ok.2 (.inl ⟨hnum, u, hu, rfl⟩))
        (inputResult_eq_ok.2 ⟨v, u, hv, hu, hr⟩)
    · intro h unit r hunit hr
      obtain ⟨hnum, u, hu, rfl⟩ | ⟨-, rfl⟩ := numericUnit_eq_ok.1 hunit
      · obtain ⟨v, u', hv, hu', hr₁⟩ := inputResult_eq_ok.1 hr
        obtain rfl : u = u' := Except.ok.inj (hu.symm.trans hu')
        exact (Value.keepsUnit_iff w.names).1 (h u v hnum hu hv) r hr₁
      · exact fits_none r

end World

end ModelInputs
