import ModelInputs.Model.HandleChange
import ModelInputs.Proofs.Reading.Relabelled
import ModelInputs.Proofs.Repeating
import ModelInputs.Proofs.Run.Searching
import ModelInputs.Proofs.Run.Tables
import ModelInputs.Proofs.Value.Within

/-!
# Resetting attributes

An attribute is defined by a number or by an expression. What is assigned to it later takes the
place of either, and a number brings its unit type along. A reset takes away what was assigned, and
a number gets its unit type back with it; but an attribute that is defined by an expression keeps the
unit type that the last number has brought.

* `Attribute.lastUnit?`, `Attribute.KeepsUnitUnder`: what assignments leave behind;
* `World.readAttributes_cases`: the attributes that are defined;
* `Attribute.reset_assigned`: an attribute after some assignments and a reset;
* **`World.reset_restores_iff`**: what is read of it then is what was read before, but for the unit
  type;
* **`World.not_forall_reset_restores`**: the unit type may be another one.
-/

namespace ModelInputs

open Logged Relation

/-! ## Attributes -/

namespace Attribute

variable {d : Attribute} {rs : List Result}

/-- The unit type of the last number among the values. -/
def lastUnit? (rs : List Result) : Option UnitType :=
  (rs.filterMap numberUnit?).getLast?

/-- The attribute with the values assigned, one after the other. -/
def assignAll (rs : List Result) (d : Attribute) : Attribute :=
  rs.foldl (fun d r => d.assign r) d

/-- The unit type of a definition after assignments and a reset: a number gets it back. -/
def unitAfter (rs : List Result) (d : Attribute) : UnitType :=
  if d.expression = none then d.unitType else (lastUnit? rs).getD d.unitType

/-- The values do not change the unit type for good: the definition has a number to go back to, or
the last number that is assigned has the same unit type. -/
def KeepsUnitUnder (rs : List Result) (d : Attribute) : Prop :=
  d.expression = none ∨ ∀ unit, lastUnit? rs = some unit → unit = d.unitType

theorem unitAfter_eq_iff : d.unitAfter rs = d.unitType ↔ d.KeepsUnitUnder rs := by
  unfold unitAfter KeepsUnitUnder
  split
  · next h => exact iff_of_true rfl (.inl h)
  · next h =>
    rw [or_iff_right h]
    cases lastUnit? rs with
    | none => exact iff_of_true rfl nofun
    | some unit => simp

/-- The attribute is defined by a number or by an expression. -/
inductive IsDefinition : Attribute → Prop where
  | number (e : EntityId) (name : String) (unit : UnitType) (x : Float) :
    IsDefinition (.literal e name unit (.number x unit))
  | expression (e : EntityId) (name : String) (unit : UnitType) (exp : Expression) :
    IsDefinition { entity := e, name := name, unitType := unit, expression := some exp }

theorem assignAll_concat (rs : List Result) (r : Result) (d : Attribute) :
    assignAll (rs ++ [r]) d = (assignAll rs d).assign r := by
  rw [assignAll, List.foldl_append]
  rfl

/-- Assignments change the value, and the unit type to that of the last number. -/
theorem assignAll_eq (rs : List Result) (d : Attribute) :
    ∃ value, assignAll rs d =
      { d with value := value, unitType := (lastUnit? rs).getD d.unitType } := by
  induction rs using List.reverseRecOn with
  | nil => exact ⟨d.value, rfl⟩
  | append_singleton rs r ih =>
    obtain ⟨value, ih⟩ := ih
    refine ⟨some r, ?_⟩
    rw [assignAll_concat, ih]
    cases hr : numberUnit? r with
    | none => simp [assign, hr, lastUnit?, List.filterMap_append]
    | some unit => simp [assign, hr, lastUnit?, List.filterMap_append]

/-- **After assignments and a reset, a definition is as it was**, but for the unit type if it is an
expression. -/
theorem reset_assigned (hd : d.IsDefinition) (rs : List Result) :
    (assignAll rs d).reset = { d with unitType := d.unitAfter rs } := by
  obtain ⟨value, hassigned⟩ := assignAll_eq rs d
  rw [hassigned]
  cases hd with
  | number => rfl
  | expression => rfl

end Attribute

namespace World

variable {w v : World} {e : EntityId} {name : String} {a : AttributeId} {d : Attribute}
  {f g : Attribute → Attribute} {rs : List Result}

/-! ## Definitions -/

theorem numberAttribute_cases {unit : UnitType} {args : Arguments}
    (h : (w.numberAttribute e name unit args).Gives d) :
    ∃ x, d = .literal e name unit (.number x unit) := by
  obtain ⟨xs, -, h⟩ := h.of_bind
  split at h
  · next x _ => exact ⟨x, h.of_pure⟩
  · exact absurd h.of_ofInput nofun

/-- **Every attribute is defined by a number or by an expression.** -/
theorem readAttributes_cases {args : Arguments} {ds : List Attribute}
    (h : (w.readAttributes e args).Gives ds) : ∀ d ∈ ds, d.IsDefinition := by
  refine forall_mem_of_readGroups (fun found group d hd => ?_) h
  obtain ⟨-, -, rest, -, hd⟩ := readAttribute_gives.1 hd
  obtain ⟨unit, hnumber⟩ | ⟨text, hexpression⟩ := readDefinition_eq rest
  · rw [hnumber] at hd
    obtain ⟨unit, -, hd⟩ := hd.of_bind
    obtain ⟨x, rfl⟩ := numberAttribute_cases hd
    exact .number _ _ _ _
  · rw [hexpression, gives_ofExcept, expressionAttribute_eq_ok] at hd
    obtain ⟨exp, unit, -, -, rfl⟩ := hd
    exact .expression _ _ _ _

/-! ## Assignments and a reset -/

/-- The world after values are assigned to the attribute and it is reset. -/
def resetAfter (w : World) (a : AttributeId) (rs : List Result) : World :=
  (rs.foldl (fun w r => w.assignHandle (.attribute a) r) w).resetHandle (.attribute a)

theorem updateAttribute_congr (h : ∀ d, w.attribute? a = some d → f d = g d) :
    w.updateAttribute a f = w.updateAttribute a g := by
  have hattributes : w.attributes.modify a.index f = w.attributes.modify a.index g := by
    refine List.ext_getElem? fun n => ?_
    rw [List.getElem?_modify, List.getElem?_modify]
    split
    · next hn =>
      subst hn
      exact Option.map_congr h
    · rfl
  rw [updateAttribute, updateAttribute, hattributes]

theorem updateAttribute_updateAttribute (w : World) (a : AttributeId)
    (f g : Attribute → Attribute) :
    (w.updateAttribute a f).updateAttribute a g = w.updateAttribute a (g ∘ f) := by
  simp only [updateAttribute, List.modify_modify_eq]

theorem updateAttribute_id (w : World) (a : AttributeId) : w.updateAttribute a id = w := by
  rw [updateAttribute, List.modify_id]

/-- Only the attribute changes. -/
theorem resetAfter_eq (w : World) (a : AttributeId) (rs : List Result) :
    w.resetAfter a rs = w.updateAttribute a fun d => (Attribute.assignAll rs d).reset := by
  have hassign : rs.foldl (fun w r => w.assignHandle (.attribute a) r) w =
      w.updateAttribute a (Attribute.assignAll rs) := by
    induction rs using List.reverseRecOn with
    | nil => exact (w.updateAttribute_id a).symm
    | append_singleton rs r ih =>
      rw [List.foldl_append, ih]
      refine (w.updateAttribute_updateAttribute a _ _).trans (updateAttribute_congr fun d _ => ?_)
      exact (Attribute.assignAll_concat rs r d).symm
  rw [resetAfter, hassign]
  exact w.updateAttribute_updateAttribute a _ _

/-- A definition has at most another unit type then. -/
theorem resetAfter_eq_relabelled (hd : d.IsDefinition) (hv : v.attribute? a = some d)
    (rs : List Result) :
    v.resetAfter a rs = v.relabelled a (d.unitAfter rs) := by
  rw [resetAfter_eq, relabelled]
  refine updateAttribute_congr fun d' hd' => ?_
  obtain rfl : d = d' := Option.some.inj (hv.symm.trans hd')
  exact Attribute.reset_assigned hd rs

theorem relabelled_eq_self {unit : UnitType} (hv : v.attribute? a = some d) :
    v.relabelled a unit = v ↔ unit = d.unitType := by
  constructor
  · intro h
    have hd := v.attribute?_updateAttribute a a fun d => { d with unitType := unit }
    rw [if_pos rfl, ← relabelled, h, hv] at hd
    exact (congrArg Attribute.unitType (Option.some.inj hd)).symm
  · rintro rfl
    refine (updateAttribute_congr fun d' hd' => ?_).trans (v.updateAttribute_id a)
    obtain rfl : d = d' := Option.some.inj (hv.symm.trans hd')
    rfl

/-! ## What is read then -/

theorem readings_unit_attribute (hv : v.attribute? a = some d) :
    v.readings.unit (.attribute a) = .ok d.unitType := by
  rw [readings_unit, unitWith, hv]
  rfl

/-- **An attribute that is reset reads as it was defined**, whatever was assigned to it: it has the
same type of values, and at all times the same result, unless this is read by way of the unit type.
The unit type, and with it the whole model, is as before exactly if the attribute is defined by a
number or the last number that was assigned has brought no other unit type. -/
theorem reset_restores_iff {args : Arguments} {ds : List Attribute}
    (hread : (w.readAttributes e args).Gives ds) (hd : d ∈ ds) (hv : v.attribute? a = some d)
    (rs : List Result) :
    (v.resetAfter a rs).typeOfHandle (.attribute a) = v.typeOfHandle (.attribute a) ∧
      (∀ t, ¬ ReflTransGen (v.ComesTo v.readings) (.result (.attribute a) t)
          (.unit (.attribute a)) →
        (v.resetAfter a rs).readings.result (.attribute a) t =
          v.readings.result (.attribute a) t) ∧
      ((v.resetAfter a rs).readings.unit (.attribute a) = v.readings.unit (.attribute a) ↔
        d.KeepsUnitUnder rs) ∧
      (v.resetAfter a rs = v ↔ d.KeepsUnitUnder rs) := by
  rw [resetAfter_eq_relabelled (readAttributes_cases hread d hd) hv rs]
  refine ⟨typeOfHandle_relabelled _, fun t hreads => ?_, ?_, ?_⟩
  · exact outcome_relabelled (Nat.le_succ _) hreads
  · have hafter : (v.relabelled a (d.unitAfter rs)).attribute? a =
        some { d with unitType := d.unitAfter rs } := by
      rw [relabelled, attribute?_updateAttribute, if_pos rfl, hv]
      rfl
    rw [readings_unit_attribute hafter, readings_unit_attribute hv, ← Attribute.unitAfter_eq_iff]
    exact ⟨Except.ok.inj, congrArg Except.ok⟩
  · rw [relabelled_eq_self hv, Attribute.unitAfter_eq_iff]

/-! ## The speed of a server -/

/-- The server with an attribute that is its speed. -/
def speedDefined : World :=
  definedServer speedArguments [speedDefinition]

theorem serving_freelyReached : FreelyReached .standard serving := by
  have hcreate : FreeStep { palette := .standard } oneServer :=
    @FreeStep.perform _ (.create "Server" "S" false)
  exact ⟨{}, false, .tail (.tail .refl hcreate) .apply⟩

theorem speedDefined_reached : FreelyReached .standard speedDefined := by
  obtain ⟨settings, recordsEdits, h⟩ := serving_freelyReached
  exact ⟨settings, recordsEdits, .tail h (.of_gives (applyArguments_defined rfl readAttributes_speed))⟩

/-- No input of the server computes its value. -/
theorem speedDefined_not_isComputed : speedDefined.InputsAll fun i => i.kind.isComputed = false := by
  have hkinds : (speedDefined.entities.flatMap (·.inputs)).map (·.kind.isComputed) =
      [false, false, false, false, false, false, false] := rfl
  exact inputsAll_of_map (P := (· = false)) hkinds (by simp)

theorem speedDefined_not_reaches_unit (t : Float) :
    ¬ ReflTransGen (speedDefined.ComesTo speedDefined.readings) (.result (.attribute ⟨0⟩) t)
      (.unit (.attribute ⟨0⟩)) := by
  refine not_reaches_unit (fun id i hi hk => ?_) nofun
  have hcomputed : i.kind.isComputed = false := speedDefined_not_isComputed id i hi
  rw [hk] at hcomputed
  cases hcomputed

/-- Another speed is undone by a reset, and so is a distance, but for its unit type. -/
theorem reset_restores_iff_speedDefined :
    speedDefined.resetAfter ⟨0⟩ [.text "fast", .number 5.0 .speed] = speedDefined ∧
      (∀ t, (speedDefined.resetAfter ⟨0⟩ [.number 5.0 .distance]).readings.result
        (.attribute ⟨0⟩) t = speedDefined.readings.result (.attribute ⟨0⟩) t) ∧
      (speedDefined.resetAfter ⟨0⟩ [.number 5.0 .distance]).readings.unit (.attribute ⟨0⟩) ≠
        speedDefined.readings.unit (.attribute ⟨0⟩) := by
  have hd : speedDefinition ∈ [speedDefinition] := .head _
  have hv : speedDefined.attribute? ⟨0⟩ = some speedDefinition := rfl
  have hspeed := reset_restores_iff readAttributes_speed hd hv [.text "fast", .number 5.0 .speed]
  have hdistance := reset_restores_iff readAttributes_speed hd hv [.number 5.0 .distance]
  refine ⟨hspeed.2.2.2.2 (.inr ?_), fun t => hdistance.2.1 t (speedDefined_not_reaches_unit t),
    fun h => ?_⟩
  · rintro _ ⟨⟩
    rfl
  · obtain hnone | hunit := hdistance.2.2.1.1 h
    · cases hnone
    · cases hunit .distance rfl

/-- A reset does not always undo what was assigned: the speed keeps the unit type of a distance. -/
theorem not_forall_reset_restores :
    ¬ ∀ (p : Palette) (w v : World) (e : EntityId) (args : Arguments) (ds : List Attribute)
      (d : Attribute) (a : AttributeId),
      FreelyReached p w → (w.readAttributes e args).Gives ds → d ∈ ds → FreelyReached p v →
      v.attribute? a = some d → ∀ rs,
        (v.resetAfter a rs).readings.unit (.attribute a) = v.readings.unit (.attribute a) := by
  intro h
  have hunit : (Except.ok UnitType.distance : Except Failure UnitType) = .ok .speed :=
    h .standard serving speedDefined ⟨0⟩ speedArguments [speedDefinition] speedDefinition ⟨0⟩
      serving_freelyReached readAttributes_speed (.head _) speedDefined_reached rfl
      [.number 5.0 .distance]
  cases hunit

end World

end ModelInputs
