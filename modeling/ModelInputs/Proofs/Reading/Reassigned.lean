import ModelInputs.Proofs.Reading.Comparison
import ModelInputs.Proofs.Reading.Nesting

/-!
# What is assigned to attributes

An attribute has a value and a unit type, which are assigned to it, and besides it keeps what it was
defined with. Only the readings of the attribute itself show what was assigned: everything else that
is read is the same, unless it comes to such a reading.

* `Attribute.fixed`: what no assignment changes;
* `World.Reassigned`: attributes have other values and unit types, and all else is the same;
* `World.Shifts`: the readings that show it;
* `World.outcomeOver_reassigned`: one reading over others, other than of these;
* **`World.outcome_reassigned`**: a reading that does not come to one of these.
-/

namespace ModelInputs

open Relation

/-- What no assignment changes: all but the value and the unit type. -/
def Attribute.fixed (d : Attribute) : Attribute :=
  { d with value := none, unitType := .dimensionless }

/-- The same outcomes. -/
def Comparison.identical : Comparison where
  Rel := Eq
  same _ := rfl
  bind h hk := congrArg₂ (· >>= ·) h (funext hk)
  relocated h _ := congrArg _ h
  anchored h _ := congrArg _ h
  withinExpression h _ := congrArg _ h

namespace World

variable {w w' w'' : World} {r : Readings} {t : Float}

/-- The attributes have other values and unit types, at most. -/
def Reassigned (w w' : World) : Prop :=
  ∃ ds, w' = { w with attributes := ds } ∧
    ds.map Attribute.fixed = w.attributes.map Attribute.fixed

/-- The reading shows the value or the unit type of an attribute that has another one in the second
world. -/
def Shifts (w w' : World) : Reading → Prop
  | .result (.attribute a) _ | .value (.attribute a) _ =>
    (w'.attribute? a).map (·.value) ≠ (w.attribute? a).map (·.value)
  | .unit (.attribute a) =>
    (w'.attribute? a).map (·.unitType) ≠ (w.attribute? a).map (·.unitType)
  | _ => False

/-! ## Assignments -/

theorem attribute?_updateAttribute (w : World) (a a' : AttributeId) (f : Attribute → Attribute) :
    (w.updateAttribute a f).attribute? a' =
      if a = a' then (w.attribute? a).map f else w.attribute? a' := by
  cases a
  cases a'
  simp only [attribute?, updateAttribute, List.getElem?_modify, AttributeId.mk.injEq]
  split <;> simp_all

namespace Reassigned

theorem refl (w : World) : w.Reassigned w :=
  ⟨w.attributes, rfl, rfl⟩

theorem trans (h : w.Reassigned w') (h' : w'.Reassigned w'') : w.Reassigned w'' := by
  obtain ⟨ds, rfl, hds⟩ := h
  obtain ⟨ds', rfl, hds'⟩ := h'
  exact ⟨ds', rfl, hds'.trans hds⟩

/-- An attribute changes, but for what no assignment changes. -/
theorem updateAttribute (w : World) (a : AttributeId) {f : Attribute → Attribute}
    (hf : ∀ d, (f d).fixed = d.fixed) : w.Reassigned (w.updateAttribute a f) := by
  refine ⟨w.attributes.modify a.index f, rfl, List.ext_getElem? fun n => ?_⟩
  rw [List.getElem?_map, List.getElem?_map, List.getElem?_modify]
  cases w.attributes[n]? with
  | none => rfl
  | some d =>
    refine congrArg some ?_
    dsimp only
    split
    · exact hf d
    · rfl

variable (h : w.Reassigned w')
include h

theorem attribute?_fixed (a : AttributeId) :
    (w'.attribute? a).map Attribute.fixed = (w.attribute? a).map Attribute.fixed := by
  obtain ⟨ds, rfl, hds⟩ := h
  show (ds[a.index]?).map _ = (w.attributes[a.index]?).map _
  rw [← List.getElem?_map, ← List.getElem?_map, hds]

theorem names_eq : w'.names = w.names := by
  have hdescribe : w'.describeHandle = w.describeHandle := by
    funext k
    match k with
    | .attribute a =>
      have hmap {α : Type} (f : Attribute → α) :
          (w'.attribute? a).map (f ∘ Attribute.fixed) =
            (w.attribute? a).map (f ∘ Attribute.fixed) := by
        rw [← Option.map_map, ← Option.map_map, h.attribute?_fixed]
      have hentity : (w'.attribute? a).map (·.entity) = (w.attribute? a).map (·.entity) :=
        hmap Attribute.entity
      have hname : (w'.attribute? a).map (·.name) = (w.attribute? a).map (·.name) :=
        hmap Attribute.name
      rw [describeHandle, describeHandle, handleEntity, handleEntity, handleName, handleName,
        hentity, hname]
      obtain ⟨ds, rfl, -⟩ := h
      rfl
    | .output .. | .custom _ | .input _ =>
      obtain ⟨ds, rfl, -⟩ := h
      rfl
  unfold names
  rw [hdescribe]
  obtain ⟨ds, rfl, -⟩ := h
  rfl

theorem valueOf_eq (id : InputId) : w'.valueOf id = w.valueOf id := by
  obtain ⟨ds, rfl, -⟩ := h
  have htarget (n : Nat) (id : InputId) :
      ({ w with attributes := ds } : World).targetWithin n id = w.targetWithin n id := by
    induction n generalizing id with
    | zero => rfl
    | succ n ih => simp only [targetWithin, ih]; rfl
  have hend : ({ w with attributes := ds } : World).target id = w.target id := htarget _ id
  rw [valueOf, hend]
  rfl

/-! ## One reading over others -/

/-- The evaluation of an expression does not ask for the types of attributes. -/
theorem evaluateWith_eq (exp : Expression) (this : Option EntityId) (everywhere : Bool) :
    w'.evaluateWith r exp this everywhere t = w.evaluateWith r exp this everywhere t := by
  obtain ⟨ds, rfl, -⟩ := h
  have henv : (w.envWith r this everywhere t).Compared .identical
      (({ w with attributes := ds } : World).envWith r this everywhere t) := by
    refine ⟨rfl, rfl, rfl, fun e name => ?_⟩
    show Option.Rel Eq ((w.handle? e name).map _) ((w.handle? e name).map _)
    cases w.handle? e name with
    | none => exact .none
    | some k => exact .some rfl
  exact congrArg (fun x => withinExpression exp (anchored exp.source x))
    (Comparison.identical.eval henv exp.root).symm

theorem sampleWith_eq (s : Sampler) : w'.sampleWith r t s = w.sampleWith r t s := by
  cases s with
  | expression => simp only [sampleWith, h.evaluateWith_eq]
  | constant => rfl
  | chain =>
    obtain ⟨ds, rfl, -⟩ := h
    rfl

theorem provideWith_eq (p : Provider) : w'.provideWith r t p = w.provideWith r t p := by
  cases p with
  | expression =>
    simp only [provideWith, h.evaluateWith_eq]
    obtain ⟨ds, rfl, -⟩ := h
    rfl
  | constant => rfl

theorem inputOutputWith_eq (id : InputId) :
    w'.inputOutputWith r id t = w.inputOutputWith r id t := by
  have hsample (keyword : String) (range : NumberRange) (v : Value) :
      w'.inputSample r keyword range t v = w.inputSample r keyword range t v := by
    simp only [inputSample, sampleValue, h.sampleWith_eq]
    obtain ⟨ds, rfl, -⟩ := h
    rfl
  simp only [inputOutputWith, inputValue, h.valueOf_eq, hsample, h.provideWith_eq]
  obtain ⟨ds, rfl, -⟩ := h
  rfl

theorem unitWith_eq {k : Handle} (hk : ¬ w.Shifts w' (.unit k)) :
    w'.unitWith r k = w.unitWith r k := by
  match k with
  | .attribute a => rw [unitWith, unitWith, not_not.1 hk]
  | .input id =>
    simp only [unitWith, inputUnit, h.valueOf_eq]
    obtain ⟨ds, rfl, -⟩ := h
    rfl
  | .output .. =>
    obtain ⟨ds, rfl, -⟩ := h
    rfl
  | .custom _ => rfl

theorem resultWith_eq {k : Handle} (hk : ¬ w.Shifts w' (.result k t)) :
    w'.resultWith r t k = w.resultWith r t k := by
  match k with
  | .output e name =>
    simp only [resultWith, h.names_eq]
    obtain ⟨ds, rfl, -⟩ := h
    rfl
  | .attribute a =>
    have hfixed := h.attribute?_fixed a
    have hvalue := not_not.1 hk
    rw [resultWith, resultWith]
    generalize w'.attribute? a = d' at hfixed hvalue ⊢
    generalize w.attribute? a = d at hfixed hvalue ⊢
    cases d with
    | none => rw [Option.map_eq_none_iff.1 hfixed]
    | some d =>
      obtain ⟨d', rfl, hd'⟩ := Option.map_eq_some_iff.1 hfixed
      have hdvalue : d'.value = d.value := Option.some.inj hvalue
      obtain ⟨hentity, hname, -, -, -, hexp⟩ := Attribute.mk.inj hd'
      simp only [attributeResult, hdvalue, hentity, hname, hexp, h.evaluateWith_eq]
  | .custom o => simp only [resultWith, customResult, h.evaluateWith_eq]
  | .input id =>
    have hunit : w'.unitWith r (.input id) = w.unitWith r (.input id) := h.unitWith_eq False.elim
    simp only [resultWith, h.inputOutputWith_eq, hunit, h.names_eq]

theorem valueWith_eq {k : Handle} (hk : ¬ w.Shifts w' (.value k t)) :
    w'.valueWith r t k = w.valueWith r t k := by
  match k with
  | .output .. =>
    obtain ⟨ds, rfl, -⟩ := h
    rfl
  | .attribute a =>
    have hresult : w'.resultWith r t (.attribute a) = w.resultWith r t (.attribute a) :=
      h.resultWith_eq hk
    simp only [valueWith, hresult]
  | .custom o =>
    have hresult : w'.resultWith r t (.custom o) = w.resultWith r t (.custom o) :=
      h.resultWith_eq False.elim
    simp only [valueWith, hresult]
  | .input id => exact h.inputOutputWith_eq id

end Reassigned

/-- **A reading over others shows only of an attribute what was assigned to it.** -/
theorem outcomeOver_reassigned (h : w.Reassigned w') {q : Reading} (hq : ¬ w.Shifts w' q) :
    q.outcomeOver w' r = q.outcomeOver w r := by
  cases q with
  | result k _ => exact h.resultWith_eq hq
  | value k _ => exact h.valueWith_eq hq
  | unit k => exact h.unitWith_eq hq

/-! ## All readings -/

/-- **A reading that comes to no attribute with another value or unit type yields the same.** -/
theorem outcome_reassigned (h : w.Reassigned w') {m n : Nat} (hnm : n ≤ m + 1) {q : Reading}
    (hq : ∀ q', ReflTransGen (w.ComesTo (w.readingsWithin m)) q q' → ¬ w.Shifts w' q') :
    (w'.readingsWithin n).outcome q = (w.readingsWithin n).outcome q := by
  induction n generalizing q with
  | zero => cases q <;> rfl
  | succ n ih =>
    rw [outcome_succ, outcome_succ, outcomeOver_reassigned h (hq q .refl)]
    refine ((outcomeOver_asks q).same fun q' hq' => ih (by omega) fun q'' hway => ?_).1
    -- a greater depth asks for no less
    have hextends : (w.readingsWithin n).Extends (w.readingsWithin m) :=
      w.readingsWithin_extends_of_le (by omega)
    exact hq q'' (.head ((outcomeOver_asks q).mono hextends hq') hway)

end World

end ModelInputs
