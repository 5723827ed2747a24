import Mathlib.Logic.Relation
import ModelInputs.Proofs.Reading.Reassigned

/-!
# The unit type of an attribute

An attribute has a unit type beside its value, and hardly anything that is read shows it: a result
is a number with a unit type of its own. Only an input that takes over the unit type of an output
asks for it. So a model in which the attribute has another unit type reads the same, unless a
reading comes to such an input.

* `World.relabelled`: the attribute has another unit type;
* `World.eq_unit_of_shifts`: the one reading that shows it;
* **`World.outcome_relabelled`**: a reading that does not come to the unit type;
* **`World.exists_input_of_comesTo`**, `World.not_reaches_unit`: only inputs without a unit type of
  their own come to one.
-/

namespace ModelInputs

open Relation

namespace World

variable {w : World} {a : AttributeId} {unit : UnitType} {r : Readings} {t : Float}

/-- The world in which the attribute has the unit type. -/
def relabelled (w : World) (a : AttributeId) (unit : UnitType) : World :=
  w.updateAttribute a fun d => { d with unitType := unit }

/-! ## What is read then -/

theorem relabelled_reassigned : w.Reassigned (w.relabelled a unit) :=
  .updateAttribute w a fun _ => rfl

theorem typeOfHandle_relabelled (h : Handle) :
    (w.relabelled a unit).typeOfHandle h = w.typeOfHandle h := by
  match h with
  | .attribute a' =>
    rw [typeOfHandle, typeOfHandle, relabelled, attribute?_updateAttribute]
    split
    · next h =>
      subst h
      rw [Option.map_map]
      rfl
    · rfl
  | .output .. | .custom _ | .input _ => rfl

/-- Nothing but its unit type shows that the attribute has another one. -/
theorem eq_unit_of_shifts {q : Reading} (hq : w.Shifts (w.relabelled a unit) q) :
    q = .unit (.attribute a) := by
  have hsame {α : Type} (f : Attribute → α) (hf : ∀ d, f { d with unitType := unit } = f d)
      (a' : AttributeId) :
      ((w.relabelled a unit).attribute? a').map f = (w.attribute? a').map f := by
    rw [relabelled, attribute?_updateAttribute]
    split
    · next h =>
      subst h
      rw [Option.map_map]
      exact congrArg (Option.map · _) (funext hf)
    · rfl
  unfold Shifts at hq
  split at hq
  · exact absurd (hsame _ (fun _ => rfl) _) hq
  · exact absurd (hsame _ (fun _ => rfl) _) hq
  · next a' =>
    rw [relabelled, attribute?_updateAttribute] at hq
    split at hq
    · next h => rw [h]
    · exact absurd rfl hq
  · exact hq.elim

/-- **A reading that does not come to the unit type yields the same.** -/
theorem outcome_relabelled {m n : Nat} (hnm : n ≤ m + 1) {q : Reading}
    (hq : ¬ ReflTransGen (w.ComesTo (w.readingsWithin m)) q (.unit (.attribute a))) :
    ((w.relabelled a unit).readingsWithin n).outcome q = (w.readingsWithin n).outcome q :=
  outcome_reassigned relabelled_reassigned hnm fun _ hway hshifts =>
    hq (eq_unit_of_shifts hshifts ▸ hway)

/-! ## What asks for unit types -/

variable {h : Handle} {q : Reading}

theorem EvaluationReads.ne_unit {exp : Expression} {this : Option EntityId} {everywhere : Bool}
    (hq : w.EvaluationReads r exp this everywhere t q) : q ≠ .unit h := by
  obtain ⟨-, -, _, -, rfl⟩ := Expr.exists_of_reads _ hq
  nofun

theorem HopsRead.ne_unit {k : Option Handle} {names : List String}
    (hq : w.HopsRead r t q k names) : q ≠ .unit h := by
  induction names generalizing k with
  | nil => cases k <;> exact hq.elim
  | cons name names ih =>
    cases k with
    | none => exact hq.elim
    | some k =>
      obtain rfl | ⟨_, -, hq⟩ := hq
      · nofun
      · exact ih hq

theorem ChainReads.ne_unit {c : OutputChain} {last : Handle → Reading}
    (hlast : ∀ k, last k ≠ .unit h) (hq : w.ChainReads r c t last q) : q ≠ .unit h := by
  obtain hq | ⟨k, -, rfl⟩ := hq
  · exact HopsRead.ne_unit hq
  · exact hlast k

theorem InputReads.ne_unit {kind : InputKind} {v : Value} (hq : w.InputReads r t q kind v) :
    q ≠ .unit h := by
  unfold InputReads at hq
  split at hq
  · refine ChainReads.ne_unit ?_ hq
    exact fun _ => nofun
  · obtain ⟨sampler, -, hq⟩ := hq
    cases sampler with
    | constant => exact hq.elim
    | expression => exact EvaluationReads.ne_unit hq
    | chain =>
      refine ChainReads.ne_unit ?_ hq
      exact fun _ => nofun
  · next p =>
    cases p with
    | constant => exact hq.elim
    | expression => exact EvaluationReads.ne_unit hq
  · exact hq.elim

theorem ValueReads.ne_unit {k : Handle} (hq : w.ValueReads r t q k) : q ≠ .unit h := by
  match k with
  | .output .. => exact hq.elim
  | .attribute _ =>
    obtain ⟨x, exp, -, -, -, hq⟩ := hq
    exact hq.ne_unit
  | .custom o => exact EvaluationReads.ne_unit hq
  | .input id =>
    obtain ⟨i, v, -, -, hq⟩ := hq
    exact hq.ne_unit

theorem UnitReads.exists_input {k : Handle} (hq : w.UnitReads r q k) :
    ∃ id i, k = .input id ∧ w.input? id = some i ∧ i.kind = .output none := by
  match k with
  | .output .. | .attribute _ | .custom _ => exact hq.elim
  | .input id =>
    obtain ⟨i, v, hi, -, hq⟩ := hq
    unfold InputUnitReads at hq
    split at hq
    · next hk => exact ⟨id, i, rfl, hi, hk⟩
    · exact hq.elim

/-- **Only an input that has no unit type of its own comes to one.** -/
theorem exists_input_of_comesTo (hq : w.ComesTo r q (.unit h)) :
    ∃ id i, q.handle = .input id ∧ w.input? id = some i ∧ i.kind = .output none := by
  match q with
  | .result k s =>
    obtain hq | ⟨-, hq⟩ := hq
    · exact absurd rfl hq.ne_unit
    · exact hq.exists_input
  | .value k s => exact absurd rfl (ValueReads.ne_unit hq)
  | .unit k => exact UnitReads.exists_input hq

/-- Where every input has a unit type of its own, nothing but the unit type of a handle comes
to it. -/
theorem not_reaches_unit (hkinds : ∀ id i, w.input? id = some i → i.kind ≠ .output none)
    (hq : q ≠ .unit h) : ¬ ReflTransGen (w.ComesTo r) q (.unit h) := by
  intro hway
  obtain rfl | ⟨_, -, hlast⟩ := hway.cases_tail
  · exact hq rfl
  · obtain ⟨id, i, -, hi, hk⟩ := exists_input_of_comesTo hlast
    exact hkinds id i hi hk

end World

end ModelInputs
