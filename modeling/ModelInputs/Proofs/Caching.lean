import ModelInputs.Model.HandleInfo
import ModelInputs.Proofs.Reading.Reassigned
import ModelInputs.Proofs.Resetting
import ModelInputs.Proofs.Run.Assigning

/-!
# What may be kept

What an attribute or a custom output yields may change at one time, so it is not to be kept. Any
other handle says that what it yields may be. That is so for the outputs of classes and for inputs
that hold their values; but an input may also be computed by an expression or by a chain of outputs,
and then it changes together with the attributes that these come to.

* `World.AttributeStep`: a value is assigned to an attribute, or the attributes are reset;
* `World.IsBacked`: an input that is computed by an expression or by a chain;
* `World.isBacked_of_comesTo`: no other input comes to another reading;
* **`World.result_eq_of_canCache`**: what a handle yields that says so stays the same, unless it is
  such an input and comes to what has changed;
* **`World.not_forall_result_eq_of_canCache`**: then it may change.
-/

namespace ModelInputs

open Logged Relation

namespace World

variable {w w' : World} {r : Readings} {h : Handle} {id : InputId} {q : Reading} {t : Float}

/-! ## Assignments one after the other -/

/-- A value is assigned to an attribute of an entity, or all its attributes are reset. -/
inductive AttributeStep : World → World → Prop where
  | assign {w w' : World} {e : EntityId} {name : String} {r : Result} :
    w.setAttribute? e name r = .ok w' → AttributeStep w w'
  | reset {w : World} {e : EntityId} : AttributeStep w (w.resetAttributes e)

theorem AttributeStep.reassigned (h : AttributeStep w w') : w.Reassigned w' := by
  cases h with
  | assign h =>
    obtain ⟨a, rfl⟩ := setAttribute?_eq_ok h
    exact .updateAttribute w a fun _ => rfl
  | reset =>
    refine resetAttributes_induction (.refl w) fun v a hv => ?_
    exact hv.trans (.updateAttribute v a fun _ => rfl)

theorem reassigned_of_run (h : ReflTransGen AttributeStep w w') : w.Reassigned w' := by
  induction h with
  | refl => exact .refl w
  | tail _ hstep ih => exact ih.trans hstep.reassigned

/-! ## Inputs that are computed -/

/-- The value of an input of that kind is computed by an expression or by a chain. -/
def Backs (w : World) : InputKind → Value → Prop
  | .output _, .chain _ => True
  | .sample .., v => ∃ s, w.samplerOf v = .ok s ∧ ∀ x unit, s ≠ .constant x unit
  | .provider .., .provider p => ∀ e, p ≠ .constant e
  | _, _ => False

/-- The input is computed by an expression or by a chain. -/
def IsBacked (w : World) (id : InputId) : Prop :=
  ∃ i v, w.input? id = some i ∧ w.valueOf id = .ok v ∧ w.Backs i.kind v

theorem Backs.isComputed {kind : InputKind} {v : Value} (h : w.Backs kind v) :
    kind.isComputed = true := by
  unfold Backs at h
  split at h
  · rfl
  · rfl
  · rfl
  · exact h.elim

theorem InputReads.backs {kind : InputKind} {v : Value} (hq : w.InputReads r t q kind v) :
    w.Backs kind v := by
  unfold InputReads at hq
  split at hq
  · trivial
  · obtain ⟨s, hs, hq⟩ := hq
    refine ⟨s, hs, ?_⟩
    rintro x unit rfl
    exact hq
  · rintro e rfl
    exact hq
  · exact hq.elim

theorem InputUnitReads.backs {kind : InputKind} {v : Value} (hq : w.InputUnitReads r q kind v) :
    w.Backs kind v := by
  unfold InputUnitReads at hq
  split at hq
  · trivial
  · exact hq.elim

/-- **Only such an input comes to another reading.** -/
theorem isBacked_of_comesTo (hq : w.ComesTo r (.result (.input id) t) q) : w.IsBacked id := by
  obtain ⟨i, v, hi, hv, hq⟩ | ⟨-, i, v, hi, hv, hq⟩ := hq
  · exact ⟨i, v, hi, hv, hq.backs⟩
  · exact ⟨i, v, hi, hv, hq.backs⟩

/-! ## What stays the same -/

/-- **What may be kept stays the same whatever is assigned to attributes**, and with it the failure
of what can not be read, unless it is an input that is computed by an expression or by a chain, and
this comes to the value or the unit type of an attribute that has another one then. -/
theorem result_eq_of_canCache (hcache : h.canCache = true)
    (hrun : ReflTransGen AttributeStep w w') (t : Float)
    (hshifts : ∀ id, h = .input id → w.IsBacked id → ∀ q,
      ReflTransGen (w.ComesTo w.readings) (.result h t) q → ¬ w.Shifts w' q) :
    w'.readings.result h t = w.readings.result h t := by
  have hreassigned := reassigned_of_run hrun
  have hlimit : w'.depthLimit = w.depthLimit := by
    obtain ⟨ds, rfl, -⟩ := hreassigned
    rfl
  suffices hsame : (w'.readingsWithin (w.depthLimit + 1)).outcome (.result h t) =
      (w.readingsWithin (w.depthLimit + 1)).outcome (.result h t) by
    rw [readings, hlimit]
    exact hsame
  refine outcome_reassigned hreassigned (Nat.le_succ _) fun q hway => ?_
  match h with
  | .output .. =>
    obtain rfl | ⟨_, hstep, -⟩ := hway.cases_head
    · exact id
    · obtain hstep | ⟨-, hstep⟩ := hstep
      · exact hstep.elim
      · exact hstep.elim
  | .input i =>
    obtain rfl | ⟨_, hstep, -⟩ := hway.cases_head
    · exact id
    · exact hshifts i rfl (isBacked_of_comesTo hstep) q hway
  | .attribute _ | .custom _ => cases hcache

/-- The service time is no expression, so it stays the same after a value is assigned to the
attribute. -/
theorem result_eq_of_canCache_speedDefined :
    speedDefined.handle? ⟨0⟩ "ServiceTime" = some (.input ⟨⟨0⟩, "ServiceTime"⟩) ∧
      (Handle.input ⟨⟨0⟩, "ServiceTime"⟩).canCache = true ∧
      ReflTransGen AttributeStep speedDefined
        (speedDefined.assignHandle (.attribute ⟨0⟩) (.number 5.0 .speed)) ∧
      ¬ speedDefined.IsBacked ⟨⟨0⟩, "ServiceTime"⟩ ∧
      ∀ t, (speedDefined.assignHandle (.attribute ⟨0⟩) (.number 5.0 .speed)).readings.result
          (.input ⟨⟨0⟩, "ServiceTime"⟩) t =
        speedDefined.readings.result (.input ⟨⟨0⟩, "ServiceTime"⟩) t := by
  have hhandle : speedDefined.handle? ⟨0⟩ "ServiceTime" = some (.input ⟨⟨0⟩, "ServiceTime"⟩) := by
    rw [handle?, outputSpec?_server rfl rfl]
    rfl
  have hassign : speedDefined.setAttribute? ⟨0⟩ "A" (.number 5.0 .speed) =
      .ok (speedDefined.assignHandle (.attribute ⟨0⟩) (.number 5.0 .speed)) := rfl
  have hrun := ReflTransGen.single (AttributeStep.assign hassign)
  have hbacked : ¬ speedDefined.IsBacked ⟨⟨0⟩, "ServiceTime"⟩ := by
    rintro ⟨i, v, hi, -, hbacks⟩
    exact absurd hbacks.isComputed (Bool.eq_false_iff.1 (speedDefined_not_isComputed _ i hi))
  refine ⟨hhandle, rfl, hrun, hbacked, fun t => result_eq_of_canCache rfl hrun t ?_⟩
  rintro _ ⟨⟩ h
  exact absurd h hbacked

/-! ## A sample of an attribute -/

/-- An input for samples of a speed, which is an output. -/
def rate : Input :=
  { Input.make "Rate" "Key Inputs" (.sample .speed {}) with isOutput := true }

/-- The server with the input. -/
def rated : World :=
  speedDefined.updateEntity ⟨0⟩ fun x => { x with inputs := x.inputs ++ [rate] }

/-- The attribute of the server. -/
def ownAttribute : Expression :=
  ⟨"this.A", .output (.entity none 0) "A" 5⟩

/-- The attribute as the argument of the input. -/
def rateArguments : Arguments where
  keyword := "Rate"
  args := ["this.A"]
  balanced := by decide

/-- The input as a sample of the attribute. -/
def pacing : World :=
  rated.applied ⟨0⟩ rateArguments (.value (.sampler (.expression ownAttribute (some ⟨0⟩) .speed)))

/-- The server after a speed is assigned to the attribute. -/
def pacingAt (x : Float) : World :=
  pacing.assignHandle (.attribute ⟨0⟩) (.number x .speed)

set_option maxRecDepth 20000 in
theorem parse?_ownAttribute : Expression.parse? "this.A" true = .ok ownAttribute := by
  cbv

theorem readSample_ownAttribute :
    (rated.readSample (some ⟨0⟩) .speed {} rateArguments).Gives
      (.sampler (.expression ownAttribute (some ⟨0⟩) .speed)) := by
  have hread : rated.readExpression (some ⟨0⟩) "this.A" (some .speed) = .ok ownAttribute :=
    readExpression_eq_ok.2 ⟨parse?_ownAttribute, rfl⟩
  rw [readSample_of_single rfl rfl, shortSample]
  have hnumber : startsQuantity "this.A" = false := rfl
  have hnone : (rated.findNamed? (some ⟨0⟩) "this.A").filter rated.isSampler = none := rfl
  rw [hnone, hnumber, hread]
  exact gives_pure.2 rfl

theorem pacing_reached : FreelyReached .standard pacing := by
  obtain ⟨settings, recordsEdits, hrun⟩ := speedDefined_reached
  have hadd : speedDefined.addInput? ⟨0⟩ rate = .ok rated := rfl
  have happly : (rated.applyArguments ⟨0⟩ rateArguments).Gives (pacing, ⟨⟨0⟩, "Rate"⟩) := by
    refine (applyArguments_gives_iff rfl rfl).2 ⟨rfl, _, ?_, rfl⟩
    rw [readKind_value rfl]
    exact (Steady.gives_bind fun _ => steady_pure _).2
      ⟨_, readSample_ownAttribute, gives_pure.2 rfl⟩
  exact ⟨settings, recordsEdits, .tail (.tail hrun (.addInput hadd)) (.of_gives happly)⟩

theorem pacingAt_reached (x : Float) : FreelyReached .standard (pacingAt x) := by
  obtain ⟨settings, recordsEdits, hrun⟩ := pacing_reached
  have hassign : pacing.setAttribute? ⟨0⟩ "A" (.number x .speed) = .ok (pacingAt x) := rfl
  exact ⟨settings, recordsEdits, .tail hrun (.setAttribute hassign)⟩

/-- The rate is what is assigned to the attribute, if it is a speed within the range. -/
theorem result_rate {ds : List Attribute} {x : Float}
    (hvalue : ((ds[0]?).bind (·.value)) = some (.number x .speed))
    (hx : NumberRange.check {} x = .ok ()) (t : Float) :
    ({ pacing with attributes := ds } : World).readings.result (.input ⟨⟨0⟩, "Rate"⟩) t =
      .ok (.number x .speed) := by
  obtain ⟨d, hd, hdvalue⟩ := Option.bind_eq_some_iff.1 hvalue
  have hattribute (r : Readings) :
      ({ pacing with attributes := ds } : World).resultWith r t (.attribute ⟨0⟩) =
        .ok (.number x .speed) := by
    have hd : ({ pacing with attributes := ds } : World).attribute? ⟨0⟩ = some d := hd
    rw [resultWith, hd]
    simp only [attributeResult, hdvalue]
  have hsample (n : Nat) : ({ pacing with attributes := ds } : World).sampleWith
      (({ pacing with attributes := ds } : World).readingsWithin (n + 1)) t
      (.expression ownAttribute (some ⟨0⟩) .speed) = .ok x := by
    refine bind_eq_ok.2 ⟨.number x .speed, evaluateWith_eq_ok.2 ?_, if_pos rfl⟩
    refine bind_eq_ok.2 ⟨.entity (some ⟨0⟩), rfl, Expr.evalOutput_eq_ok.2 ?_⟩
    exact congrArg some (hattribute _)
  refine bind_eq_ok.2 ⟨.float x, ?_, bind_eq_ok.2 ⟨.speed, rfl, rfl⟩⟩
  refine bind_eq_ok.2 ⟨.sampler (.expression ownAttribute (some ⟨0⟩) .speed), rfl, ?_⟩
  refine bind_eq_ok.2 ⟨x, bind_eq_ok.2 ⟨x, hsample _, ?_⟩, rfl⟩
  split
  · rw [hx]
    rfl
  · rfl

/-- A sample of an attribute may be kept, but it is another one after the attribute is assigned
another value. -/
theorem not_forall_result_eq_of_canCache :
    ¬ ∀ (p : Palette) (w w' : World) (e : EntityId) (name : String) (h : Handle) (t : Float),
      FreelyReached p w → w.handle? e name = some h → h.canCache = true →
      ReflTransGen AttributeStep w w' → w'.readings.result h t = w.readings.result h t := by
  intro hall
  have hassign : (pacingAt 2.0).setAttribute? ⟨0⟩ "A" (.number 5.0 .speed) =
      .ok ((pacingAt 2.0).assignHandle (.attribute ⟨0⟩) (.number 5.0 .speed)) := rfl
  have hhandle : (pacingAt 2.0).handle? ⟨0⟩ "Rate" = some (.input ⟨⟨0⟩, "Rate"⟩) := by
    rw [handle?, outputSpec?_server rfl rfl]
    rfl
  have hsame := hall _ _ _ _ _ _ 0.0 (pacingAt_reached 2.0) hhandle rfl (.single (.assign hassign))
  have hbefore : (pacingAt 2.0).readings.result (.input ⟨⟨0⟩, "Rate"⟩) 0.0 =
      .ok (.number 2.0 .speed) := result_rate rfl rfl 0.0
  have hafter : ((pacingAt 2.0).assignHandle (.attribute ⟨0⟩) (.number 5.0 .speed)).readings.result
      (.input ⟨⟨0⟩, "Rate"⟩) 0.0 = .ok (.number 5.0 .speed) := result_rate rfl rfl 0.0
  rw [hbefore, hafter] at hsame
  obtain ⟨hnumber, -⟩ := Result.number.inj (Except.ok.inj hsame)
  exact absurd hnumber (by decide)

end World

end ModelInputs
