import ModelInputs.Proofs.Reading.Depth
import ModelInputs.Proofs.Reference.Reading
import ModelInputs.Proofs.Unit.Handles

/-!
# Numbers at the end of a chain

A chain is sampled, or read as an output, at the handle that is found at its end at the time. The
number is that of the result there, but the unit type of the result is not looked at: a sample is a
number alone, and what is read through an input is labelled anew, unless the value has a unit type
of its own. Arguments are accepted as a chain of one output only after its unit type is checked.

* `Value.hasOwnUnit`, `Value.toResult_eq_number`: numbers that keep their unit type;
* `World.result_eq_number`: the value and the result of a handle are the same number;
* `World.chainResult_eq_ok`, `World.sampleWith_chain`: samples of chains;
* **`World.value_of_output`**: what is read through an input is read at the end of its chain;
* **`World.readSample_chain`**, `World.readOutput?_checks`: chains of one output are checked.
-/

namespace ModelInputs

/-! ## Values -/

namespace Value

/-- A number that the value gives has its own unit type, with whichever unit type it is read. -/
def hasOwnUnit : Value → Bool
  | bool _ => true
  | result _ => true
  | _ => false

/-- A value that gives a number gives the same one with any unit type. -/
theorem toResult_eq_number {names : Names} {u u' : UnitType} {v : Value} {x : Float}
    (h : v.toResult names u = .ok (.number x u')) (u₂ : UnitType) :
    (v.hasOwnUnit = true ∧ v.toResult names u₂ = .ok (.number x u')) ∨
      (v.hasOwnUnit = false ∧ u' = u ∧ v.toResult names u₂ = .ok (.number x u₂)) := by
  cases v with
  | bool b => exact .inl ⟨rfl, h⟩
  | result r => exact .inl ⟨rfl, h⟩
  | int n =>
    obtain ⟨y, hy, hr⟩ := bind_eq_ok.1 h
    cases hr
    exact .inr ⟨rfl, rfl, bind_eq_ok.2 ⟨_, hy, rfl⟩⟩
  | float y =>
    cases h
    exact .inr ⟨rfl, rfl, rfl⟩
  | list | tuple | map =>
    obtain ⟨rs, -, hr⟩ := bind_eq_ok.1 h
    cases hr
  | _ => cases h

/-- Only a number gives one back. -/
theorem eq_number_of_toValue {names : Names} {u u' : UnitType} {r : Result} {x : Float}
    (h : r.toValue.toResult names u = .ok (.number x u')) : ∃ v, r = .number x v := by
  cases r with
  | number y v =>
    cases h
    exact ⟨v, rfl⟩
  | text => cases h
  | entity e => cases e <;> cases h
  | array | map =>
    obtain ⟨rs, -, hr⟩ := bind_eq_ok.1 h
    cases hr

end Value

namespace World

variable {w : World} {t : Float} {v : Value} {r : Result} {x : Float} {u u' : UnitType}

/-! ## Handles -/

/-- The result of a handle is its value read with the unit type of the handle, or the value is the
result without its unit type. -/
theorem result_of_value {h : Handle} (hv : w.readings.value h t = .ok v)
    (hr : w.readings.result h t = .ok r) :
    (∃ u, v.toResult w.names u = .ok r) ∨ v = r.toValue := by
  match h with
  | .output e name =>
    obtain ⟨spec, v', -, hv', hres⟩ := outputResult_eq_ok.1 hr
    obtain rfl : v = v' := Except.ok.inj (hv.symm.trans hv')
    exact .inl ⟨_, hres⟩
  | .attribute a | .custom o =>
    obtain ⟨r', hr', heq⟩ := bind_eq_ok.1 hv
    obtain rfl : r' = r := Except.ok.inj (hr'.symm.trans hr)
    exact .inr (Except.ok.inj heq).symm
  | .input id =>
    obtain ⟨v', u, hv', -, hres⟩ := inputResult_eq_ok.1 hr
    obtain rfl : v = v' := Except.ok.inj (hv.symm.trans hv')
    exact .inl ⟨u, hres⟩

/-- Where the value of a handle gives a number, the result is the same number. -/
theorem result_eq_number {h : Handle} (hv : w.readings.value h t = .ok v)
    (hr : w.readings.result h t = .ok r) (hx : v.toResult w.names u = .ok (.number x u')) :
    ∃ u₂, r = .number x u₂ := by
  obtain ⟨u₂, hu₂⟩ | rfl := result_of_value hv hr
  · obtain ⟨-, hnumber⟩ | ⟨-, -, hnumber⟩ := Value.toResult_eq_number hx u₂
    · exact ⟨_, Except.ok.inj (hu₂.symm.trans hnumber)⟩
    · exact ⟨_, Except.ok.inj (hu₂.symm.trans hnumber)⟩
  · exact Value.eq_number_of_toValue hx

/-- Where the result of a handle is a number, its value gives the same one: with the unit type of
the result if it has one of its own, and otherwise with that with which it is read. -/
theorem toResult_of_result {h : Handle} (hv : w.readings.value h t = .ok v)
    (hr : w.readings.result h t = .ok (.number x u')) (u : UnitType) :
    v.toResult w.names u = .ok (.number x (if v.hasOwnUnit then u' else u)) := by
  obtain ⟨u₂, hu₂⟩ | rfl := result_of_value hv hr
  · obtain ⟨hown, hnumber⟩ | ⟨hown, -, hnumber⟩ := Value.toResult_eq_number hu₂ u
    · rw [hown]
      exact hnumber
    · rw [hown]
      exact hnumber
  · rfl

/-! ## Chains -/

theorem chainResult_eq_ok {c : OutputChain} :
    w.chainResult c t = .ok (some r) ↔
      ∃ h, w.chainEnd w.readings c t = .ok (some h) ∧ w.readings.result h t = .ok r := by
  unfold chainResult
  rw [bind_eq_ok]
  constructor
  · rintro ⟨_ | h, hend, hr⟩
    · cases hr
    · obtain ⟨r', hr', heq⟩ := bind_eq_ok.1 hr
      cases heq
      exact ⟨h, hend, hr'⟩
  · rintro ⟨h, hend, hr⟩
    exact ⟨some h, hend, bind_eq_ok.2 ⟨r, hr, rfl⟩⟩

theorem isNaN_notANumber : Number.notANumber.isNaN = true := by
  decide

/-- A chain is sampled as the number of its result, or as none. -/
theorem sampleWith_chain {c : OutputChain} (h : w.sampleWith w.readings t (.chain c u) = .ok x) :
    (∃ u', w.chainResult c t = .ok (some (.number x u'))) ∨ x.isNaN = true := by
  obtain ⟨_ | handle, hend, hx⟩ := bind_eq_ok.1 h
  · cases hx
    exact .inr isNaN_notANumber
  · obtain ⟨r, hr, hx⟩ := bind_eq_ok.1 hx
    cases r with
    | number y u' =>
      cases hx
      exact .inl ⟨u', chainResult_eq_ok.2 ⟨handle, hend, hr⟩⟩
    | _ =>
      cases hx
      exact .inr isNaN_notANumber

/-- The number of the result of a chain is sampled. -/
theorem sampleWith_chain_eq_ok {c : OutputChain}
    (h : w.chainResult c t = .ok (some (.number x u'))) :
    w.sampleWith w.readings t (.chain c u) = .ok x := by
  obtain ⟨handle, hend, hr⟩ := chainResult_eq_ok.1 h
  exact bind_eq_ok.2 ⟨some handle, hend, bind_eq_ok.2 ⟨_, hr, rfl⟩⟩

/-- The number of an expression is sampled only with the unit type that is asked for. -/
theorem sampleWith_expression {exp : Expression} {this : Option EntityId}
    (h : w.sampleWith w.readings t (.expression exp this u) = .ok x) :
    w.evaluate exp this t = .ok (.number x u) := by
  obtain ⟨r, hr, hx⟩ := bind_eq_ok.1 h
  cases r with
  | number y v =>
    simp only at hx
    split at hx
    · next heq =>
      cases hx
      rw [← heq]
      exact hr
    · cases hx
  | _ => cases hx

/-! ## Inputs that hold chains -/

/-- **What is read through an input is read at the end of its chain.** -/
theorem value_of_output {id : InputId} {i : Input} {unit : Option UnitType} {c : OutputChain}
    (hi : w.input? id = some i) (hk : i.kind = .output unit) (hc : w.valueOf id = .ok (.chain c))
    (hv : w.readings.value (.input id) t = .ok v) {h : Handle}
    (hend : w.chainEnd w.readings c t = .ok (some h)) : w.readings.value h t = .ok v := by
  -- the input follows its chain over readings that are one level less deep
  have hdeep := readingsWithin_extends w w.depthLimit
  have hchain : w.chainValue (w.readingsWithin w.depthLimit) c t = .ok v := by
    have hvalue : w.inputOutputWith (w.readingsWithin w.depthLimit) id t = .ok v := hv
    rw [inputOutputWith, hi] at hvalue
    simp only [hk] at hvalue
    rw [inputValue, hc] at hvalue
    exact hvalue
  obtain ⟨found, hfound, hv'⟩ := bind_eq_ok.1 hchain
  obtain ⟨_, hend', rfl⟩ := chainEnd_extends hdeep c found hfound
  cases hend.symm.trans hend'
  obtain ⟨_, hv'', rfl⟩ := hdeep.value h t v hv'
  exact hv''

/-- The number at the end of the chain is read through an input with the unit type of the input. -/
theorem inputResult_of_output {id : InputId} {i : Input} {c : OutputChain} {h : Handle}
    (hi : w.input? id = some i) (hk : i.kind = .output (some u))
    (hc : w.valueOf id = .ok (.chain c))
    (hend : w.chainEnd (w.readingsWithin w.depthLimit) c t = .ok (some h))
    (hv : (w.readingsWithin w.depthLimit).value h t = .ok (.float x)) :
    w.readings.result (.input id) t = .ok (.number x u) := by
  have hvalue : w.readings.value (.input id) t = .ok (.float x) := by
    show w.inputOutputWith (w.readingsWithin w.depthLimit) id t = _
    rw [inputOutputWith, hi]
    simp only [hk]
    rw [inputValue, hc]
    show w.chainValue (w.readingsWithin w.depthLimit) c t = _
    exact bind_eq_ok.2 ⟨some h, hend, hv⟩
  have hunit : w.readings.unit (.input id) = .ok u := by
    rw [readings_unit, unitWith, hi]
    simp only [inputUnit, hk]
    rfl
  exact inputResult_eq_ok.2 ⟨.float x, u, hvalue, hunit, rfl⟩

/-! ## Accepted chains -/

theorem checkSampleUnit_eq_ok {expected actual : UnitType} :
    checkSampleUnit expected actual = .ok () ↔ actual = .userSpecified ∨ actual = expected := by
  unfold checkSampleUnit
  simp only [Bool.or_eq_true, decide_eq_true_iff]
  split
  · next h => exact iff_of_true rfl h
  · next h => exact iff_of_false nofun h

theorem chainUnit_of_single {c : OutputChain} (hc : c.remaining = []) (r : Readings) (t : Float) :
    w.chainUnit r c t = r.unit c.firstHandle := by
  rw [chainUnit, if_pos (List.isEmpty_iff.2 hc)]

/-- A chain of one output is accepted as a sample with its unit type, or one that is left to the
user. -/
theorem chainSample_checks {c : OutputChain} (h : w.chainSample u c = .ok v)
    (hc : c.remaining = []) :
    w.readings.unit c.firstHandle = .ok u ∨ w.readings.unit c.firstHandle = .ok .userSpecified := by
  unfold chainSample at h
  dsimp only at h
  rw [if_pos (List.isEmpty_iff.2 hc), chainUnit_of_single hc] at h
  obtain ⟨actual, hactual, h⟩ := bind_eq_ok.1 h
  obtain ⟨_, hcheck, -⟩ := bind_eq_ok.1 h
  rw [hactual, Except.ok.injEq, Except.ok.injEq, or_comm]
  exact checkSampleUnit_eq_ok.1 (mapError_eq_ok.1 hcheck)

/-- **A chain of one output is checked when it is accepted as a sample.** -/
theorem readSample_chain {this : Option EntityId} {range : NumberRange} {a : Arguments}
    {c : OutputChain} (h : (w.readSample this u range a).Gives (.sampler (.chain c u'))) :
    w.handle? c.root c.firstName = some c.firstHandle ∧
      (c.remaining = [] → w.readings.unit c.firstHandle = .ok u ∨
        w.readings.unit c.firstHandle = .ok .userSpecified) := by
  have hconstant (h : (w.constantSample u range a).Gives (.sampler (.chain c u'))) : False := by
    obtain ⟨x, ⟨⟩⟩ := constantSample_gives h
  obtain ⟨_, -, h⟩ := h.of_bind
  split at h
  · unfold shortSample at h
    split at h
    · obtain ⟨_, -, h⟩ := h.of_bind
      cases h.of_pure
    split at h
    · exact (hconstant h).elim
    · obtain ⟨exp, -, h⟩ := h.of_bind
      cases h.of_pure
  · unfold longSample at h
    split at h
    · next c' hread =>
      have haccepted := h.of_ofExcept
      cases chainSample_eq_ok haccepted
      obtain ⟨_, -, -, -, hhandle, -⟩ := readChain?_eq_ok.1 hread
      exact ⟨hhandle, chainSample_checks haccepted⟩
    split at h
    · exact absurd h Logged.not_gives_throw
    · exact (hconstant h).elim

/-- A chain that passes its check is accepted as a sample. -/
theorem readSample_of_chain {this : Option EntityId} {range : NumberRange} {a : Arguments}
    {c : OutputChain} {first second : String} {rest : List String}
    (ha : a.args = first :: second :: rest) (hread : w.readChain? this a = .ok c)
    (hsample : w.chainSample u c = .ok v) : (w.readSample this u range a).Gives v := by
  have hcount : a.checkCountRange 1 none = .ok () := by
    refine if_pos ?_
    rw [Arguments.count, ha]
    exact Nat.succ_le_succ (Nat.zero_le _)
  refine ⟨[], [], ?_⟩
  rw [readSample, hcount]
  simp only [ha, longSample, hread, hsample]
  rfl

/-- A chain of one output is accepted for an input of a unit type if it has that unit type. -/
theorem readOutput?_checks {this : Option EntityId} {unit : Option UnitType} {a : Arguments}
    {c : OutputChain} (h : w.readOutput? this unit a = .ok (.chain c)) :
    w.handle? c.root c.firstName = some c.firstHandle ∧
      (c.remaining = [] → ∀ u ∈ unit, w.readings.unit c.firstHandle = .ok u) := by
  obtain ⟨c', heq, hread, hunit⟩ := readOutput?_eq_ok.1 h
  cases heq
  obtain ⟨_, -, -, -, hhandle, -⟩ := readChain?_eq_ok.1 hread
  refine ⟨hhandle, fun hnil u hu => ?_⟩
  rw [← chainUnit_of_single hnil]
  exact hunit hnil u hu

/-- A chain that is accepted is what the input is set to. -/
theorem applyArguments_output {w : World} {e : EntityId} {a : Arguments} {i : Input}
    {unit : Option UnitType} {c : OutputChain} (hi : w.input? ⟨e, a.keyword⟩ = some i)
    (hk : i.kind = .output unit) (hread : w.readOutput? (some e) unit a = .ok (.chain c))
    (log : List Warning) :
    (w.applyArguments e a).run log =
      (.ok ((w.store ⟨e, a.keyword⟩ (.value (.chain c))).updateInput ⟨e, a.keyword⟩
        (w.markReceiver e a), ⟨e, a.keyword⟩), log) := by
  have hrun : (w.readKind (some e) i a).run log = (.ok (.value (.chain c)), log) := by
    simp only [readKind, hk, readArguments, hread]
    rfl
  rw [run_applyArguments hi (by rw [hk]; rfl), hrun]

end World

end ModelInputs
