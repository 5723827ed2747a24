import ModelInputs.Proofs.Reading.Nesting
import ModelInputs.Proofs.Chains

/-!
# Self-reference

An evaluation is refused as one that refers back to itself exactly if it comes to a reading while
that same reading is still going on, however high the limit of the depth is, as long as all
different readings can nest below it. Every other evaluation ends, with the same outcome at every
such limit.

To read an output again at another time is no self-reference: the unit type of a chain is looked up
at time zero, and what is read for it at that time may well end.

* `World.Reenters`: an evaluation comes to a reading like one that is still going on;
* `gettersPlain_of_standard`: the outputs of the standard classes evaluate no expressions;
* **`World.selfReference_iff`**: self-references are reported exactly if they are real.
-/

namespace ModelInputs

open Relation (ReflTransGen TransGen)

/-! ## The standard classes -/

theorem Palette.mem_outputs {p : Palette} {className : String} {spec : OutputSpec}
    (h : spec ∈ p.outputs className) : ∃ c ∈ p.classes, spec ∈ c.outputs := by
  have hlineage : ∀ classes : List EntityClass, spec ∈ outputsOf classes →
      ∃ c ∈ classes, spec ∈ c.outputs := by
    intro classes hspec
    induction classes with
    | nil => cases hspec
    | cons c classes ih =>
      obtain hspec | hspec := List.mem_append.1 hspec
      · exact ⟨c, .head _, (List.mem_filter.1 (List.mem_mergeSort.1 hspec)).1⟩
      · obtain ⟨d, hd, hspec⟩ := ih hspec
        exact ⟨d, .tail _ hd, hspec⟩
  obtain ⟨c, hc, hspec⟩ := hlineage _ h
  obtain ⟨name, -, hclass⟩ := List.mem_filterMap.1 hc
  exact ⟨c, List.mem_of_find?_eq_some hclass, hspec⟩

/-- What an output yields is never a self-reference. -/
def OutputSpec.IsPlain (spec : OutputSpec) : Prop :=
  ∀ e x t, ¬ Endless (spec.read e x t)

theorem Palette.storedInput_not_endless (x : Entity) (keyword : String) :
    ¬ Endless (storedInput x keyword) := by
  unfold storedInput
  cases x.input? keyword with
  | none => exact not_endless_ok _
  | some i => exact i.current?_not_endless

/-- The outputs of the standard classes evaluate no expressions. -/
theorem Palette.isPlain_of_mem_standard {c : EntityClass} (hc : c ∈ standard.classes)
    {spec : OutputSpec} (hspec : spec ∈ c.outputs) : spec.IsPlain := by
  have hok : ∀ v : Value, ¬ Endless (.ok v) := not_endless_ok
  simp only [standard, List.mem_cons, List.not_mem_nil, or_false] at hc
  rcases hc with rfl | rfl | rfl | rfl | rfl | rfl | rfl | rfl | rfl | rfl | rfl | rfl | rfl
  all_goals
    simp only [entityClass, groupClass, queueClass, serverClass, fastServerClass, tableClass,
      calendarClass, List.mem_cons, List.not_mem_nil, or_false] at hspec
  · rcases hspec with rfl | rfl <;> exact fun _ _ _ => hok _
  · obtain rfl := hspec
    exact fun _ x _ => not_endless_bind (storedInput_not_endless x "List") fun v =>
      not_endless_bind v.listed_not_endless fun _ => hok _
  · rcases hspec with rfl | rfl <;> exact fun _ _ _ => hok _
  · rcases hspec with rfl | rfl | rfl
    · exact fun _ _ _ => hok _
    · exact fun _ _ _ => hok _
    · exact fun _ x _ => storedInput_not_endless x "NextComponent"
  · rcases hspec with rfl | rfl <;> exact fun _ _ _ => hok _
  · rcases hspec with rfl | rfl | rfl | rfl | rfl | rfl <;> exact fun _ _ _ => hok _
  · rcases hspec with rfl | rfl | rfl | rfl | rfl | rfl | rfl | rfl | rfl
    on_goal 8 => exact fun _ _ _ => not_endless_error fun h => by cases h
    all_goals exact fun _ _ _ => hok _

namespace World

variable {w : World} {exp : Expression} {this : Option EntityId} {everywhere : Bool} {t : Float}

/-- The outputs of classes do not refer back to themselves if those of the palette do not. -/
theorem gettersPlain_of_standard (hp : w.palette = .standard) : w.GettersPlain := by
  intro e name t
  unfold outputValue
  split
  · next spec x hspec _ =>
    obtain ⟨hmem, -⟩ := Palette.output?_eq_some_mem hspec
    rw [hp] at hmem
    obtain ⟨c, hc, hmem⟩ := Palette.mem_outputs hmem
    exact Palette.isPlain_of_mem_standard hc hmem e x t
  · exact not_endless_error nofun

/-! ## Evaluations -/

/-- An evaluation comes to a reading while one is still going on that is the same in a sense. -/
def Reenters (w : World) (same : Reading → Reading → Prop) (exp : Expression)
    (this : Option EntityId) (everywhere : Bool) (t : Float) : Prop :=
  ∃ q q' q'', w.EvaluationReads w.readings exp this everywhere t q ∧
    ReflTransGen (w.ComesTo w.readings) q q' ∧ TransGen (w.ComesTo w.readings) q' q'' ∧ same q' q''

theorem endless_evaluateWith_iff {r : Readings} :
    Endless (w.evaluateWith r exp this everywhere t) ↔
      ∃ error, w.evaluateWith r exp this everywhere t = .error (.expression error) ∧
        error.fault = .selfReference := by
  constructor
  · rintro ⟨f, hf, hend⟩
    cases f with
    | expression error => exact ⟨error, hf, hend⟩
    | tooDeep => exact absurd hf (w.evaluateWith_ne_tooDeep r exp this everywhere t)
    | _ => exact hend.elim
  · rintro ⟨error, hf, hfault⟩
    exact ⟨_, hf, hfault⟩

/-- The different readings that an evaluation comes to nest at most `n` deep. -/
def NestsWithin (w : World) (n : Nat) (exp : Expression) (this : Option EntityId)
    (everywhere : Bool) (t : Float) : Prop :=
  ∀ q qs, w.EvaluationReads w.readings exp this everywhere t q →
    List.IsChain (w.ComesTo w.readings) (q :: qs) → (q :: qs).Nodup → (q :: qs).length ≤ n

/-- Different readings nest at most as deep as the world lets them. -/
theorem nestsWithin_depthLimit {n : Nat} (hn : w.depthLimit ≤ n) :
    w.NestsWithin n exp this everywhere t := by
  intro q qs hq hchain hnodup
  have hle := length_nesting_le hq.arises hchain hnodup
  unfold depthLimit at hn
  omega

/-- An evaluation at the limit re-enters a reading, if different readings nest within the limit. -/
theorem reenters_of_endless (hg : w.GettersPlain) {n : Nat}
    (hn : w.NestsWithin n exp this everywhere t)
    (hend : Endless (w.evaluateWith (w.readingsWithin n) exp this everywhere t)) :
    w.Reenters Eq exp this everywhere t := by
  have hasks : Asks True (fun r => w.evaluateWith r exp this everywhere t) _ :=
    evaluateWith_asks exp
  -- a limit beyond that of the world makes no difference
  obtain ⟨m, hle, hm, hend⟩ : ∃ m ≤ w.depthLimit + 1, w.NestsWithin m exp this everywhere t ∧
      Endless (w.evaluateWith (w.readingsWithin m) exp this everywhere t) := by
    by_cases hle : n ≤ w.depthLimit + 1
    · exact ⟨n, hle, hn, hend⟩
    · exact ⟨w.depthLimit + 1, Nat.le_refl _, nestsWithin_depthLimit (Nat.le_succ _),
        endless_of_le hasks (by omega) hend⟩
  obtain ⟨q, hq, hend⟩ | ⟨hfalse, -⟩ := hasks.exists_endless hend
  · replace hq := hasks.mono (w.readingsWithin_extends_of_le hle) hq
    obtain hgoes | ⟨hgetters, -⟩ := goes_of_endless (Nat.le_succ_of_le hle) hend
    · obtain ⟨qs, hchain, hlength⟩ := hgoes.exists_chain
      obtain ⟨q', hqq', hcycle⟩ | hnodup := cycle_or_nodup hchain
      · exact ⟨q, q', q', hq, hqq', hcycle, rfl⟩
      · have hlt := hm q qs hq hchain hnodup
        rw [List.length_cons, hlength] at hlt
        omega
    · exact absurd hg hgetters
  · exact absurd trivial hfalse

/-- An evaluation that re-enters a reading is at the limit of every depth. -/
theorem endless_of_reenters (h : w.Reenters Eq exp this everywhere t) (n : Nat) :
    Endless (w.evaluateWith (w.readingsWithin n) exp this everywhere t) := by
  obtain ⟨q, q', _, hq, hqq', hcycle, rfl⟩ := h
  have hasks : Asks True (fun r => w.evaluateWith r exp this everywhere t) _ :=
    evaluateWith_asks exp
  refine endless_of_le hasks (Nat.le_max_left n (w.depthLimit + 1)) ?_
  refine hasks.endless (hasks.mono (w.readingsWithin_extends_of_le ?_) hq)
    (endless_of_cycle hqq' hcycle _)
  exact Nat.le_max_right n (w.depthLimit + 1)

/-- **Self-references are reported exactly if they are real.** At a limit within which all different
readings nest, an evaluation ends in the error of an expression that refers back to itself if and
only if it comes to a reading while that same reading is still going on; otherwise it ends with a
result or with another error, the same at all of these limits. The limit of the world is one of
them, and so is every greater one. -/
theorem selfReference_iff (hg : w.GettersPlain) (exp : Expression) (this : Option EntityId)
    (everywhere : Bool) (t : Float) :
    (∀ n, w.NestsWithin n exp this everywhere t →
      ((∃ error, w.evaluateWith (w.readingsWithin n) exp this everywhere t =
          .error (.expression error) ∧ error.fault = .selfReference) ↔
        w.Reenters Eq exp this everywhere t)) ∧
    (¬ w.Reenters Eq exp this everywhere t → ∃ outcome, ¬ Endless outcome ∧
      ∀ n, w.NestsWithin n exp this everywhere t →
        w.evaluateWith (w.readingsWithin n) exp this everywhere t = outcome) ∧
    ∀ n, w.depthLimit ≤ n → w.NestsWithin n exp this everywhere t := by
  have hasks : Asks True (fun r => w.evaluateWith r exp this everywhere t) _ :=
    evaluateWith_asks exp
  refine ⟨fun n hn => ?_, fun hnot => ?_, fun n hn => nestsWithin_depthLimit hn⟩
  · rw [← endless_evaluateWith_iff]
    exact ⟨reenters_of_endless hg hn, fun h => endless_of_reenters h n⟩
  · have hends (n : Nat) (hn : w.NestsWithin n exp this everywhere t) :
        ¬ Endless (w.evaluateWith (w.readingsWithin n) exp this everywhere t) :=
      fun hend => hnot (reenters_of_endless hg hn hend)
    have hlimit := hends w.depthLimit (nestsWithin_depthLimit (Nat.le_refl _))
    refine ⟨_, hlimit, fun n hn => ?_⟩
    obtain hle | hle := Nat.le_total n w.depthLimit
    · obtain ⟨heq, -⟩ := (stable hasks hle).resolve_left (hends n hn)
      exact heq.symm
    · obtain ⟨heq, -⟩ := (stable hasks hle).resolve_left hlimit
      exact heq

/-! ## A server that is read again -/

section

/-- One expression after the start, and another one at the start. -/
def afterStart (source : String) (after start : Expr) : Expression :=
  ⟨source, .cond (.binary .gt (.output (.entity none 0) "Elapsed" 5)
    (.literal (.number 0.0 .time) 15) 13) after start 20⟩

/-- The input after the start, and the server itself at the start. -/
def inputAfterStart : CustomOutput where
  entity := ⟨0⟩
  name := "P"
  expression := afterStart "this.Elapsed > 0[s] ? this.O : [S]" (.output (.entity none 22) "O" 27)
    (.entity (some "S") 31)
  unitType := .speed

/-- The server itself after the start, and what the other output yields at the start. -/
def outputAtStart : CustomOutput where
  entity := ⟨0⟩
  name := "Q"
  expression := afterStart "this.Elapsed > 0[s] ? [S] : this.P" (.entity (some "S") 22)
    (.output (.entity none 28) "P" 33)
  unitType := .dimensionless

/-- An output that is itself. -/
def ownLoop : CustomOutput where
  entity := ⟨0⟩
  name := "L"
  expression := ⟨"this.L", .output (.entity none 0) "L" 5⟩
  unitType := .dimensionless

/-- The speed of what the next component has as the second one of the outputs. -/
def speedOfOutput : OutputChain where
  root := ⟨0⟩
  firstName := "Next"
  firstHandle := .output ⟨0⟩ "Next"
  remaining := ["Q", "Speed"]

/-- The server with these outputs and with an input that is the chain. -/
def revisiting : World :=
  serving.updateEntity ⟨0⟩ fun x => { x with
    inputs := x.inputs ++ [{ Input.make "O" "Key Inputs" (.output none) with
      isOutput := true
      value := .chain speedOfOutput
      isDefault := false }]
    customOutputs := [("P", inputAfterStart), ("Q", outputAtStart), ("L", ownLoop)] }

namespace revisiting

theorem outputSpec?_eq (name : String) : revisiting.outputSpec? ⟨0⟩ name =
    (Palette.entityClass.outputs ++ Palette.serverClass.outputs.reverse).find? (·.name == name) :=
  outputSpec?_server rfl rfl name

theorem handle?_elapsed : revisiting.handle? ⟨0⟩ "Elapsed" = some (.output ⟨0⟩ "Elapsed") := by
  rw [handle?, outputSpec?_eq]
  rfl

theorem handle?_next : revisiting.handle? ⟨0⟩ "Next" = some (.output ⟨0⟩ "Next") := by
  rw [handle?, outputSpec?_eq]
  rfl

theorem handle?_speed : revisiting.handle? ⟨0⟩ "Speed" = some (.output ⟨0⟩ "Speed") := by
  rw [handle?, outputSpec?_eq]
  rfl

theorem handle?_input : revisiting.handle? ⟨0⟩ "O" = some (.input ⟨⟨0⟩, "O"⟩) := by
  rw [handle?, outputSpec?_eq]
  rfl

theorem result_elapsed (r : Readings) (t : Float) :
    revisiting.resultWith r t (.output ⟨0⟩ "Elapsed") = .ok (.number t .time) := by
  simp only [resultWith, outputValue, unitWith, outputSpec?_eq]
  rfl

theorem result_next (r : Readings) (t : Float) :
    revisiting.resultWith r t (.output ⟨0⟩ "Next") = .ok (.entity (some ⟨0⟩)) := by
  simp only [resultWith, outputValue, unitWith, outputSpec?_eq]
  rfl

theorem value_speed (r : Readings) (t : Float) :
    revisiting.valueWith r t (.output ⟨0⟩ "Speed") = .ok (.float 2.0) := by
  simp only [valueWith, outputValue, outputSpec?_eq]
  rfl

theorem unit_speed (r : Readings) : revisiting.unitWith r (.output ⟨0⟩ "Speed") = .ok .speed := by
  simp only [unitWith, outputSpec?_eq]
  rfl

theorem read_eq {r : Readings} {name : String} {h : Handle} {t : Float}
    (hh : revisiting.handle? ⟨0⟩ name = some h) :
    (revisiting.envWith r (some ⟨0⟩) false t).read ⟨0⟩ name = some (r.result h t) := by
  show (revisiting.handle? ⟨0⟩ name).map _ = _
  rw [hh]
  rfl

/-- The start is known by the time. -/
theorem eval_condition (n : Nat) {t : Float} {started : Bool} (ht : decide (t > 0.0) = started) :
    (Expr.binary .gt (.output (.entity none 0) "Elapsed" 5)
      (.literal (.number 0.0 .time) 15) 13).eval
      (revisiting.envWith (revisiting.readingsWithin (n + 1)) (some ⟨0⟩) false t) =
      .ok (.ofBool started) := by
  have helapsed : (Expr.output (.entity none 0) "Elapsed" 5).eval
      (revisiting.envWith (revisiting.readingsWithin (n + 1)) (some ⟨0⟩) false t) =
      .ok (.number t .time) := by
    refine bind_eq_ok.2 ⟨.entity (some ⟨0⟩), rfl, Expr.evalOutput_eq_ok.2 ?_⟩
    rw [read_eq handle?_elapsed]
    exact congrArg some (result_elapsed _ t)
  refine bind_eq_ok.2 ⟨.number t .time, helapsed, ?_⟩
  rw [← ht]
  rfl

theorem eval_afterStart (n : Nat) {t : Float} {started : Bool} (ht : decide (t > 0.0) = started)
    (source : String) (after start : Expr) :
    (afterStart source after start).root.eval
      (revisiting.envWith (revisiting.readingsWithin (n + 1)) (some ⟨0⟩) false t) =
      (if started then after else start).eval
        (revisiting.envWith (revisiting.readingsWithin (n + 1)) (some ⟨0⟩) false t) := by
  show (Expr.eval _ _ >>= fun c => placed 20 c.truth >>= _) = _
  rw [eval_condition n ht, ok_bind, Result.truth_ofBool]
  cases started <;> rfl

theorem result_custom {n : Nat} {o : CustomOutput} {t : Float} {x : Result}
    (heval : o.expression.root.eval
      (revisiting.envWith (revisiting.readingsWithin n) (some o.entity) false t) = .ok x)
    (hunit : ∀ y u, x = .number y u → u = o.unitType) :
    (revisiting.readingsWithin (n + 1)).result (.custom o) t = .ok x := by
  refine bind_eq_ok.2 ⟨x, evaluateWith_eq_ok.2 heval, ?_⟩
  split
  · next y u => exact if_pos (hunit y u rfl)
  · rfl

theorem decide_five : decide ((5.0 : Float) > 0.0) = true := by
  decide

theorem decide_zero : decide ((0.0 : Float) > 0.0) = false := by
  decide

/-- After the start the second output is the server, and so is the first one at the start. -/
theorem result_outputAtStart_five (n : Nat) :
    (revisiting.readingsWithin (n + 2)).result (.custom outputAtStart) 5.0 =
      .ok (.entity (some ⟨0⟩)) :=
  result_custom ((eval_afterStart n decide_five _ _ _).trans rfl) nofun

theorem result_inputAfterStart_zero (n : Nat) :
    (revisiting.readingsWithin (n + 2)).result (.custom inputAfterStart) 0.0 =
      .ok (.entity (some ⟨0⟩)) :=
  result_custom ((eval_afterStart n decide_zero _ _ _).trans rfl) nofun

/-- At the start the second output is the server as well, by way of the first one. -/
theorem result_outputAtStart_zero (n : Nat) :
    (revisiting.readingsWithin (n + 3)).result (.custom outputAtStart) 0.0 =
      .ok (.entity (some ⟨0⟩)) := by
  refine result_custom ((eval_afterStart (n + 1) decide_zero _ _ _).trans ?_) nofun
  refine bind_eq_ok.2 ⟨.entity (some ⟨0⟩), rfl, Expr.evalOutput_eq_ok.2 ?_⟩
  rw [read_eq (show revisiting.handle? ⟨0⟩ "P" = some (.custom inputAfterStart) from rfl)]
  exact congrArg some (result_inputAfterStart_zero n)

/-- The chain ends at the speed where the second output is the server. -/
theorem chainEnd_speedOfOutput {n : Nat} {t : Float}
    (h : (revisiting.readingsWithin (n + 1)).result (.custom outputAtStart) t =
      .ok (.entity (some ⟨0⟩))) :
    revisiting.chainEnd (revisiting.readingsWithin (n + 1)) speedOfOutput t =
      .ok (some (.output ⟨0⟩ "Speed")) := by
  have hfirst : revisiting.handle? speedOfOutput.root speedOfOutput.firstName =
      some (.output ⟨0⟩ "Next") := handle?_next
  rw [chainEnd, hfirst]
  refine bind_eq_ok.2 ⟨some (.custom outputAtStart), ?_, ?_⟩
  · exact bind_eq_ok.2 ⟨_, result_next _ t, rfl⟩
  · refine bind_eq_ok.2 ⟨some (.output ⟨0⟩ "Speed"), bind_eq_ok.2 ⟨_, h, ?_⟩, rfl⟩
    exact congrArg Except.ok handle?_speed

theorem value_input (n : Nat) :
    (revisiting.readingsWithin (n + 4)).value (.input ⟨⟨0⟩, "O"⟩) 5.0 = .ok (.float 2.0) := by
  have hend := chainEnd_speedOfOutput (result_outputAtStart_five (n + 1))
  refine bind_eq_ok.2 ⟨.chain speedOfOutput, rfl, bind_eq_ok.2 ⟨_, hend, ?_⟩⟩
  exact value_speed (revisiting.readingsWithin (n + 2)) 5.0

theorem result_input (n : Nat) :
    (revisiting.readingsWithin (n + 4)).result (.input ⟨⟨0⟩, "O"⟩) 5.0 =
      .ok (.number 2.0 .speed) := by
  have hunit : (revisiting.readingsWithin (n + 4)).unit (.input ⟨⟨0⟩, "O"⟩) = .ok .speed := by
    have hend := chainEnd_speedOfOutput (result_outputAtStart_zero n)
    refine bind_eq_ok.2 ⟨.chain speedOfOutput, rfl, bind_eq_ok.2 ⟨_, hend, ?_⟩⟩
    exact unit_speed (revisiting.readingsWithin (n + 2))
  exact bind_eq_ok.2 ⟨_, value_input n, bind_eq_ok.2 ⟨_, hunit, rfl⟩⟩

theorem result_inputAfterStart_five (n : Nat) :
    (revisiting.readingsWithin (n + 5)).result (.custom inputAfterStart) 5.0 =
      .ok (.number 2.0 .speed) := by
  refine result_custom ((eval_afterStart (n + 3) decide_five _ _ _).trans ?_) ?_
  · refine bind_eq_ok.2 ⟨.entity (some ⟨0⟩), rfl, Expr.evalOutput_eq_ok.2 ?_⟩
    rw [read_eq handle?_input]
    exact congrArg some (result_input n)
  · rintro _ _ ⟨⟩
    rfl

/-! ### What is read on the way -/

theorem reads_afterStart (source : String) {n : Nat} {t : Float} {started : Bool}
    (ht : decide (t > 0.0) = started) {after start : Expr} {P : EntityId → String → Prop}
    (h : (if started then after else start).Reads
      (revisiting.envWith (revisiting.readingsWithin (n + 1)) (some ⟨0⟩) false t) P) :
    (afterStart source after start).root.Reads
      (revisiting.envWith (revisiting.readingsWithin (n + 1)) (some ⟨0⟩) false t) P := by
  have hcondition := eval_condition n ht
  cases started with
  | true => exact .inr (.inl ⟨⟨_, hcondition, Result.truth_ofBool true⟩, h⟩)
  | false => exact .inr (.inr ⟨⟨_, hcondition, Result.truth_ofBool false⟩, h⟩)

theorem reads_own {env : Env} {P : EntityId → String → Prop} {name : String} {entPos pos : Nat}
    (hthis : env.this = some ⟨0⟩) (h : P ⟨0⟩ name) :
    (Expr.output (.entity none entPos) name pos).Reads env P := by
  refine .inr ⟨⟨0⟩, ?_, h⟩
  show Expr.evalEntity env none entPos = _
  rw [Expr.evalEntity, hthis]

/-- After the start the first output reads the input, the input for its unit type the second output
at the start, and that one the first output. -/
theorem comesTo_input (n : Nat) : revisiting.ComesTo (revisiting.readingsWithin (n + 1))
    (.result (.custom inputAfterStart) 5.0) (.result (.input ⟨⟨0⟩, "O"⟩) 5.0) :=
  .inl (reads_afterStart "this.Elapsed > 0[s] ? this.O : [S]" decide_five
    (reads_own rfl ⟨_, handle?_input, rfl⟩))

theorem comesTo_outputAtStart (n : Nat) : revisiting.ComesTo (revisiting.readingsWithin (n + 3))
    (.result (.input ⟨⟨0⟩, "O"⟩) 5.0) (.result (.custom outputAtStart) 0.0) := by
  refine .inr ⟨⟨_, value_input n⟩, _, .chain speedOfOutput, rfl, rfl, .inl ?_⟩
  have hfirst : revisiting.handle? speedOfOutput.root speedOfOutput.firstName =
      some (.output ⟨0⟩ "Next") := handle?_next
  rw [hfirst]
  refine .inr ⟨some (.custom outputAtStart), ?_, .inl rfl⟩
  exact bind_eq_ok.2 ⟨_, result_next (revisiting.readingsWithin (n + 2)) 0.0, rfl⟩

theorem comesTo_inputAfterStart (n : Nat) : revisiting.ComesTo (revisiting.readingsWithin (n + 1))
    (.result (.custom outputAtStart) 0.0) (.result (.custom inputAfterStart) 0.0) :=
  .inl (reads_afterStart "this.Elapsed > 0[s] ? [S] : this.P" decide_zero
    (reads_own rfl ⟨_, rfl, rfl⟩))

end revisiting

/-- The first output of the server. -/
def readP : Expression :=
  ⟨"this.P", .output (.entity none 0) "P" 5⟩

/-- The output of the server that is itself. -/
def readL : Expression :=
  ⟨"this.L", .output (.entity none 0) "L" 5⟩

theorem evaluate_readP :
    revisiting.evaluate readP (some ⟨0⟩) 5.0 = .ok (.number 2.0 .speed) := by
  refine evaluateWith_eq_ok.2 (bind_eq_ok.2 ⟨.entity (some ⟨0⟩), rfl, ?_⟩)
  rw [Expr.evalOutput_eq_ok, revisiting.read_eq (show revisiting.handle? ⟨0⟩ "P" =
    some (.custom inputAfterStart) from rfl)]
  exact congrArg some (revisiting.result_inputAfterStart_five 22)

/-- The output that is itself is refused, and the first output, which comes back to itself only at
another time, is the speed at every limit. -/
theorem selfReference_iff_revisiting :
    revisiting.GettersPlain ∧
      revisiting.Reenters Eq readL (some ⟨0⟩) false 5.0 ∧
      (∃ error, revisiting.evaluate readL (some ⟨0⟩) 5.0 = .error (.expression error) ∧
        error.fault = .selfReference) ∧
      ¬ revisiting.Reenters Eq readP (some ⟨0⟩) false 5.0 ∧
      ∀ n, revisiting.depthLimit ≤ n →
        revisiting.evaluateWith (revisiting.readingsWithin n) readP (some ⟨0⟩) false 5.0 =
          .ok (.number 2.0 .speed) := by
  have hplain : revisiting.GettersPlain := gettersPlain_of_standard rfl
  have hreads : revisiting.EvaluationReads revisiting.readings readL (some ⟨0⟩) false 5.0
      (.result (.custom ownLoop) 5.0) := revisiting.reads_own rfl ⟨_, rfl, rfl⟩
  have hloop : revisiting.Reenters Eq readL (some ⟨0⟩) false 5.0 :=
    ⟨_, _, _, hreads, .refl, .single (.inl hreads), rfl⟩
  obtain ⟨hiffL, -, hnestsL⟩ := selfReference_iff hplain readL (some ⟨0⟩) false 5.0
  obtain ⟨hiffP, hstable, hnestsP⟩ := selfReference_iff hplain readP (some ⟨0⟩) false 5.0
  have hreadP : ¬ revisiting.Reenters Eq readP (some ⟨0⟩) false 5.0 := by
    intro h
    obtain ⟨error, herror, -⟩ := (hiffP _ (hnestsP _ (Nat.le_succ _))).2 h
    cases evaluate_readP.symm.trans herror
  obtain ⟨outcome, -, houtcome⟩ := hstable hreadP
  have heq := (houtcome _ (hnestsP _ (Nat.le_succ _))).symm.trans evaluate_readP
  refine ⟨hplain, hloop, (hiffL _ (hnestsL _ (Nat.le_succ _))).2 hloop, hreadP, fun n hn => ?_⟩
  rw [houtcome n (hnestsP n hn), heq]

/-- To read an output while it is read already is no self-reference where the times are not the
same. -/
theorem evaluate_readP_rereads : ¬ ((∃ error,
      revisiting.evaluate readP (some ⟨0⟩) 5.0 = .error (.expression error) ∧
        error.fault = .selfReference) ↔
    revisiting.Reenters (fun q q' => q.handle = q'.handle) readP (some ⟨0⟩) false 5.0) := by
  have hway : TransGen (revisiting.ComesTo revisiting.readings)
      (.result (.custom inputAfterStart) 5.0) (.result (.custom inputAfterStart) 0.0) :=
    .tail (.tail (.single (revisiting.comesTo_input 26)) (revisiting.comesTo_outputAtStart 24))
      (revisiting.comesTo_inputAfterStart 26)
  have hreenters : revisiting.Reenters (fun q q' => q.handle = q'.handle) readP (some ⟨0⟩) false
      5.0 :=
    ⟨_, _, _, revisiting.reads_own rfl ⟨_, rfl, rfl⟩, .refl, hway, rfl⟩
  intro hiff
  obtain ⟨error, herror, -⟩ := hiff.2 hreenters
  rw [evaluate_readP] at herror
  cases herror

end

end World

end ModelInputs
