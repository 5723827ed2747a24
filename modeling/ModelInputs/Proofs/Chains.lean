import ModelInputs.Proofs.Run.Growth
import ModelInputs.Proofs.Unit.Chains
import ModelInputs.Proofs.Units

/-!
# Which chains keep units

A sample has the unit type of its input, and a number that is read through an input that of the
chain of the input, exactly when the result at the end of the chain has it: a sample of an
expression always does, since its unit type is checked each time, but nothing checks that of a chain
once it is accepted. A chain of one output was checked when it was accepted, and keeps its unit type
as long as its first name leads to the same output of the class or of the user. Of a longer one
nothing was checked, as its end is only known at the time.

* `World.SampleKeepsUnit`, `World.OutputKeepsUnit`: the unit type of what is sampled or read;
* `World.SampleFits`, `World.OutputFits`: that of the result at the end of the chain;
* `World.IsSettled`: the chain leads to the output for which it was checked;
* **`World.units_kept_iff`**: when the unit type is kept, after any run;
* `World.ServesItself`: a server in front of itself, of which `Speed` is a chain of one output and
  `Next Speed` one of two;
* `World.chain_relabels_speed`: the longer one, as a time.
-/

namespace ModelInputs

namespace World

section

variable (w : World) (t : Float)

/-- The result that a sampler takes its number from: that of its expression, or that at the end of
its chain. -/
def SampledFrom (r : Result) : Sampler → Prop
  | .constant x u => r = .number x u
  | .expression exp this _ => w.evaluate exp this t = .ok r
  | .chain c _ => w.chainResult c t = .ok (some r)

/-- Every number that an input samples is that of a result of the unit type, or of one that is left
to the user. -/
def SampleKeepsUnit (keyword : String) (range : NumberRange) (u : UnitType) (s : Sampler) : Prop :=
  ∀ x, w.inputSample w.readings keyword range t (.sampler s) = .ok x → x.isNaN = false →
    ∃ u', w.SampledFrom t (.number x u') s ∧ (u' = u ∨ u' = .userSpecified)

/-- A number in the range that the end of a chain yields has the unit type, or one that is left to
the user. -/
def SampleFits (range : NumberRange) (u : UnitType) : Sampler → Prop
  | .chain c _ =>
    ∀ x u', w.chainResult c t = .ok (some (.number x u')) → x.isNaN = false →
      range.check x = .ok () → u' = u ∨ u' = .userSpecified
  | _ => True

/-- A number that is read through an input has the unit type of the result of the chain. -/
def OutputKeepsUnit (id : InputId) (c : OutputChain) : Prop :=
  ∀ x u r, w.readings.result (.input id) t = .ok (.number x u) →
    w.chainResult c t = .ok (some r) → ∃ y, r = .number y u

/-- The unit type of an input is that of the number at the end of the chain, unless the value brings
one of its own. -/
def OutputFits (id : InputId) (c : OutputChain) : Prop :=
  ∀ v u x u', w.readings.value (.input id) t = .ok v → w.readings.unit (.input id) = .ok u →
    w.chainResult c t = .ok (some (.number x u')) → v.hasOwnUnit = true ∨ u = u'

/-- The chain of one output leads to the output of the class or of the user that was found when it
was made, which yields numbers of the unit type that it declares. -/
structure IsSettled (c : OutputChain) : Prop where
  single : c.remaining = []
  found : w.handle? c.root c.firstName = some c.firstHandle
  declared : c.firstHandle = .output c.root c.firstName ∨ ∃ o, c.firstHandle = .custom o
  keeps : ∀ x u, w.readings.result c.firstHandle t = .ok (.number x u) →
    w.readings.unit c.firstHandle = .ok u

end

variable {w w₀ : World} {t : Float} {s : Sampler} {c : OutputChain} {u : UnitType}

/-! ## Samples -/

theorem inputSample_eq_ok {keyword : String} {range : NumberRange} {x : Float} :
    w.inputSample w.readings keyword range t (.sampler s) = .ok x ↔
      w.sampleWith w.readings t s = .ok x ∧ (x.isNaN = false → range.check x = .ok ()) := by
  have hvalue : w.sampleValue w.readings keyword t (.sampler s) = w.sampleWith w.readings t s := rfl
  rw [inputSample, hvalue, bind_eq_ok]
  constructor
  · rintro ⟨y, hy, h⟩
    dsimp only at h
    split at h
    · obtain ⟨_, hcheck, h⟩ := bind_eq_ok.1 h
      cases h
      exact ⟨hy, fun _ => mapError_eq_ok.1 hcheck⟩
    · next hnan =>
      cases h
      exact ⟨hy, fun hfalse => absurd (congrArg not hfalse) hnan⟩
  · rintro ⟨hx, hcheck⟩
    refine ⟨x, hx, ?_⟩
    dsimp only
    split
    · next hnan =>
      rw [Bool.not_eq_true'] at hnan
      rw [hcheck hnan]
      rfl
    · rfl

theorem sampleKeepsUnit_iff (hs : s.unitType = u) (keyword : String) (range : NumberRange) :
    w.SampleKeepsUnit t keyword range u s ↔ w.SampleFits t range u s := by
  cases s with
  | constant x u' =>
    refine iff_of_true (fun y hy _ => ?_) trivial
    cases (inputSample_eq_ok.1 hy).1
    exact ⟨u', rfl, .inl hs⟩
  | expression exp this u' =>
    refine iff_of_true (fun y hy _ => ?_) trivial
    exact ⟨u', sampleWith_expression (inputSample_eq_ok.1 hy).1, .inl hs⟩
  | chain c u' =>
    constructor
    · intro h x v hx hnan hrange
      obtain ⟨v', hv', hu⟩ := h x (inputSample_eq_ok.2 ⟨sampleWith_chain_eq_ok hx, fun _ => hrange⟩)
        hnan
      cases hv'.symm.trans hx
      exact hu
    · intro h x hx hnan
      obtain ⟨hsample, hrange⟩ := inputSample_eq_ok.1 hx
      obtain ⟨v, hv⟩ | hnan' := sampleWith_chain hsample
      · exact ⟨v, hv, h x v hv hnan (hrange hnan)⟩
      · rw [hnan] at hnan'
        cases hnan'

/-! ## Outputs -/

theorem outputKeepsUnit_iff {id : InputId} {i : Input} {unit : Option UnitType}
    (hi : w.input? id = some i) (hk : i.kind = .output unit) (hc : w.valueOf id = .ok (.chain c)) :
    w.OutputKeepsUnit t id c ↔ w.OutputFits t id c := by
  constructor
  · intro h v u x u' hv hu hx
    obtain ⟨handle, hend, hresult⟩ := chainResult_eq_ok.1 hx
    have hread := value_of_output hi hk hc hv hend
    have hnumber := toResult_of_result hread hresult u
    obtain ⟨y, hy⟩ := h x _ _ (inputResult_eq_ok.2 ⟨v, u, hv, hu, hnumber⟩) hx
    cases hown : v.hasOwnUnit with
    | true => exact .inl rfl
    | false =>
      rw [hown, if_neg Bool.false_ne_true] at hy
      cases hy
      exact .inr rfl
  · intro h x u r hread hr
    obtain ⟨v, u₀, hv, hu₀, hx⟩ := inputResult_eq_ok.1 hread
    obtain ⟨handle, hend, hresult⟩ := chainResult_eq_ok.1 hr
    have hvalue := value_of_output hi hk hc hv hend
    obtain ⟨u', rfl⟩ := result_eq_number hvalue hresult hx
    have hnumber := toResult_of_result hvalue hresult u₀
    cases hx.symm.trans hnumber
    obtain hown | rfl := h v u₀ x u' hv hu₀ hr
    · rw [hown]
      exact ⟨x, rfl⟩
    · rw [ite_self]
      exact ⟨x, rfl⟩

/-! ## Settled chains -/

theorem IsSettled.chainEnd_eq (h : w.IsSettled t c) (r : Readings) :
    w.chainEnd r c t = .ok (some c.firstHandle) := by
  rw [chainEnd, h.single, h.found]
  rfl

/-- What the output of a settled chain declares has stayed since the chain was made. -/
theorem IsSettled.unit_eq (h : w.IsSettled t c) (hgrows : w₀.Grows w)
    (hc : w₀.handle? c.root c.firstName = some c.firstHandle) :
    w.readings.unit c.firstHandle = w₀.readings.unit c.firstHandle := by
  obtain hout | ⟨o, hcustom⟩ := h.declared
  · obtain ⟨x, hx, -⟩ := Option.bind_eq_some_iff.1 hc
    rw [hout, readings_unit, readings_unit, unitWith, unitWith, hgrows.outputSpec?_eq hx]
  · rw [hcustom]
    rfl

theorem IsSettled.chainResult_eq_ok (h : w.IsSettled t c) {r : Result} :
    w.chainResult c t = .ok (some r) ↔ w.readings.result c.firstHandle t = .ok r := by
  rw [World.chainResult_eq_ok, h.chainEnd_eq]
  constructor
  · rintro ⟨_, ⟨⟩, hr⟩
    exact hr
  · exact fun hr => ⟨c.firstHandle, rfl, hr⟩

/-- A settled chain that was accepted as a sample still fits. -/
theorem IsSettled.sampleFits (h : w.IsSettled t c) (hgrows : w₀.Grows w) {this : Option EntityId}
    {range : NumberRange} {a : Arguments} {u' : UnitType}
    (haccept : (w₀.readSample this u range a).Gives (.sampler (.chain c u'))) :
    w.SampleFits t range u (.chain c u') := by
  intro x v hx _ _
  obtain ⟨hfound, hchecked⟩ := readSample_chain haccept
  have hunit := h.keeps x v (h.chainResult_eq_ok.1 hx)
  rw [h.unit_eq hgrows hfound] at hunit
  obtain hu | hu := hchecked h.single
  · exact .inl (Except.ok.inj (hunit.symm.trans hu))
  · exact .inr (Except.ok.inj (hunit.symm.trans hu))

/-- A settled chain that was accepted for an input still fits. -/
theorem IsSettled.outputFits (h : w.IsSettled t c) (hgrows : w₀.Grows w) {this : Option EntityId}
    {unit : Option UnitType} {a : Arguments} (haccept : w₀.readOutput? this unit a = .ok (.chain c))
    {id : InputId} {i : Input} (hi : w.input? id = some i) (hk : i.kind = .output unit)
    (hc : w.valueOf id = .ok (.chain c)) : w.OutputFits t id c := by
  intro v u x u' _ hu hx
  obtain ⟨hfound, hchecked⟩ := readOutput?_checks haccept
  have hunit := h.keeps x u' (h.chainResult_eq_ok.1 hx)
  right
  rw [readings_unit, unitWith, hi] at hu
  simp only [inputUnit, hk] at hu
  cases unit with
  | some u₀ =>
    cases hu
    rw [h.unit_eq hgrows hfound, hchecked h.single u₀ rfl] at hunit
    exact Except.ok.inj hunit
  | none =>
    obtain ⟨v, hv, hu⟩ := bind_eq_ok.1 hu
    cases hc.symm.trans hv
    rw [valueUnit, chainUnit_of_single h.single] at hu
    obtain ⟨_, hu', rfl⟩ := (readingsWithin_extends w w.depthLimit).unit _ _ hu
    exact Except.ok.inj (hu'.symm.trans hunit)

/-! ## A server that is its own next component -/

/-- A world of the standard classes, of which the first entity is a server named `S` that is its own
next component. -/
structure ServesItself (w : World) : Prop where
  palette_eq : w.palette = .standard
  named : w.named? "S" = some ⟨0⟩
  server : ∃ x, w.entity? ⟨0⟩ = some x ∧ x.className = "Server" ∧ x.inNamespace = true ∧
    x.attributes = [] ∧ x.customOutputs = [] ∧
    Palette.storedInput x "NextComponent" = .ok (.entity ⟨0⟩)

/-- The speed of the server. -/
def speedChain : OutputChain where
  root := ⟨0⟩
  firstName := "Speed"
  firstHandle := .output ⟨0⟩ "Speed"
  remaining := []

/-- The arguments that give the speed of the server. -/
def speedArgs : Arguments where
  keyword := "Watch"
  args := ["S", "Speed"]
  balanced := by decide

/-- The speed of the next component of the server. -/
def speedOfNextChain : OutputChain where
  root := ⟨0⟩
  firstName := "Next"
  firstHandle := .output ⟨0⟩ "Next"
  remaining := ["Speed"]

/-- The arguments that give the speed of the next component of the server. -/
def speedOfNextArgs : Arguments where
  keyword := "Watch"
  args := ["S", "Next", "Speed"]
  balanced := by decide

namespace ServesItself

variable (hw : w.ServesItself)
include hw

theorem classOf_eq : w.classOf ⟨0⟩ = "Server" := by
  obtain ⟨x, hx, hclass, -⟩ := hw.server
  rw [classOf, hx, Option.map_some, hclass]
  rfl

theorem outputSpec?_eq (name : String) : w.outputSpec? ⟨0⟩ name =
    (Palette.entityClass.outputs ++ Palette.serverClass.outputs.reverse).find? (·.name == name) :=
  outputSpec?_server hw.palette_eq hw.classOf_eq name

theorem handle?_output {name : String} {spec : OutputSpec}
    (h : w.outputSpec? ⟨0⟩ name = some spec) : w.handle? ⟨0⟩ name = some (.output ⟨0⟩ name) := by
  obtain ⟨x, hx, -, -, hattributes, houtputs, -⟩ := hw.server
  rw [handle?, hx, Option.bind_some, hattributes, houtputs, h]
  rfl

/-- An input of the server that is an output is found by its name, unless an output of the class has
it. -/
theorem handle?_input {name : String} {i : Input} (hi : w.input? ⟨⟨0⟩, name⟩ = some i)
    (hout : i.isOutput = true) (hname : (Palette.entityClass.outputs ++
      Palette.serverClass.outputs.reverse).find? (·.name == name) = none) :
    w.handle? ⟨0⟩ name = some (.input ⟨⟨0⟩, name⟩) := by
  obtain ⟨x, hx, -, -, hattributes, houtputs, -⟩ := hw.server
  have hinput : x.input? name = some i := by
    rw [input?, hx] at hi
    exact hi
  rw [handle?, hx, Option.bind_some, hattributes, houtputs, hw.outputSpec?_eq, hname, inputOutput?,
    hinput, Option.filter_some, if_pos hout]
  rfl

theorem handle?_speed : w.handle? ⟨0⟩ "Speed" = some (.output ⟨0⟩ "Speed") :=
  hw.handle?_output (hw.outputSpec?_eq "Speed")

theorem handle?_next : w.handle? ⟨0⟩ "Next" = some (.output ⟨0⟩ "Next") :=
  hw.handle?_output (hw.outputSpec?_eq "Next")

theorem unit_speed : w.readings.unit (.output ⟨0⟩ "Speed") = .ok .speed := by
  rw [readings_unit, unitWith, hw.outputSpec?_eq]
  rfl

theorem value_speed (r : Readings) : w.valueWith r t (.output ⟨0⟩ "Speed") = .ok (.float 2.0) := by
  obtain ⟨x, hx, -⟩ := hw.server
  rw [valueWith, outputValue, hw.outputSpec?_eq, hx]
  rfl

theorem result_speed (r : Readings) :
    w.resultWith r t (.output ⟨0⟩ "Speed") = .ok (.number 2.0 .speed) := by
  obtain ⟨x, hx, -⟩ := hw.server
  rw [resultWith, outputValue, hw.outputSpec?_eq, hx, unitWith, hw.outputSpec?_eq]
  rfl

theorem result_next (r : Readings) :
    w.resultWith r t (.output ⟨0⟩ "Next") = .ok (.entity (some ⟨0⟩)) := by
  obtain ⟨x, hx, -, -, -, -, hnext⟩ := hw.server
  rw [resultWith, outputValue, hw.outputSpec?_eq, hx, unitWith, hw.outputSpec?_eq]
  exact bind_eq_ok.2 ⟨.entity ⟨0⟩, hnext, rfl⟩

theorem isSettled_speed : w.IsSettled t speedChain where
  single := rfl
  found := hw.handle?_speed
  declared := .inl rfl
  keeps x u hx := by
    cases (hw.result_speed (w.readingsWithin w.depthLimit)).symm.trans hx
    exact hw.unit_speed

theorem chainEnd_speedOfNext (n : Nat) :
    w.chainEnd (w.readingsWithin (n + 1)) speedOfNextChain t =
      .ok (some (.output ⟨0⟩ "Speed")) := by
  have hnext : w.handle? speedOfNextChain.root speedOfNextChain.firstName =
      some (.output ⟨0⟩ "Next") := hw.handle?_next
  rw [chainEnd, hnext]
  refine bind_eq_ok.2 ⟨some (.output ⟨0⟩ "Speed"), ?_, rfl⟩
  refine bind_eq_ok.2 ⟨.entity (some ⟨0⟩), hw.result_next _, ?_⟩
  exact congrArg Except.ok hw.handle?_speed

theorem chainResult_speedOfNext :
    w.chainResult speedOfNextChain t = .ok (some (.number 2.0 .speed)) :=
  World.chainResult_eq_ok.2 ⟨_, hw.chainEnd_speedOfNext w.depthLimit, hw.result_speed _⟩

/-- The speed is read through an input with the unit type of the input. -/
theorem result_input {id : InputId} {i : Input} (hi : w.input? id = some i)
    (hk : i.kind = .output (some u)) (hc : w.valueOf id = .ok (.chain speedOfNextChain)) :
    w.readings.result (.input id) t = .ok (.number 2.0 u) :=
  inputResult_of_output hi hk hc (hw.chainEnd_speedOfNext (6 * w.referenceCount + 1))
    (hw.value_speed (w.readingsWithin (6 * w.referenceCount + 1)))

theorem readEntity?_eq : w.readEntity? (some ⟨0⟩) entityType "S" = .ok ⟨0⟩ := by
  obtain ⟨x, hx, -, hnamespace, -⟩ := hw.server
  have hns : w.hasNamespace (some ⟨0⟩) = true := by
    rw [hasNamespace, Option.bind_some, hx, Option.map_some, hnamespace]
    rfl
  have hinstance : w.isInstance ⟨0⟩ entityType = true := by
    rw [isInstance, hw.classOf_eq, hw.palette_eq]
    rfl
  rw [readEntity?, readNamed?, if_pos hns, hw.named]
  exact if_pos hinstance

/-- A chain of outputs of the server, of which the first yields an entity or is the only one, is
accepted. -/
theorem readChain?_eq {a : Arguments} {first : String} {rest : List String} {spec : OutputSpec}
    (ha : readChainNames? a = .ok ("S" :: first :: rest))
    (hne : ("S" :: first :: rest).contains "" = false)
    (hspec : w.outputSpec? ⟨0⟩ first = some spec)
    (hfollowed : rest = [] ∨ spec.type = .named "Entity") :
    w.readChain? (some ⟨0⟩) a = .ok ⟨⟨0⟩, first, .output ⟨0⟩ first, rest⟩ := by
  have hcheck : w.checkFollowed ⟨0⟩ first (.output ⟨0⟩ first) rest = .ok () := by
    rw [checkFollowed, typeOfHandle, hspec]
    obtain rfl | htype := hfollowed
    · rfl
    · simp only [Option.map_some, Option.getD_some, htype]
      rw [hw.palette_eq]
      refine if_pos ?_
      rw [Bool.or_eq_true]
      right
      rfl
  rw [readChain?, ha]
  refine bind_eq_ok.2 ⟨_, rfl, ?_⟩
  dsimp only
  rw [hne]
  refine bind_eq_ok.2 ⟨⟨0⟩, hw.readEntity?_eq, ?_⟩
  rw [hw.handle?_output hspec]
  exact bind_eq_ok.2 ⟨(), hcheck, rfl⟩

theorem readChain?_speed : w.readChain? (some ⟨0⟩) speedArgs = .ok speedChain :=
  hw.readChain?_eq rfl rfl (hw.outputSpec?_eq "Speed") (.inl rfl)

theorem readChain?_speedOfNext : w.readChain? (some ⟨0⟩) speedOfNextArgs = .ok speedOfNextChain :=
  hw.readChain?_eq rfl rfl (hw.outputSpec?_eq "Next") (.inr rfl)

theorem readOutput?_speed :
    w.readOutput? (some ⟨0⟩) (some .speed) speedArgs = .ok (.chain speedChain) := by
  rw [readOutput?, hw.readChain?_speed]
  exact bind_eq_ok.2 ⟨speedChain, rfl, bind_eq_ok.2 ⟨.speed, hw.unit_speed, rfl⟩⟩

theorem readOutput?_speedOfNext (u : UnitType) :
    w.readOutput? (some ⟨0⟩) (some u) speedOfNextArgs = .ok (.chain speedOfNextChain) := by
  rw [readOutput?, hw.readChain?_speedOfNext]
  rfl

theorem readSample_speed : (w.readSample (some ⟨0⟩) .speed {} speedArgs).Gives
    (.sampler (.chain speedChain .speed)) := by
  refine readSample_of_chain rfl hw.readChain?_speed ?_
  refine bind_eq_ok.2 ⟨.speed, hw.unit_speed, bind_eq_ok.2 ⟨(), ?_, rfl⟩⟩
  exact mapError_eq_ok.2 (checkSampleUnit_eq_ok.2 (.inr rfl))

theorem readSample_speedOfNext (u : UnitType) :
    (w.readSample (some ⟨0⟩) u {} speedOfNextArgs).Gives
      (.sampler (.chain speedOfNextChain u)) :=
  readSample_of_chain rfl hw.readChain?_speedOfNext rfl

end ServesItself

/-- The world of one server. -/
def oneServer : World where
  palette := .standard
  entities := [{ newEntity { palette := .standard } "Server" "S" with inNamespace := true }]
  registry := [("S", ⟨0⟩)]

/-- The server that passes entities on to itself. -/
def serving : World :=
  (oneServer.applyItems ⟨0⟩ [] []
    [{ keyword := "NextComponent", args := ["S"], balanced := by decide }]).world

theorem serving_servesItself : serving.ServesItself :=
  ⟨rfl, rfl, _, rfl, rfl, rfl, rfl, rfl, rfl⟩

theorem serving_reached : Reached .standard serving := by
  have hcreate : create? { palette := .standard } "Server" "S" = .ok (oneServer, ⟨0⟩) := rfl
  exact ⟨{}, false, .tail (.tail .refl (.create hcreate)) .apply⟩

/-- An input that is an output. -/
def watch (u : UnitType) : Input :=
  { Input.make "Watch" "Key Inputs" (.output (some u)) with isOutput := true }

/-- The server with the input. -/
def watchable (u : UnitType) : World :=
  serving.updateEntity ⟨0⟩ fun x => { x with inputs := x.inputs ++ [watch u] }

theorem watchable_servesItself (u : UnitType) : (watchable u).ServesItself :=
  ⟨rfl, rfl, _, rfl, rfl, rfl, rfl, rfl, rfl⟩

theorem watchable_step (u : UnitType) : Step serving (watchable u) := by
  have hadd : serving.addInput? ⟨0⟩ (watch u) = .ok (watchable u) := rfl
  exact .addInput ⟨rfl, rfl, rfl⟩ hadd

/-- The server after arguments are applied. -/
def watching (u : UnitType) (a : Arguments) : World :=
  ((watchable u).applyItems ⟨0⟩ [] [] [a]).world

theorem watching_reached (u : UnitType) (a : Arguments) : Reached .standard (watching u a) := by
  obtain ⟨settings, recordsEdits, hrun⟩ := serving_reached
  exact ⟨settings, recordsEdits, .tail (.tail hrun (watchable_step u)) .apply⟩

section

variable {a : Arguments} (ha : a.keyword = "Watch")
  (hread : (watchable u).readOutput? (some ⟨0⟩) (some u) a = .ok (.chain c))
include ha hread

theorem watching_eq :
    watching u a = ((watchable u).store ⟨⟨0⟩, "Watch"⟩ (.value (.chain c))).updateInput
      ⟨⟨0⟩, "Watch"⟩ ((watchable u).markReceiver ⟨0⟩ a) := by
  have hi : (watchable u).input? ⟨⟨0⟩, a.keyword⟩ = some (watch u) := by
    rw [ha]
    rfl
  rw [watching, applyItems_of_ok (applyArguments_output hi rfl hread []), ha]
  rfl

theorem watching_servesItself : (watching u a).ServesItself := by
  rw [watching_eq ha hread]
  exact ⟨rfl, rfl, _, rfl, rfl, rfl, rfl, rfl, rfl⟩

theorem input?_watching :
    ∃ i, (watching u a).input? ⟨⟨0⟩, "Watch"⟩ = some i ∧ i.kind = .output (some u) ∧
      i.isOutput = true ∧ (watching u a).valueOf ⟨⟨0⟩, "Watch"⟩ = .ok (.chain c) := by
  rw [watching_eq ha hread]
  exact ⟨_, rfl, rfl, rfl, rfl⟩

end

/-- The input read by an expression of the server. -/
def readWatch : Expression :=
  ⟨"this.Watch", .output (.entity none 0) "Watch" 5⟩

set_option maxRecDepth 20000 in
theorem parse?_readWatch : Expression.parse? "this.Watch" true = .ok readWatch := by
  cbv

/-! ## When units are kept -/

/-- **When units are kept.** After any run, a sample that was accepted keeps the unit type of its
input if and only if what its chain ends at has it, where a sample of an expression has no such
condition; and a number that is read through an input keeps that of its chain if and only if it is
that of the input. Both is so as long as a chain of one output leads to the output of the class or
of the user for which it was accepted. -/
theorem units_kept_iff (hrun : Relation.ReflTransGen Step w₀ w) (t : Float) :
    (∀ this u range a s keyword, (w₀.readSample this u range a).Gives (.sampler s) →
      (w.SampleKeepsUnit t keyword range u s ↔ w.SampleFits t range u s) ∧
        ∀ c u', s = .chain c u' → w.IsSettled t c → w.SampleKeepsUnit t keyword range u s) ∧
    ∀ id i unit c, w.input? id = some i → i.kind = .output unit → w.valueOf id = .ok (.chain c) →
      (w.OutputKeepsUnit t id c ↔ w.OutputFits t id c) ∧
        ∀ this a, w₀.readOutput? this unit a = .ok (.chain c) → w.IsSettled t c →
          w.OutputKeepsUnit t id c := by
  have hgrows := grows_of_run hrun
  refine ⟨fun this u range a s keyword haccept => ?_, fun id i unit c hi hk hc => ?_⟩
  · obtain ⟨e, ⟨⟩⟩ | ⟨_, ⟨⟩, hs⟩ := readSample_gives haccept
    have hiff := sampleKeepsUnit_iff (w := w) (t := t) hs keyword range
    refine ⟨hiff, ?_⟩
    rintro c u' rfl hsettled
    exact hiff.2 (hsettled.sampleFits hgrows haccept)
  · have hiff := outputKeepsUnit_iff (t := t) hi hk hc
    exact ⟨hiff, fun this a haccept hsettled =>
      hiff.2 (hsettled.outputFits hgrows haccept hi hk hc)⟩

/-- The chain of the speed was accepted as a sample of a speed, and for an input of that unit type;
both keep it. -/
theorem units_kept_iff_speed :
    Relation.ReflTransGen Step (watchable .speed) (watching .speed speedArgs) ∧
      ((watchable .speed).readSample (some ⟨0⟩) .speed {} speedArgs).Gives
        (.sampler (.chain speedChain .speed)) ∧
      (watching .speed speedArgs).SampleKeepsUnit 0.0 "Delay" {} .speed
        (.chain speedChain .speed) ∧
      (watchable .speed).readOutput? (some ⟨0⟩) (some .speed) speedArgs = .ok (.chain speedChain) ∧
      (watching .speed speedArgs).OutputKeepsUnit 0.0 ⟨⟨0⟩, "Watch"⟩ speedChain := by
  have hsample := (watchable_servesItself .speed).readSample_speed
  have hread := (watchable_servesItself .speed).readOutput?_speed
  have hsettled := (watching_servesItself rfl hread).isSettled_speed (t := 0.0)
  have hrun : Relation.ReflTransGen Step (watchable .speed) (watching .speed speedArgs) :=
    .single .apply
  obtain ⟨i, hi, hk, -, hc⟩ := input?_watching rfl hread
  obtain ⟨hsamples, houtputs⟩ := units_kept_iff hrun 0.0
  refine ⟨hrun, hsample, ?_, hread, ?_⟩
  · exact (hsamples _ _ _ _ _ "Delay" hsample).2 speedChain .speed rfl hsettled
  · exact (houtputs _ i _ speedChain hi hk hc).2 _ _ hread hsettled

/-- The speed of the next component is accepted as a sample of a time, and for an input of times: it
is sampled as it is, and an expression that reads the input yields a time. -/
theorem chain_relabels_speed :
    Reached .standard serving ∧
      (serving.readSample (some ⟨0⟩) .time {} speedOfNextArgs).Gives
        (.sampler (.chain speedOfNextChain .time)) ∧
      (∀ t, serving.inputSample serving.readings "Delay" {} t
          (.sampler (.chain speedOfNextChain .time)) = .ok 2.0 ∧
        serving.chainResult speedOfNextChain t = .ok (some (.number 2.0 .speed)) ∧
        ¬ serving.SampleKeepsUnit t "Delay" {} .time (.chain speedOfNextChain .time)) ∧
      Reached .standard (watching .time speedOfNextArgs) ∧
      (∃ i, (watching .time speedOfNextArgs).input? ⟨⟨0⟩, "Watch"⟩ = some i ∧
        i.kind = .output (some .time) ∧ i.isOutput = true ∧
        (watching .time speedOfNextArgs).valueOf ⟨⟨0⟩, "Watch"⟩ = .ok (.chain speedOfNextChain)) ∧
      Expression.parse? "this.Watch" true = .ok readWatch ∧
      ∀ t, (watching .time speedOfNextArgs).evaluate readWatch (some ⟨0⟩) t =
          .ok (.number 2.0 .time) ∧
        (watching .time speedOfNextArgs).chainResult speedOfNextChain t =
          .ok (some (.number 2.0 .speed)) ∧
        ¬ (watching .time speedOfNextArgs).OutputKeepsUnit t ⟨⟨0⟩, "Watch"⟩ speedOfNextChain := by
  have hread := (watchable_servesItself .time).readOutput?_speedOfNext .time
  have hw := watching_servesItself rfl hread
  have hinput := input?_watching rfl hread
  refine ⟨serving_reached, serving_servesItself.readSample_speedOfNext .time, fun t => ?_,
    watching_reached .time speedOfNextArgs, hinput, parse?_readWatch, fun t => ?_⟩
  · have hresult := serving_servesItself.chainResult_speedOfNext (t := t)
    have hx : serving.inputSample serving.readings "Delay" {} t
        (.sampler (.chain speedOfNextChain .time)) = .ok 2.0 :=
      inputSample_eq_ok.2 ⟨sampleWith_chain_eq_ok hresult, fun _ => rfl⟩
    refine ⟨hx, hresult, fun hkeeps => ?_⟩
    obtain ⟨u, hsampled, hu⟩ := hkeeps 2.0 hx (by decide)
    cases hsampled.symm.trans hresult
    obtain hu | hu := hu <;> cases hu
  · have hresult := hw.chainResult_speedOfNext (t := t)
    obtain ⟨i, hi, hk, hout, hc⟩ := hinput
    have hlabelled := hw.result_input (t := t) hi hk hc
    refine ⟨?_, hresult, fun hkeeps => ?_⟩
    · rw [evaluate, evaluateWith_eq_ok]
      refine bind_eq_ok.2 ⟨.entity (some ⟨0⟩), rfl, Expr.evalOutput_eq_ok.2 ?_⟩
      exact Option.map_eq_some_iff.2 ⟨_, hw.handle?_input hi hout rfl, hlabelled⟩
    · obtain ⟨y, hy⟩ := hkeeps 2.0 .time _ hlabelled hresult
      cases hy

end World

end ModelInputs
