import Mathlib.Data.List.Permutation
import ModelInputs.Model.Change
import ModelInputs.Model.Registry
import ModelInputs.Model.StandardPalette
import ModelInputs.Proofs.Reading.Depth
import ModelInputs.Proofs.Unit.Handles

/-!
# What is known of units before evaluation

Before an expression is evaluated in a world, the unit type of its numbers is inferred as far as it
can be known. This is right for an expression and all its parts exactly when none of the parts is
one of these: an output of an entity whose handle yields numbers of another unit type, a choice that
takes the branch of which nothing is known and yields another unit type than the other branch, or
the greatest or smallest item of an array of another unit type. The first of these happens where an
attribute has the result of an expression of which nothing is known: it is defined to be without a
unit.

* `World.UnitSound`, `World.UnitFaithful`: an expression, and a node of one, in a world;
* **`World.inferUnit_sound_iff`**: when the parts of an expression are sound;
* `World.inferUnit_readSpeed_not_sound`: an attribute that is not what it is taken for.
-/

namespace ModelInputs

namespace World

section

variable (w : World) (this : Option EntityId) (t : Float) (everywhere strict : Bool)

/-- A number that an expression yields has the unit type that is inferred, if one is. -/
def UnitSound (exp : Expression) : Prop :=
  ∀ u x v, w.inferUnit exp this everywhere strict = .ok (some u) →
    w.evaluate exp this t everywhere = .ok (.number x v) → v = u

/-- Nothing at the node itself stands against the unit type that is inferred: the output of an
entity is read at a faithful handle, and a choice or a call yields what is known of it. -/
def UnitFaithful : Expr → Prop
  | .output (.entity name namePos) outputName _ =>
    ∀ e h, Expr.resolve (w.checkEnv this everywhere) name namePos = .ok e →
      w.handle? e outputName = some h → w.HandleFaithful t h
  | node =>
    node.UnitFaithful (w.checkEnv this everywhere) (w.envWith w.readings this everywhere t) strict

end

variable {w : World} {this : Option EntityId} {t : Float} {everywhere strict : Bool}

theorem unitSound_iff {exp : Expression} :
    w.UnitSound this t everywhere strict exp ↔
      exp.root.UnitSound (w.checkEnv this everywhere) (w.envWith w.readings this everywhere t)
        strict := by
  constructor
  · rintro h unit r hi hr u x v rfl rfl
    exact h u x v (anchored_eq_ok.2 hi) (evaluateWith_eq_ok.2 hr)
  · intro h u x v hi hr
    exact h (some u) (.number x v) (anchored_eq_ok.1 hi) (evaluateWith_eq_ok.1 hr) u x v rfl rfl

/-- The condition on a node in a world is the one on a node in the environments of the world. -/
theorem unitFaithful_iff (hw : w.GettersFaithful t) (node : Expr) :
    w.UnitFaithful this t everywhere strict node ↔
      node.UnitFaithful (w.checkEnv this everywhere) (w.envWith w.readings this everywhere t)
        strict := by
  cases node with
  | output target name pos =>
    cases target with
    | entity ent entPos =>
      constructor
      · intro h e unit r he hunit hread
        obtain ⟨handle, hh, hu⟩ := Option.map_eq_some_iff.1 hunit
        obtain ⟨handle', hh', hr⟩ := Option.map_eq_some_iff.1 hread
        obtain rfl : handle = handle' := Option.some.inj (hh.symm.trans hh')
        exact (numericUnit_sound_iff hw handle).2 (h e handle he hh) unit r hu hr
      · intro h e handle he hh
        refine (numericUnit_sound_iff hw handle).1 fun unit r hu hr => ?_
        exact h e unit r he (Option.map_eq_some_iff.2 ⟨handle, hh, hu⟩)
          (Option.map_eq_some_iff.2 ⟨handle, hh, hr⟩)
    | _ => exact Iff.rfl
  | _ => exact Iff.rfl

/-! ## A server with an attribute -/

/-- A world of one server, which is its own next component. -/
def servingItself : World :=
  { palette := .standard
    entities := [{ newEntity { palette := .standard } "Server" "S" with inNamespace := true }]
    registry := [("S", ⟨0⟩)] : World }.updateInput ⟨⟨0⟩, "NextComponent"⟩
      (Input.assign (.entity ⟨0⟩))

/-- The speed of the next component, of which nothing is known before it is read. -/
def speedOfNext : Expression :=
  ⟨"this.Next.Speed", .output (.output (.entity none 0) "Next" 5) "Speed" 10⟩

/-- The attribute that the expression defines. -/
def speedAttribute : Attribute where
  entity := ⟨0⟩
  name := "A"
  expression := some speedOfNext

/-- The server with the attribute. -/
def withSpeed : World :=
  servingItself.store ⟨⟨0⟩, "AttributeDefinitionList"⟩ (.attributes ⟨0⟩ [speedAttribute])

/-- The attribute read by an expression of the server. -/
def readSpeed : Expression :=
  ⟨"this.A", .output (.entity none 0) "A" 5⟩

theorem outputs_server : Palette.standard.outputs "Server" =
    Palette.entityClass.outputs ++ Palette.serverClass.outputs.reverse := by
  rw [show Palette.standard.outputs "Server" =
    Palette.outputsOf [Palette.entityClass, Palette.serverClass] from rfl]
  simp [Palette.outputsOf, Palette.entityClass, Palette.serverClass, Palette.constantOutput,
    List.mergeSort, List.MergeSort.Internal.splitInTwo, Palette.precedes]

theorem outputSpec?_server {w : World} (hp : w.palette = .standard) (hc : w.classOf ⟨0⟩ = "Server")
    (name : String) : w.outputSpec? ⟨0⟩ name =
      (Palette.entityClass.outputs ++ Palette.serverClass.outputs.reverse).find?
        (·.name == name) := by
  rw [outputSpec?, Palette.output?, hp, hc, outputs_server]

theorem withSpeed_gettersFaithful (t : Float) : withSpeed.GettersFaithful t := by
  intro e name spec v hspec hnum hv
  obtain ⟨_ | index⟩ := e
  · rw [outputValue, hspec] at hv
    rw [outputSpec?_server rfl rfl] at hspec
    have hmem := List.mem_of_find?_eq_some hspec
    simp only [Palette.entityClass, Palette.serverClass, List.mem_append, List.mem_reverse,
      List.mem_cons, List.not_mem_nil, or_false] at hmem
    rcases hmem with (rfl | rfl) | (rfl | rfl | rfl)
    · cases hnum
    · cases hnum
    · cases hv
      trivial
    · cases hv
      trivial
    · cases hnum
  · rw [outputValue, hspec] at hv
    cases hv

/-- An output of the class of the server, over any readings. -/
theorem read_output {w : World} {name : String} {res : Result} {n : Nat} {t : Float}
    (hh : w.handle? ⟨0⟩ name = some (.output ⟨0⟩ name))
    (hr : w.resultWith (w.readingsWithin n) t (.output ⟨0⟩ name) = .ok res) :
    (w.envWith (w.readingsWithin (n + 1)) (some ⟨0⟩) false t).read ⟨0⟩ name = some (.ok res) :=
  Option.map_eq_some_iff.2 ⟨_, hh, hr⟩

theorem handle?_next {w : World} (h : w = servingItself ∨ w = withSpeed) :
    w.handle? ⟨0⟩ "Next" = some (.output ⟨0⟩ "Next") := by
  rcases h with rfl | rfl <;> rw [handle?, outputSpec?_server rfl rfl] <;> rfl

theorem handle?_speed : withSpeed.handle? ⟨0⟩ "Speed" = some (.output ⟨0⟩ "Speed") := by
  rw [handle?, outputSpec?_server rfl rfl]
  rfl

theorem resultWith_next (r : Readings) (t : Float) :
    withSpeed.resultWith r t (.output ⟨0⟩ "Next") = .ok (.entity (some ⟨0⟩)) := by
  have hs := outputSpec?_server (w := withSpeed) rfl rfl "Next"
  simp only [resultWith, outputValue, unitWith, hs]
  rfl

theorem resultWith_speed (r : Readings) (t : Float) :
    withSpeed.resultWith r t (.output ⟨0⟩ "Speed") = .ok (.number 2.0 .speed) := by
  have hs := outputSpec?_server (w := withSpeed) rfl rfl "Speed"
  simp only [resultWith, outputValue, unitWith, hs]
  rfl

theorem evaluateWith_speedOfNext (n : Nat) (t : Float) :
    withSpeed.evaluateWith (withSpeed.readingsWithin (n + 1)) speedOfNext (some ⟨0⟩) false t =
      .ok (.number 2.0 .speed) := by
  rw [evaluateWith_eq_ok]
  refine bind_eq_ok.2 ⟨.entity (some ⟨0⟩), bind_eq_ok.2 ⟨.entity (some ⟨0⟩), rfl, ?_⟩, ?_⟩
  · exact Expr.evalOutput_eq_ok.2 (read_output (handle?_next (.inr rfl)) (resultWith_next _ t))
  · exact Expr.evalOutput_eq_ok.2 (read_output handle?_speed (resultWith_speed _ t))

theorem evaluate_readSpeed (t : Float) :
    withSpeed.evaluate readSpeed (some ⟨0⟩) t = .ok (.number 2.0 .speed) := by
  rw [evaluate, evaluateWith_eq_ok]
  refine bind_eq_ok.2 ⟨.entity (some ⟨0⟩), rfl, Expr.evalOutput_eq_ok.2 ?_⟩
  exact congrArg some (evaluateWith_speedOfNext 7 t)

theorem inferUnit_speedOfNext : servingItself.inferUnit speedOfNext (some ⟨0⟩) = .ok none := by
  have hs := outputSpec?_server (w := servingItself) rfl rfl "Next"
  have hunit : (servingItself.checkEnv (some ⟨0⟩)).unitOf ⟨0⟩ "Next" = some (.ok none) := by
    refine Option.map_eq_some_iff.2 ⟨_, handle?_next (.inl rfl), ?_⟩
    rw [numericUnit, typeOfHandle, hs]
    rfl
  refine anchored_eq_ok.2 (bind_eq_ok.2 ⟨none, bind_eq_ok.2 ⟨⟨0⟩, rfl, ?_⟩, rfl⟩)
  rw [Expr.inferOutput, hunit]

theorem inferUnit_speed :
    withSpeed.inferUnit ⟨"this.Speed", .output (.entity none 0) "Speed" 5⟩ (some ⟨0⟩) =
      .ok (some .speed) := by
  have hs := outputSpec?_server (w := withSpeed) rfl rfl "Speed"
  have hunit : (withSpeed.checkEnv (some ⟨0⟩)).unitOf ⟨0⟩ "Speed" = some (.ok (some .speed)) := by
    refine Option.map_eq_some_iff.2 ⟨_, handle?_speed, ?_⟩
    rw [numericUnit, typeOfHandle, readings_unit, unitWith, hs]
    rfl
  refine anchored_eq_ok.2 (bind_eq_ok.2 ⟨⟨0⟩, rfl, ?_⟩)
  rw [Expr.inferOutput, hunit]

set_option maxRecDepth 20000 in
theorem parse?_speedOfNext : Expression.parse? "this.Next.Speed" true = .ok speedOfNext := by
  cbv

theorem expressionAttribute_speed :
    servingItself.expressionAttribute ⟨0⟩ "A" "this.Next.Speed" = .ok speedAttribute := by
  have hread : servingItself.readExpression (some ⟨0⟩) "this.Next.Speed" = .ok speedOfNext := by
    refine mapError_eq_ok.2 (bind_eq_ok.2 ⟨speedOfNext, parse?_speedOfNext, ?_⟩)
    refine bind_eq_ok.2 ⟨(), ?_, rfl⟩
    exact bind_eq_ok.2 ⟨none, inferUnit_speedOfNext, rfl⟩
  refine bind_eq_ok.2 ⟨speedOfNext, hread, bind_eq_ok.2 ⟨none, ?_, rfl⟩⟩
  exact mapError_eq_ok.2 inferUnit_speedOfNext

set_option maxRecDepth 20000 in
theorem parse?_readSpeed : Expression.parse? "this.A" true = .ok readSpeed := by
  cbv

/-! ## Expressions and their parts -/

/-- **What is inferred of an expression and its parts is right if and only if nothing stands against
it at any of the nodes.** The outputs of classes are taken to keep to their unit types. -/
theorem inferUnit_sound_iff (hw : w.GettersFaithful t) (exp : Expression) :
    (∀ p, exp.root.Part p → w.UnitSound this t everywhere strict ⟨exp.source, p⟩) ↔
      ∀ p, exp.root.Part p → w.UnitFaithful this t everywhere strict p := by
  simp only [unitSound_iff, unitFaithful_iff hw]
  refine Expr.forall_part_unitSound_iff ?_ ?_ exp.root
  · rfl
  · rfl

/-- The speed of the server is known to be one, and this is right, as is what is inferred of the
parts. -/
theorem inferUnit_sound_speed :
    withSpeed.GettersFaithful 0.0 ∧
      withSpeed.inferUnit ⟨"this.Speed", .output (.entity none 0) "Speed" 5⟩ (some ⟨0⟩) =
        .ok (some .speed) ∧
      ∀ p, (Expr.output (.entity none 0) "Speed" 5).Part p →
        withSpeed.UnitSound (some ⟨0⟩) 0.0 false true ⟨"this.Speed", p⟩ := by
  refine ⟨withSpeed_gettersFaithful 0.0, inferUnit_speed, ?_⟩
  refine (inferUnit_sound_iff (withSpeed_gettersFaithful 0.0)
    ⟨"this.Speed", .output (.entity none 0) "Speed" 5⟩).2 ?_
  intro p hp
  rcases hp.of_output_entity with rfl | rfl
  · rintro e h ⟨⟩ hh
    rw [handle?_speed] at hh
    cases hh
    trivial
  · trivial

/-- The attribute is defined to be without a unit, since nothing is known of its expression, and
this is inferred of an expression that reads it; the number that is read is a speed. -/
theorem inferUnit_readSpeed_not_sound :
    servingItself.expressionAttribute ⟨0⟩ "A" "this.Next.Speed" = .ok speedAttribute ∧
      Expression.parse? "this.A" true = .ok readSpeed ∧
      withSpeed.inferUnit readSpeed (some ⟨0⟩) = .ok (some .dimensionless) ∧
      ∀ t, withSpeed.GettersFaithful t ∧
        withSpeed.evaluate readSpeed (some ⟨0⟩) t = .ok (.number 2.0 .speed) ∧
        ¬ withSpeed.UnitSound (some ⟨0⟩) t false false readSpeed := by
  have hinfer : withSpeed.inferUnit readSpeed (some ⟨0⟩) = .ok (some .dimensionless) := rfl
  refine ⟨expressionAttribute_speed, parse?_readSpeed, hinfer, fun t => ?_⟩
  refine ⟨withSpeed_gettersFaithful t, ?_, ?_⟩
  · exact evaluate_readSpeed t
  · intro h
    cases h .dimensionless 2.0 .speed hinfer (evaluate_readSpeed t)

end World

end ModelInputs
