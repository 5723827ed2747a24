import ModelInputs.Proofs.Repeating
import ModelInputs.Proofs.Run.Declaring

/-!
# Entities that are handed out

An input that hands out entities is given the name of one, or an expression. A name is checked when
it is read, against the class that is asked for and against the invalid classes, and since entities
keep their class it stays as it was found. An expression is checked each time it is evaluated, but
only against the class that is asked for. So nothing else than an entity of that class is handed out
at any time, and an entity of an invalid class is exactly where an expression yields one.

* `World.IsForbidden`: the entity is of one of the invalid classes;
* `World.readProvider_cases`: the names and expressions that are accepted;
* `World.provideWith_expression`: what an expression hands out;
* **`World.handsOut_forbidden_iff`**: what is handed out at any later time;
* **`World.not_forall_allowed`**: an entity of an invalid class may be.
-/

namespace ModelInputs

open Logged

namespace World

variable {w w' : World} {this : Option EntityId} {id : InputId} {i : Input} {type : TypeRef}
  {invalid : List TypeRef} {e : EntityId} {v : Value} {r : Readings} {t : Float}

/-- The entity is of one of the invalid classes. -/
def IsForbidden (w : World) (invalid : List TypeRef) (e : EntityId) : Prop :=
  ∃ type ∈ invalid, w.isInstance e type = true

/-! ## Reading a name or an expression -/

/-- A name is accepted of an entity of the class that is of no invalid class. Any other text must be
an expression. -/
theorem readProvider_cases {token : String}
    (h : w.readProvider this type invalid token = .ok v) :
    (∃ e, w.findNamed? this token = some e ∧ w.isInstance e type = true ∧
      ¬ w.IsForbidden invalid e ∧ v = .provider (.constant e)) ∨
    ∃ exp, v = .provider (.expression exp this type) := by
  unfold readProvider at h
  split at h
  · next e he =>
    split at h
    · next hallowed =>
      rw [Bool.and_eq_true, Bool.not_eq_true', List.any_eq_false] at hallowed
      cases h
      refine .inl ⟨e, he, hallowed.1, ?_, rfl⟩
      rintro ⟨type, hmem, hinstance⟩
      exact hallowed.2 type hmem hinstance
    · cases h
  · obtain ⟨exp, -, h⟩ := bind_eq_ok.1 h
    cases h
    exact .inr ⟨exp, rfl⟩

theorem readArguments_provider {a : Arguments} (hk : i.kind = .provider type invalid)
    (h : (w.readArguments this i a).Gives v) :
    ∃ token, w.readProvider this type invalid token = .ok v := by
  unfold readArguments at h
  rw [hk] at h
  obtain ⟨token, -, h⟩ := Logged.gives_ofInput_bind.1 h
  exact ⟨token, h.of_ofExcept⟩

/-! ## Handing out -/

/-- An expression hands out the entity that it yields, if it is of the class. -/
theorem provideWith_expression {exp : Expression} {v : Value} :
    w.provideWith r t (.expression exp this type) = .ok v ↔
      (w.evaluateWith r exp this false t = .ok (.entity none) ∧ v = .none) ∨
      ∃ e, w.evaluateWith r exp this false t = .ok (.entity (some e)) ∧
        w.isInstance e type = true ∧ v = .entity e := by
  rw [provideWith, bind_eq_ok]
  constructor
  · rintro ⟨x, hx, h⟩
    split at h
    · cases h
      exact .inl ⟨hx, rfl⟩
    · next e =>
      split at h
      · next hinstance =>
        cases h
        exact .inr ⟨e, hx, hinstance, rfl⟩
      · cases h
    · cases h
  · rintro (⟨hx, rfl⟩ | ⟨e, hx, hinstance, rfl⟩)
    · exact ⟨_, hx, rfl⟩
    · exact ⟨_, hx, if_pos hinstance⟩

/-- What an input hands out is what its value yields. -/
theorem inputOutputWith_provider {p : Provider} (hi : w.input? id = some i)
    (hk : i.kind = .provider type invalid) (hv : w.valueOf id = .ok (.provider p)) :
    w.inputOutputWith r id t = w.provideWith r t p := by
  rw [inputOutputWith, hi]
  show w.inputValue r id i.kind t = _
  rw [inputValue, hk, hv]
  rfl

/-! ## At any later time -/

/-- **What is handed out is of the class that is asked for, and an entity of an invalid class is
handed out exactly where an expression yields it.** The value may be any one that the input has
accepted, and anything may have been done to the model since then. -/
theorem handsOut_forbidden_iff {p : Palette} (hp : p.IsUnset) (hw : RegistryReached p w)
    (hi : w.input? id = some i) (hk : i.kind = .provider type invalid) {a : Arguments}
    (hread : (w.readArguments this i a).Gives v) (hrun : Relation.ReflTransGen FreeStep w w')
    (hv : w'.valueOf id = .ok v) (t : Float) :
    (∀ x, w'.inputOutputWith w'.readings id t = .ok x →
      x = .none ∨ ∃ e, x = .entity e ∧ w'.isInstance e type = true) ∧
    ∀ e, w'.IsForbidden invalid e →
      (w'.inputOutputWith w'.readings id t = .ok (.entity e) ↔
        ∃ exp, v = .provider (.expression exp this type) ∧
          w'.evaluate exp this t = .ok (.entity (some e)) ∧ w'.isInstance e type = true) := by
  have hdeclared := staysDeclared_of_run hrun
  obtain ⟨i', hi', hsame⟩ := hdeclared.input id i hi
  have hk' : i'.kind = .provider type invalid := hsame.kind_eq.trans hk
  obtain ⟨token, hread⟩ := readArguments_provider hk hread
  obtain ⟨e, he, hinstance, hallowed, rfl⟩ | ⟨exp, rfl⟩ := readProvider_cases hread
  · -- a name: the entity is still what it was when the name was read
    have hregistered : (token, e) ∈ w.registry := by
      unfold findNamed? at he
      split at he
      · exact mem_registry_of_named? he
      · cases he
    obtain ⟨x, hx⟩ := Option.isSome_iff_exists.1 ((hw.faithful hp).entries token e hregistered).1
    have hsame (type : TypeRef) : w'.isInstance e type = w.isInstance e type :=
      hdeclared.isInstance_eq hx type
    have hout : w'.inputOutputWith w'.readings id t = .ok (.entity e) :=
      inputOutputWith_provider hi' hk' hv
    refine ⟨fun x hx => ?_, fun e' hforbidden => ?_⟩
    · cases hout.symm.trans hx
      exact .inr ⟨e, rfl, (hsame type).trans hinstance⟩
    · refine iff_of_false (fun h => ?_) ?_
      · cases hout.symm.trans h
        obtain ⟨type', hmem, hinstance'⟩ := hforbidden
        exact hallowed ⟨type', hmem, (hsame type').symm.trans hinstance'⟩
      · rintro ⟨exp, ⟨⟩, -⟩
  · -- an expression: it is checked against the class only
    rw [inputOutputWith_provider hi' hk' hv]
    refine ⟨fun x hx => ?_, fun e' _ => provideWith_expression.trans ?_⟩
    · obtain ⟨-, rfl⟩ | ⟨e', -, hinstance, rfl⟩ := provideWith_expression.1 hx
      · exact .inl rfl
      · exact .inr ⟨e', rfl, hinstance⟩
    · constructor
      · rintro (⟨-, ⟨⟩⟩ | ⟨_, heval, hinstance, ⟨⟩⟩)
        exact ⟨exp, rfl, heval, hinstance⟩
      · rintro ⟨_, ⟨⟩, heval, hinstance⟩
        exact .inr ⟨e', heval, hinstance, rfl⟩

/-! ## A node that hands out entities -/

/-- An input that hands out any entities but groups. -/
def guide : Input :=
  .make "Guide" "Options" (.provider (.named "Entity") [.named "EntityGroup"])

/-- The node with the input. -/
def guidingNode : World :=
  nodeAndGroup.updateEntity ⟨0⟩ fun x => { x with inputs := x.inputs ++ [guide] }

theorem guidingNode_reached : RegistryReached groupsAndNodes guidingNode := by
  have hnode : RegistryStep { palette := groupsAndNodes } loneNode :=
    @RegistryStep.perform _ (.create "Node" "A" false) trivial
  have hgroup : RegistryStep loneNode nodeAndGroup :=
    @RegistryStep.perform _ (.create "EntityGroup" "G" false) trivial
  have hadd : nodeAndGroup.addInput? ⟨0⟩ guide = .ok guidingNode := rfl
  exact ⟨{}, false, .tail (.tail (.tail .refl hnode) hgroup) (.addInput rfl hadd)⟩

/-- The arguments of the input. -/
def guideBy (token : String) (h : Record.isBalanced [token] = true) : Arguments where
  keyword := "Guide"
  args := [token]
  balanced := h

/-- The expression that yields the group. -/
def groupByName : Expression :=
  ⟨"[G]", .entity (some "G") 0⟩

set_option maxRecDepth 20000 in
theorem parse?_groupByName : Expression.parse? "[G]" true = .ok groupByName := by
  cbv

theorem isBalanced_nameA : Record.isBalanced ["A"] = true := by decide

/-- The node itself, by its name. -/
def byName : Arguments :=
  guideBy "A" isBalanced_nameA

/-- The group, by an expression. -/
def byExpression : Arguments :=
  guideBy "[G]" (by decide)

theorem readArguments_byName : (guidingNode.readArguments (some ⟨0⟩) guide byName).Gives
    (.provider (.constant ⟨0⟩)) :=
  ⟨[], [], rfl⟩

theorem readArguments_byExpression :
    (guidingNode.readArguments (some ⟨0⟩) guide byExpression).Gives
      (.provider (.expression groupByName (some ⟨0⟩) (.named "Entity"))) := by
  have hexp : guidingNode.readExpression (some ⟨0⟩) "[G]" = .ok groupByName :=
    readExpression_eq_ok.2 ⟨parse?_groupByName, rfl⟩
  refine Logged.gives_ofInput_bind.2 ⟨"[G]", rfl, Logged.gives_ofExcept.2 ?_⟩
  exact bind_eq_ok.2 ⟨groupByName, hexp, rfl⟩

/-- The input is given the node. -/
def guidedByName : World :=
  guidingNode.applied ⟨0⟩ byName (.value (.provider (.constant ⟨0⟩)))

/-- The input is given the expression. -/
def guidedByExpression : World :=
  guidingNode.applied ⟨0⟩ byExpression
    (.value (.provider (.expression groupByName (some ⟨0⟩) (.named "Entity"))))

/-- A keyword that gives the input a value is a step. -/
theorem guidingNode_step {token : String} {h : Record.isBalanced [token] = true}
    (hread : (guidingNode.readArguments (some ⟨0⟩) guide (guideBy token h)).Gives v) :
    FreeStep guidingNode (guidingNode.applied ⟨0⟩ (guideBy token h) (.value v)) := by
  have hkind : (guidingNode.readKind (some ⟨0⟩) guide (guideBy token h)).Gives (.value v) := by
    rw [readKind_value rfl]
    exact (Steady.gives_bind fun _ => steady_pure _).2 ⟨v, hread, gives_pure.2 rfl⟩
  exact .of_gives ((applyArguments_gives_iff rfl rfl).2 ⟨rfl, _, hkind, rfl⟩)

theorem evaluate_groupByName :
    guidedByExpression.evaluate groupByName (some ⟨0⟩) 0.0 = .ok (.entity (some ⟨1⟩)) :=
  rfl

/-- By its name the node is handed out, which is allowed; by an expression the group is, which is
not. -/
theorem handsOut_forbidden_iff_guidingNode :
    guidedByName.inputOutputWith guidedByName.readings ⟨⟨0⟩, "Guide"⟩ 0.0 = .ok (.entity ⟨0⟩) ∧
      ¬ guidedByName.IsForbidden [.named "EntityGroup"] ⟨0⟩ ∧
      guidedByExpression.inputOutputWith guidedByExpression.readings ⟨⟨0⟩, "Guide"⟩ 0.0 =
        .ok (.entity ⟨1⟩) ∧
      guidedByExpression.IsForbidden [.named "EntityGroup"] ⟨1⟩ := by
  have hunset := groupsAndNodes_isPlain.isUnset
  have hout : guidedByName.inputOutputWith guidedByName.readings ⟨⟨0⟩, "Guide"⟩ 0.0 =
      .ok (.entity ⟨0⟩) := rfl
  have hinput : guidingNode.input? ⟨⟨0⟩, "Guide"⟩ = some guide := rfl
  have hname := handsOut_forbidden_iff hunset guidingNode_reached hinput rfl
    readArguments_byName (.single (guidingNode_step readArguments_byName)) rfl 0.0
  have hexp := handsOut_forbidden_iff hunset guidingNode_reached hinput rfl
    readArguments_byExpression (.single (guidingNode_step readArguments_byExpression)) rfl 0.0
  have hforbidden : guidedByExpression.IsForbidden [.named "EntityGroup"] ⟨1⟩ :=
    ⟨_, .head _, rfl⟩
  refine ⟨hout, fun h => ?_, (hexp.2 ⟨1⟩ hforbidden).2 ⟨_, rfl, evaluate_groupByName, rfl⟩,
    hforbidden⟩
  obtain ⟨exp, ⟨⟩, -⟩ := (hname.2 ⟨0⟩ h).1 hout

/-- What is handed out may be of an invalid class: the group is, where an expression yields it. -/
theorem not_forall_allowed :
    ¬ ∀ (p : Palette) (w w' : World) (id : InputId) (i : Input) (type : TypeRef)
      (invalid : List TypeRef) (this : Option EntityId) (a : Arguments) (v : Value),
      p.IsUnset → RegistryReached p w → w.input? id = some i →
      i.kind = .provider type invalid → (w.readArguments this i a).Gives v →
      Relation.ReflTransGen FreeStep w w' → w'.valueOf id = .ok v →
      ∀ t e, w'.inputOutputWith w'.readings id t = .ok (.entity e) →
        w'.isInstance e type = true ∧ ¬ w'.IsForbidden invalid e := by
  intro h
  have hout : guidedByExpression.inputOutputWith guidedByExpression.readings ⟨⟨0⟩, "Guide"⟩ 0.0 =
      .ok (.entity ⟨1⟩) := rfl
  have hallowed := h groupsAndNodes guidingNode guidedByExpression ⟨⟨0⟩, "Guide"⟩ guide _ _ _ _ _
    groupsAndNodes_isPlain.isUnset guidingNode_reached rfl rfl readArguments_byExpression
    (.single (guidingNode_step readArguments_byExpression)) rfl 0.0 ⟨1⟩ hout
  exact hallowed.2 ⟨_, .head _, rfl⟩

end World

end ModelInputs
