import ModelInputs.Input.Sample
import ModelInputs.Proofs.Change.Frame
import ModelInputs.Proofs.Unit.Handles

/-!
# What is read alike after a change

A change of inputs leaves the names and the classes of entities, so references to entities are read
as before. Where it leaves the attributes and the custom outputs too, outputs are found as before, and
the unit types that checks of expressions ask for are declared as before: the one unit type that hangs
on a value is that of an output whose values are no numbers. So expressions are read as before.

* `World.ChangesOnly.nameOf_eq`, `World.ChangesOnly.isInstance_eq`, `World.ChangesOnly.named?_eq`;
* `World.ChangesOnly.handle?_eq`, `World.ChangesOnly.typeOfHandle_eq`: outputs;
* `World.ChangesOnly.unit_eq`, `World.ChangesOnly.numericUnit_eq`: their unit types;
* **`World.ChangesOnly.readExpression_eq`**: expressions.
-/

namespace ModelInputs

/-! ## Checks of expressions -/

namespace Expr

variable {env : Env} {strict : Bool} {read : EntityId → String → Option (Except Failure Result)}

mutual

/-- A check does not look at what outputs yield. -/
theorem inferUnit_withRead (x : Expr) :
    inferUnit { env with read := read } strict x = inferUnit env strict x := by
  match x with
  | literal value pos =>
    cases value with
    | _ => rfl
  | entity name pos => rfl
  | output target name pos =>
    have htarget := inferUnit_withRead target
    cases target with
    | entity => rfl
    | _ => exact congrArg (· >>= fun _ => .ok none) htarget
  | index target i pos => rw [inferUnit, inferUnit, inferUnit_withRead target, inferUnit_withRead i]
  | binary op left right pos =>
    rw [inferUnit, inferUnit, inferUnit_withRead left, inferUnit_withRead right]
  | unary op operand pos => rw [inferUnit, inferUnit, inferUnit_withRead operand]
  | cond c a b pos =>
    rw [inferUnit, inferUnit, inferUnit_withRead c, inferUnit_withRead a, inferUnit_withRead b]
  | call function args pos => rw [inferUnit, inferUnit, inferUnits_withRead args]
  | array items pos => rw [inferUnit, inferUnit, inferUnits_withRead items]
  | map entries pos => rw [inferUnit, inferUnit, inferEntries_withRead entries]

theorem inferUnits_withRead (xs : List Expr) :
    inferUnits { env with read := read } strict xs = inferUnits env strict xs := by
  match xs with
  | [] => rfl
  | x :: xs => rw [inferUnits, inferUnits, inferUnit_withRead x, inferUnits_withRead xs]

theorem inferEntries_withRead (entries : List (String × Expr)) :
    inferEntries { env with read := read } strict entries = inferEntries env strict entries := by
  match entries with
  | [] => rfl
  | (_, x) :: entries =>
    rw [inferEntries, inferEntries, inferUnit_withRead x, inferEntries_withRead entries]

end

end Expr

namespace World

namespace ChangesOnly

variable {inputs : InputId → Prop} {attributesOf outputsOf : EntityId → Prop} {w w' : World}

/-! ## Entities -/

/-- What a change leaves of entities is read as before. -/
theorem map_entity?_eq {α : Type} {g : Entity → α}
    (h : w.ChangesOnly inputs attributesOf outputsOf w')
    (hg : ∀ e x x', x.ChangesOnly (fun keyword => inputs ⟨e, keyword⟩) (attributesOf e)
      (outputsOf e) x' → g x' = g x) (e : EntityId) :
    (w'.entity? e).map g = (w.entity? e).map g := by
  cases hx : w.entity? e with
  | none => rw [h.entity?_eq_none hx]
  | some x =>
    obtain ⟨x', hx', hxx'⟩ := h.entity e x hx
    rw [hx', Option.map_some, Option.map_some, hg e x x' hxx']

variable (h : w.ChangesOnly inputs attributesOf outputsOf w')

include h

theorem named?_eq (name : String) : w'.named? name = w.named? name := by
  rw [named?, named?, h.registry_eq]

theorem nameOf_eq (e : EntityId) : w'.nameOf e = w.nameOf e :=
  congrArg (·.getD "") (h.map_entity?_eq (fun _ _ _ hx => hx.name_eq) e)

theorem classOf_eq (e : EntityId) : w'.classOf e = w.classOf e :=
  congrArg (·.getD "") (h.map_entity?_eq (fun _ _ _ hx => hx.className_eq) e)

theorem hasNamespace_eq (this : Option EntityId) : w'.hasNamespace this = w.hasNamespace this := by
  cases this with
  | none => rfl
  | some e => exact congrArg (·.getD false) (h.map_entity?_eq (fun _ _ _ hx => hx.inNamespace_eq) e)

theorem isInstance_eq (e : EntityId) (type : TypeRef) :
    w'.isInstance e type = w.isInstance e type := by
  rw [isInstance, isInstance, h.classOf_eq, h.palette_eq]

theorem isSome_input?_eq (id : InputId) : (w'.input? id).isSome = (w.input? id).isSome := by
  have hkind := congrArg Option.isSome (h.kind_eq id)
  rwa [Option.isSome_map, Option.isSome_map] at hkind

theorem entitySampler?_eq (e : EntityId) : w'.entitySampler? e = w.entitySampler? e := by
  have hfield := h.map_entity?_eq (g := (·.field "sample"))
    (fun _ _ _ hx => by rw [Entity.field, Entity.field, hx.fields_eq]) e
  rw [entitySampler?, entitySampler?, hfield]

theorem readEntity?_eq (this : Option EntityId) (type : TypeRef) (name : String) :
    w'.readEntity? this type name = w.readEntity? this type name := by
  unfold readEntity? readNamed? refuseClass
  rw [h.hasNamespace_eq, h.named?_eq]
  simp only [h.isInstance_eq, h.classOf_eq]

theorem readInterface?_eq (this : Option EntityId) (type : TypeRef) (name : String) :
    w'.readInterface? this type name = w.readInterface? this type name := by
  unfold readInterface? readNamed?
  rw [h.hasNamespace_eq, h.named?_eq]
  simp only [h.isInstance_eq]

theorem findNamed?_eq (this : Option EntityId) (name : String) :
    w'.findNamed? this name = w.findNamed? this name := by
  rw [findNamed?, findNamed?, h.hasNamespace_eq, h.named?_eq]

/-! ## Outputs -/

theorem outputSpec?_eq (e : EntityId) (name : String) :
    w'.outputSpec? e name = w.outputSpec? e name := by
  rw [outputSpec?, outputSpec?, h.classOf_eq, h.palette_eq]

/-- An input is an output if it was one. -/
theorem map_inputOutput?_eq {α : Type} (e : EntityId) (name : String) (a : α) :
    ((w'.entity? e).bind (inputOutput? · name)).map (fun _ => a) =
      ((w.entity? e).bind (inputOutput? · name)).map fun _ => a := by
  have hdeclared := congrArg (Option.map fun i : Input => i.isOutput) (h.input?_declaration ⟨e, name⟩)
  rw [Option.map_map, Option.map_map] at hdeclared
  have hbind (w : World) : ((w.entity? e).bind (inputOutput? · name)).map (fun _ => a) =
      (((w.input? ⟨e, name⟩).map fun i => i.isOutput).filter id).map fun _ => a := by
    rw [input?]
    cases w.entity? e with
    | none => rfl
    | some x =>
      show ((x.input? name).filter (·.isOutput)).map _ =
        (((x.input? name).map (·.isOutput)).filter id).map _
      cases hi : x.input? name with
      | none => rfl
      | some i =>
        rw [Option.map_some, Option.filter_some, Option.filter_some]
        cases hout : i.isOutput with
        | true => rfl
        | false => rfl
  rw [hbind, hbind]
  exact congrArg (fun o => (o.filter id).map fun _ => a) hdeclared

theorem isDeclaredOutput_eq (e : EntityId) (name : String) :
    w'.isDeclaredOutput e name = w.isDeclaredOutput e name := by
  have hinput := congrArg Option.isSome (h.map_inputOutput?_eq e name ())
  rw [Option.isSome_map, Option.isSome_map] at hinput
  rw [isDeclaredOutput, isDeclaredOutput, h.outputSpec?_eq, hinput]

section

variable (ha : ∀ e, ¬ attributesOf e)

include ha

theorem attribute?_eq (a : AttributeId) : w'.attribute? a = w.attribute? a := by
  rw [attribute?, attribute?, h.attributes_eq ha]

theorem typeOfHandle_eq (handle : Handle) : w'.typeOfHandle handle = w.typeOfHandle handle := by
  match handle with
  | .output e name => rw [typeOfHandle, typeOfHandle, h.outputSpec?_eq]
  | .attribute a => rw [typeOfHandle, typeOfHandle, h.attribute?_eq ha]
  | .custom o => rfl
  | .input id =>
    have hkind := congrArg (Option.map InputKind.valueType) (h.kind_eq id)
    rw [Option.map_map, Option.map_map] at hkind
    exact congrArg (·.getD .object) hkind

/-- Outputs declare the unit type that they declared, unless it hangs on the value of an input. -/
theorem unit_eq {handle : Handle} (hne : ∀ id, handle = .input id →
      (w.input? id).map (·.kind) ≠ some (.output none)) :
    w'.readings.unit handle = w.readings.unit handle := by
  rw [readings_unit, readings_unit]
  match handle with
  | .output e name => rw [unitWith, unitWith, h.outputSpec?_eq]
  | .attribute a => rw [unitWith, unitWith, h.attribute?_eq ha]
  | .custom o => rfl
  | .input id =>
    have hne := hne id rfl
    have hkind := h.kind_eq id
    rw [unitWith, unitWith]
    cases hi : w.input? id with
    | none =>
      rw [hi] at hkind
      rw [Option.map_eq_none_iff.1 hkind]
    | some i =>
      rw [hi] at hkind hne
      obtain ⟨i', hi', hkind⟩ := Option.map_eq_some_iff.1 hkind
      have hkind : i'.kind = i.kind := hkind
      have hne : i.kind ≠ .output none := fun heq => hne (congrArg some heq)
      rw [hi']
      dsimp only
      rw [hkind]
      generalize i.kind = kind at hne
      unfold inputUnit
      split
      · exact absurd rfl hne
      · rfl

/-- A check of an expression asks for the same unit types. -/
theorem numericUnit_eq (handle : Handle) :
    w'.numericUnit w'.readings handle = w.numericUnit w.readings handle := by
  rw [numericUnit, numericUnit, h.typeOfHandle_eq ha]
  split
  · next hnumeric =>
    rw [h.unit_eq ha]
    rintro id rfl hkind
    -- an output is read as a chain, which is no number
    have htype := congrArg (Option.map InputKind.valueType) hkind
    rw [Option.map_map] at htype
    have htype : (w.input? id).map (·.kind.valueType) = some .outputChain := htype
    rw [typeOfHandle, htype] at hnumeric
    cases hnumeric
  · rfl

theorem checkFollowed_eq (root : EntityId) (first : String) (handle : Handle)
    (remaining : List String) :
    w'.checkFollowed root first handle remaining = w.checkFollowed root first handle remaining := by
  unfold checkFollowed
  rw [h.typeOfHandle_eq ha, h.palette_eq, h.nameOf_eq]

variable (ho : ∀ e, ¬ outputsOf e)

include ho

/-- The outputs of an entity are found as they were. -/
theorem handle?_eq (e : EntityId) (name : String) : w'.handle? e name = w.handle? e name := by
  have hspec := h.outputSpec?_eq e name
  have hinput := h.map_inputOutput?_eq e name (Handle.input ⟨e, name⟩)
  unfold handle?
  rw [hspec]
  cases hx : w.entity? e with
  | none => rw [h.entity?_eq_none hx]
  | some x =>
    obtain ⟨x', hx', hxx'⟩ := h.entity e x hx
    rw [hx, hx', Option.bind_some, Option.bind_some] at hinput
    rw [hx', Option.bind_some, Option.bind_some, hxx'.attributes_eq (ha e),
      hxx'.customOutputs_eq (ho e), hinput]

theorem readChain?_eq (this : Option EntityId) (a : Arguments) :
    w'.readChain? this a = w.readChain? this a := by
  unfold readChain?
  simp only [h.readEntity?_eq, h.handle?_eq ha ho, h.checkFollowed_eq ha, h.nameOf_eq]

/-! ## Expressions -/

/-- **An expression is checked as before.** -/
theorem inferUnit_eq (exp : Expression) (this : Option EntityId) (everywhere strict : Bool) :
    w'.inferUnit exp this everywhere strict = w.inferUnit exp this everywhere strict := by
  have henv : w'.checkEnv this everywhere =
      { w.checkEnv this everywhere with read := (w'.checkEnv this everywhere).read } := by
    unfold checkEnv envWith
    simp only [Env.mk.injEq, true_and]
    refine ⟨?_, ?_, ?_⟩
    · funext name
      rw [h.hasNamespace_eq, h.named?_eq]
    · funext e
      exact h.nameOf_eq e
    · funext e name
      rw [h.handle?_eq ha ho]
      exact Option.map_congr fun handle _ => h.numericUnit_eq ha handle
  rw [inferUnit, inferUnit, Expression.inferUnit, Expression.inferUnit, henv,
    Expr.inferUnit_withRead]

theorem checkExpression_eq (exp : Expression) (this : Option EntityId)
    (expected : Option UnitType) :
    w'.checkExpression exp this expected = w.checkExpression exp this expected := by
  have hinfer := h.inferUnit_eq ha ho exp this false false
  unfold checkExpression Expression.check
  unfold World.inferUnit at hinfer
  rw [hinfer]

/-- **An expression is read as before.** -/
theorem readExpression_eq (this : Option EntityId) (text : String) (unit : Option UnitType) :
    w'.readExpression this text unit = w.readExpression this text unit := by
  unfold readExpression
  simp only [h.settings_eq, h.checkExpression_eq ha ho]

end

end ChangesOnly

end World

end ModelInputs
