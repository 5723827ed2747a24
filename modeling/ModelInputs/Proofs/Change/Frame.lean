import Mathlib.Data.List.Forall2
import ModelInputs.Model.Change

/-!
# What a change leaves as it was

A change of a world is confined to some inputs and to the attributes and custom outputs of some
entities. Everything else stays: the entities with their names and classes, all other inputs, the
attributes that exist, the registry and the settings. Inputs that change are set anew, and nothing
else about them changes.

* `Input.SameDeclaration`: two inputs differ at most in what they are set to;
* `Entity.ChangesOnly`, `World.ChangesOnly`: the change is confined;
* `World.ChangesOnly.refl`, `World.ChangesOnly.trans`, `World.ChangesOnly.mono`;
* **`World.store_changesOnly`**: an assignment changes its input, and definitions one table.
-/

namespace ModelInputs

/-! ## Inputs -/

namespace Input

/-- The inputs differ at most in what they are set to. -/
def SameDeclaration (i i' : Input) : Prop :=
  i'.reset = i.reset

variable {i i' : Input}

theorem SameDeclaration.keyword_eq (h : i.SameDeclaration i') : i'.keyword = i.keyword := by
  have hk : i'.reset.keyword = i.reset.keyword := congrArg Input.keyword h
  exact hk

theorem SameDeclaration.kind_eq (h : i.SameDeclaration i') : i'.kind = i.kind := by
  have hk : i'.reset.kind = i.reset.kind := congrArg Input.kind h
  exact hk

theorem assign_sameDeclaration (v : Value) (i : Input) : i.SameDeclaration (i.assign v) :=
  rfl

theorem assignKeyLists_sameDeclaration (v : Value) (keyless : List EntityId) (i : Input) :
    i.SameDeclaration { i.assign v with keyless := keyless } :=
  rfl

end Input

/-! ## Entities -/

/-- Only the inputs of some keywords change, and the attributes and the custom outputs if they
may. -/
structure Entity.ChangesOnly (keywords : String → Prop) (attributes outputs : Prop)
    (x x' : Entity) : Prop where
  name_eq : x'.name = x.name
  className_eq : x'.className = x.className
  inNamespace_eq : x'.inNamespace = x.inNamespace
  fields_eq : x'.fields = x.fields
  attributes_eq : ¬ attributes → x'.attributes = x.attributes
  customOutputs_eq : ¬ outputs → x'.customOutputs = x.customOutputs
  inputs : List.Forall₂
    (fun i i' => i.SameDeclaration i' ∧ (¬ keywords i.keyword → i' = i)) x.inputs x'.inputs

namespace Entity.ChangesOnly

variable {keywords keywords' : String → Prop} {attributes attributes' outputs outputs' : Prop}
  {x x' x'' : Entity}

theorem refl (x : Entity) : x.ChangesOnly keywords attributes outputs x where
  name_eq := rfl
  className_eq := rfl
  inNamespace_eq := rfl
  fields_eq := rfl
  attributes_eq _ := rfl
  customOutputs_eq _ := rfl
  inputs := List.forall₂_same.2 fun _ _ => ⟨rfl, fun _ => rfl⟩

theorem inputs_trans {is is' is'' : List Input}
    (h : List.Forall₂ (fun i i' => i.SameDeclaration i' ∧ (¬ keywords i.keyword → i' = i)) is is')
    (h' : List.Forall₂
      (fun i i' => i.SameDeclaration i' ∧ (¬ keywords i.keyword → i' = i)) is' is'') :
    List.Forall₂
      (fun i i' => i.SameDeclaration i' ∧ (¬ keywords i.keyword → i' = i)) is is'' := by
  induction h generalizing is'' with
  | nil =>
    cases h'
    exact .nil
  | cons hi _ ih =>
    cases h' with
    | cons hi' hrest =>
      refine .cons ⟨hi'.1.trans hi.1, fun hk => ?_⟩ (ih hrest)
      rw [← hi.2 hk]
      exact hi'.2 (by rwa [hi.1.keyword_eq])

theorem trans (h : x.ChangesOnly keywords attributes outputs x')
    (h' : x'.ChangesOnly keywords attributes outputs x'') :
    x.ChangesOnly keywords attributes outputs x'' where
  name_eq := h'.name_eq.trans h.name_eq
  className_eq := h'.className_eq.trans h.className_eq
  inNamespace_eq := h'.inNamespace_eq.trans h.inNamespace_eq
  fields_eq := h'.fields_eq.trans h.fields_eq
  attributes_eq ha := (h'.attributes_eq ha).trans (h.attributes_eq ha)
  customOutputs_eq ho := (h'.customOutputs_eq ho).trans (h.customOutputs_eq ho)
  inputs := inputs_trans h.inputs h'.inputs

theorem mono (h : x.ChangesOnly keywords attributes outputs x')
    (hk : ∀ k, keywords k → keywords' k) (ha : attributes → attributes')
    (ho : outputs → outputs') : x.ChangesOnly keywords' attributes' outputs' x' where
  name_eq := h.name_eq
  className_eq := h.className_eq
  inNamespace_eq := h.inNamespace_eq
  fields_eq := h.fields_eq
  attributes_eq ha' := h.attributes_eq fun h => ha' (ha h)
  customOutputs_eq ho' := h.customOutputs_eq fun h => ho' (ho h)
  inputs := h.inputs.imp fun _ _ hi => ⟨hi.1, fun hk' => hi.2 fun h => hk' (hk _ h)⟩

end Entity.ChangesOnly

theorem Entity.updateInput_changesOnly {keywords : String → Prop} {attributes outputs : Prop}
    {keyword : String} {f : Input → Input} (hk : keywords keyword)
    (hf : ∀ i : Input, i.SameDeclaration (f i)) (x : Entity) :
    x.ChangesOnly keywords attributes outputs (x.updateInput keyword f) where
  name_eq := rfl
  className_eq := rfl
  inNamespace_eq := rfl
  fields_eq := rfl
  attributes_eq _ := rfl
  customOutputs_eq _ := rfl
  inputs := by
    refine List.forall₂_map_right_iff.2 (List.forall₂_same.2 fun i _ => ?_)
    by_cases h : i.keyword = keyword
    · rw [if_pos (beq_iff_eq.2 h), h]
      exact ⟨hf i, fun hk' => absurd hk hk'⟩
    · rw [if_neg fun h' => h (beq_iff_eq.1 h')]
      exact ⟨rfl, fun _ => rfl⟩

/-- A changed input is read back as it was changed, and any other as it was. -/
theorem Entity.input?_updateInput {f : Input → Input}
    (hf : ∀ i : Input, (f i).keyword = i.keyword) (x : Entity) (keyword keyword' : String) :
    (x.updateInput keyword f).input? keyword' =
      if keyword = keyword' then (x.input? keyword').map f else x.input? keyword' := by
  have hkeep : (fun i : Input => (if i.keyword == keyword then f i else i).keyword == keyword') =
      fun i => i.keyword == keyword' := by
    funext i
    split
    · rw [hf i]
    · rfl
  unfold Entity.input? Entity.updateInput
  dsimp only
  rw [List.find?_map, Function.comp_def, hkeep]
  cases hi : x.inputs.find? (·.keyword == keyword') with
  | none =>
    split
    · rfl
    · rfl
  | some i =>
    have hi' : i.keyword = keyword' := by
      have hfound := List.find?_some hi
      exact beq_iff_eq.1 hfound
    by_cases hk : keyword = keyword'
    · rw [if_pos hk, Option.map_some, if_pos (beq_iff_eq.2 (hi'.trans hk.symm))]
      rfl
    · rw [if_neg hk, Option.map_some, if_neg fun h => hk ((beq_iff_eq.1 h).symm.trans hi')]

/-! ## Worlds -/

/-- Only some inputs change, and the attributes and the custom outputs of some entities. New
attributes come behind those that exist. -/
structure World.ChangesOnly (inputs : InputId → Prop) (attributesOf outputsOf : EntityId → Prop)
    (w w' : World) : Prop where
  palette_eq : w'.palette = w.palette
  settings_eq : w'.settings = w.settings
  registry_eq : w'.registry = w.registry
  recordsEdits_eq : w'.recordsEdits = w.recordsEdits
  attributes_prefix : w.attributes <+: w'.attributes
  attributes_eq : (∀ e, ¬ attributesOf e) → w'.attributes = w.attributes
  length_eq : w'.entities.length = w.entities.length
  entity : ∀ e x, w.entity? e = some x →
    ∃ x', w'.entity? e = some x' ∧
      x.ChangesOnly (fun keyword => inputs ⟨e, keyword⟩) (attributesOf e) (outputsOf e) x'

/-- The input of a keyword is found where it was, declared as it was. -/
theorem Entity.ChangesOnly.input?_declaration {keywords : String → Prop}
    {attributes outputs : Prop} {x x' : Entity} (h : x.ChangesOnly keywords attributes outputs x')
    (keyword : String) :
    (x'.input? keyword).map Input.reset = (x.input? keyword).map Input.reset := by
  have hinputs := h.inputs
  unfold Entity.input?
  generalize x.inputs = is, x'.inputs = is' at hinputs ⊢
  induction hinputs with
  | nil => rfl
  | @cons i i' is is' hi _ ih =>
    rw [List.find?_cons, List.find?_cons, hi.1.keyword_eq]
    cases i.keyword == keyword with
    | true => exact congrArg some hi.1
    | false => exact ih

/-- The keywords stay, in their order. -/
theorem Entity.ChangesOnly.keywords_eq {keywords : String → Prop} {attributes outputs : Prop}
    {x x' : Entity} (h : x.ChangesOnly keywords attributes outputs x') :
    x'.inputs.map (·.keyword) = x.inputs.map (·.keyword) := by
  have hinputs := h.inputs
  generalize x.inputs = is, x'.inputs = is' at hinputs ⊢
  induction hinputs with
  | nil => rfl
  | cons hi _ ih => rw [List.map_cons, List.map_cons, hi.1.keyword_eq, ih]

/-- An input is found as it was if no input of its keyword changes. -/
theorem Entity.ChangesOnly.input?_eq {keywords : String → Prop} {attributes outputs : Prop}
    {x x' : Entity} (h : x.ChangesOnly keywords attributes outputs x') {keyword : String}
    (hk : ¬ keywords keyword) : x'.input? keyword = x.input? keyword := by
  have hinputs := h.inputs
  unfold Entity.input?
  generalize x.inputs = is, x'.inputs = is' at hinputs ⊢
  induction hinputs with
  | nil => rfl
  | @cons i i' is is' hi _ ih =>
    rw [List.find?_cons, List.find?_cons, hi.1.keyword_eq, ih]
    cases hfound : i.keyword == keyword with
    | true => exact congrArg some (hi.2 (by rwa [beq_iff_eq.1 hfound]))
    | false => rfl

namespace World

namespace ChangesOnly

variable {inputs inputs' : InputId → Prop}
  {attributesOf attributesOf' outputsOf outputsOf' : EntityId → Prop} {w w' w'' : World}

theorem refl (w : World) : w.ChangesOnly inputs attributesOf outputsOf w where
  palette_eq := rfl
  settings_eq := rfl
  registry_eq := rfl
  recordsEdits_eq := rfl
  attributes_prefix := List.prefix_refl _
  attributes_eq _ := rfl
  length_eq := rfl
  entity _ x hx := ⟨x, hx, .refl x⟩

theorem trans (h : w.ChangesOnly inputs attributesOf outputsOf w')
    (h' : w'.ChangesOnly inputs attributesOf outputsOf w'') :
    w.ChangesOnly inputs attributesOf outputsOf w'' where
  palette_eq := h'.palette_eq.trans h.palette_eq
  settings_eq := h'.settings_eq.trans h.settings_eq
  registry_eq := h'.registry_eq.trans h.registry_eq
  recordsEdits_eq := h'.recordsEdits_eq.trans h.recordsEdits_eq
  attributes_prefix := h.attributes_prefix.trans h'.attributes_prefix
  attributes_eq hno := (h'.attributes_eq hno).trans (h.attributes_eq hno)
  length_eq := h'.length_eq.trans h.length_eq
  entity e x hx := by
    obtain ⟨x', hx', hxx'⟩ := h.entity e x hx
    obtain ⟨x'', hx'', hxx''⟩ := h'.entity e x' hx'
    exact ⟨x'', hx'', hxx'.trans hxx''⟩

theorem mono (h : w.ChangesOnly inputs attributesOf outputsOf w')
    (hi : ∀ id, inputs id → inputs' id) (ha : ∀ e, attributesOf e → attributesOf' e)
    (ho : ∀ e, outputsOf e → outputsOf' e) :
    w.ChangesOnly inputs' attributesOf' outputsOf' w' where
  palette_eq := h.palette_eq
  settings_eq := h.settings_eq
  registry_eq := h.registry_eq
  recordsEdits_eq := h.recordsEdits_eq
  attributes_prefix := h.attributes_prefix
  attributes_eq hno := h.attributes_eq fun e he => hno e (ha e he)
  length_eq := h.length_eq
  entity e x hx := by
    obtain ⟨x', hx', hxx'⟩ := h.entity e x hx
    exact ⟨x', hx', hxx'.mono (fun k => hi ⟨e, k⟩) (ha e) (ho e)⟩

theorem entity?_eq_none (h : w.ChangesOnly inputs attributesOf outputsOf w') {e : EntityId}
    (he : w.entity? e = none) : w'.entity? e = none := by
  rw [entity?, List.getElem?_eq_none_iff] at *
  rw [h.length_eq]
  exact he

theorem input?_declaration (h : w.ChangesOnly inputs attributesOf outputsOf w') (id : InputId) :
    (w'.input? id).map Input.reset = (w.input? id).map Input.reset := by
  unfold input?
  cases he : w.entity? id.entity with
  | none => rw [h.entity?_eq_none he]
  | some x =>
    obtain ⟨x', hx', hxx'⟩ := h.entity id.entity x he
    rw [hx']
    exact hxx'.input?_declaration id.keyword

/-- An input that is not among those that change is found as it was. -/
theorem input?_eq (h : w.ChangesOnly inputs attributesOf outputsOf w') {id : InputId}
    (hid : ¬ inputs id) : w'.input? id = w.input? id := by
  unfold input?
  cases he : w.entity? id.entity with
  | none => rw [h.entity?_eq_none he]
  | some x =>
    obtain ⟨x', hx', hxx'⟩ := h.entity id.entity x he
    rw [hx']
    exact hxx'.input?_eq hid

theorem kind_eq (h : w.ChangesOnly inputs attributesOf outputsOf w') (id : InputId) :
    (w'.input? id).map (·.kind) = (w.input? id).map (·.kind) := by
  have hd := congrArg (Option.map Input.kind) (h.input?_declaration id)
  rw [Option.map_map, Option.map_map] at hd
  exact hd

theorem inputCount_eq (h : w.ChangesOnly inputs attributesOf outputsOf w') :
    w'.inputCount = w.inputCount := by
  rw [inputCount, inputCount, List.length_flatMap, List.length_flatMap]
  congr 1
  refine List.ext_getElem? fun n => ?_
  rw [List.getElem?_map, List.getElem?_map]
  cases hx : w.entity? ⟨n⟩ with
  | none =>
    rw [show w.entities[n]? = none from hx, show w'.entities[n]? = none from h.entity?_eq_none hx]
  | some x =>
    obtain ⟨x', hx', hxx'⟩ := h.entity ⟨n⟩ x hx
    rw [show w.entities[n]? = some x from hx, show w'.entities[n]? = some x' from hx']
    exact congrArg some hxx'.inputs.length_eq.symm

end ChangesOnly

/-! ## Operations -/

variable {inputs : InputId → Prop} {attributesOf outputsOf : EntityId → Prop} {w : World}

/-- A change of one entity that is confined is a confined change of the world. -/
theorem updateEntity_changesOnly {e : EntityId} {f : Entity → Entity}
    (hf : ∀ x : Entity, x.ChangesOnly (fun keyword => inputs ⟨e, keyword⟩) (attributesOf e)
      (outputsOf e) (f x)) :
    w.ChangesOnly inputs attributesOf outputsOf (w.updateEntity e f) where
  palette_eq := rfl
  settings_eq := rfl
  registry_eq := rfl
  recordsEdits_eq := rfl
  attributes_prefix := List.prefix_refl _
  attributes_eq _ := rfl
  length_eq := List.length_modify _ _ _
  entity e' x hx := by
    rw [entity?_updateEntity, hx]
    split
    · next h =>
      subst h
      exact ⟨f x, rfl, hf x⟩
    · exact ⟨x, rfl, .refl x⟩

theorem updateInput_changesOnly {id : InputId} {f : Input → Input} (hid : inputs id)
    (hf : ∀ i : Input, i.SameDeclaration (f i)) :
    w.ChangesOnly inputs attributesOf outputsOf (w.updateInput id f) :=
  updateEntity_changesOnly (Entity.updateInput_changesOnly hid hf)

theorem setAttributes_changesOnly {e : EntityId} (he : attributesOf e)
    (attributes : List (String × AttributeId)) :
    w.ChangesOnly inputs attributesOf outputsOf (w.setAttributes e attributes) := by
  refine updateEntity_changesOnly fun x => ?_
  have hx : x.ChangesOnly (fun k => inputs ⟨e, k⟩) (attributesOf e) (outputsOf e) x := .refl x
  exact { hx with attributes_eq := fun h => absurd he h }

theorem setCustomOutputs_changesOnly {e : EntityId} (he : outputsOf e)
    (outputs : List CustomOutput) :
    w.ChangesOnly inputs attributesOf outputsOf (w.setCustomOutputs e outputs) := by
  refine updateEntity_changesOnly fun x => ?_
  have hx : x.ChangesOnly (fun k => inputs ⟨e, k⟩) (attributesOf e) (outputsOf e) x := .refl x
  exact { hx with customOutputs_eq := fun h => absurd he h }

/-- New attributes, which are to be those of some entity. -/
theorem addAttributes_changesOnly {e : EntityId} (he : attributesOf e)
    (attributes : List Attribute) :
    w.ChangesOnly inputs attributesOf outputsOf (w.addAttributes attributes) :=
  { ChangesOnly.refl w with
    attributes_prefix := List.prefix_append _ _
    attributes_eq := fun h => absurd he (h e) }

/-- **An assignment changes the input that it is for**, and the table of an entity if it has
definitions. -/
theorem store_changesOnly {id : InputId} (hid : inputs id) {assignment : Assignment}
    (ha : ∀ e definitions, assignment = .attributes e definitions → attributesOf e)
    (ho : ∀ e outputs, assignment = .customOutputs e outputs → outputsOf e) :
    w.ChangesOnly inputs attributesOf outputsOf (w.store id assignment) := by
  cases assignment with
  | value v => exact updateInput_changesOnly hid (Input.assign_sameDeclaration v)
  | keyLists lists =>
    exact updateInput_changesOnly hid
      (Input.assignKeyLists_sameDeclaration lists.toValue lists.keyless)
  | attributes e definitions =>
    have he : attributesOf e := ha e definitions rfl
    refine .trans (.trans (addAttributes_changesOnly he definitions) ?_)
      (updateInput_changesOnly hid (Input.assign_sameDeclaration _))
    exact setAttributes_changesOnly he _
  | customOutputs e outputs =>
    exact .trans (setCustomOutputs_changesOnly (ho e outputs rfl) outputs)
      (updateInput_changesOnly hid (Input.assign_sameDeclaration _))
  | nothing => exact .refl w

/-! ## The input that is set -/

theorem input?_keyword {w : World} {id : InputId} {i : Input} (h : w.input? id = some i) :
    i.keyword = id.keyword := by
  obtain ⟨x, -, hi⟩ := Option.bind_eq_some_iff.1 h
  have hfound := List.find?_some hi
  exact beq_iff_eq.1 hfound

/-- A changed input is read back as it was changed, and any other as it was. -/
theorem input?_updateInput {f : Input → Input} (hf : ∀ i : Input, (f i).keyword = i.keyword)
    (w : World) (id id' : InputId) :
    (w.updateInput id f).input? id' = if id = id' then (w.input? id').map f else w.input? id' := by
  obtain ⟨e, keyword⟩ := id
  obtain ⟨e', keyword'⟩ := id'
  rw [input?, input?, updateInput, entity?_updateEntity]
  by_cases he : e = e'
  · subst he
    rw [if_pos rfl, Option.bind_map]
    cases w.entity? e with
    | none =>
      split
      · rfl
      · rfl
    | some x =>
      have hx := Entity.input?_updateInput hf x keyword keyword'
      by_cases hk : keyword = keyword'
      · rw [if_pos hk] at hx
        rw [if_pos (congrArg _ hk)]
        exact hx
      · rw [if_neg hk] at hx
        rw [if_neg fun h => hk (congrArg InputId.keyword h)]
        exact hx
  · rw [if_neg he, if_neg fun h => he (congrArg InputId.entity h)]

/-- The input that an assignment is for, once it is set. -/
def assigned (w : World) : Assignment → Input → Input
  | .value v => Input.assign v
  | .keyLists lists => fun i => { i.assign lists.toValue with keyless := lists.keyless }
  | .attributes _ definitions =>
    Input.assign (.list ((w.newAttributeIds definitions.length).map fun a => .handle (.attribute a)))
  | .customOutputs _ outputs => Input.assign (.list (outputs.map fun o => .handle (.custom o)))
  | .nothing => id

theorem assigned_sameDeclaration (w : World) (assignment : Assignment) (i : Input) :
    i.SameDeclaration (w.assigned assignment i) := by
  cases assignment with
  | _ => rfl

theorem tokens_assigned (w : World) (assignment : Assignment) (i : Input) :
    (w.assigned assignment i).tokens = i.tokens := by
  cases assignment with
  | _ => rfl

/-- **An assignment sets the input that it is for**, and leaves all others. -/
theorem input?_store (w : World) (id : InputId) (assignment : Assignment) (id' : InputId) :
    (w.store id assignment).input? id' =
      if id = id' then (w.input? id').map (w.assigned assignment) else w.input? id' := by
  -- definitions change the tables of an entity before they set the input, but no input
  have hset {w' : World} {v : Value}
      (hchanges : w.ChangesOnly (fun _ => False) (fun _ => True) (fun _ => True) w') :
      (w'.updateInput id (Input.assign v)).input? id' =
        if id = id' then (w.input? id').map (Input.assign v) else w.input? id' := by
    rw [input?_updateInput (f := Input.assign v) fun _ => rfl, hchanges.input?_eq not_false]
  cases assignment with
  | value v => exact hset (.refl w)
  | keyLists lists =>
    exact input?_updateInput
      (f := fun i => { i.assign lists.toValue with keyless := lists.keyless }) (fun _ => rfl) w id id'
  | attributes e definitions =>
    exact hset ((addAttributes_changesOnly (e := e) trivial definitions).trans
      (setAttributes_changesOnly trivial _))
  | customOutputs e outputs => exact hset (setCustomOutputs_changesOnly (e := e) trivial outputs)
  | nothing =>
    rw [store, assigned, Option.map_id_fun, id_eq, ite_self]

/-- An assignment that is not empty sets the input that it is for. -/
theorem store_isDefault {id : InputId} {i : Input} (hi : w.input? id = some i)
    {assignment : Assignment} (ha : assignment ≠ .nothing) :
    ∃ i', (w.store id assignment).input? id = some i' ∧ i'.isDefault = false := by
  rw [input?_store, if_pos rfl, hi]
  refine ⟨_, rfl, ?_⟩
  cases assignment with
  | nothing => exact absurd rfl ha
  | _ => rfl

end World

end ModelInputs
