import ModelInputs.Proofs.Run.Inputs

/-!
# Searching inputs, whatever their defaults are

An input that is set has a value of its kind, so it can be searched for an entity that goes away,
also where its default refers to entities. The search leaves the input as it was, takes the entity
out of its lists, or gives its value up. Killing an entity therefore never fails: it changes the
registry and inputs, but nothing else.

* `Input.Searchable`: an input that is set has a value of its kind;
* `Input.Loses`: what a search may leave of an input;
* **`Input.Searchable.removeReferences`**: a search succeeds;
* `World.InputsAll`: something holds of all inputs of a world, with a lemma for each step;
* `World.SameButInputs`: two worlds differ at most in their inputs;
* **`World.InputsAll.kill`**: killing succeeds, and what searches keep holds of all inputs.
-/

namespace ModelInputs

namespace Input

/-! ## One input -/

/-- An input that is set has a value of its kind, and only key lists have a list for keys without an
entry. -/
structure Searchable (i : Input) : Prop where
  fits : i.kind.isKeyList = true ∨ i.isDefault = false → i.kind.Fits i.value
  keyless : i.kind.isKeyList = false → i.keyless = []

/-- The input with an entity taken out of its lists. -/
def strip (e : EntityId) (i : Input) : Input :=
  { i with value := i.value.without e, keyless := i.keyless.filter (· != e) }

/-- What a search for an entity may leave of an input: a list that is set, and any key list, loses
the entity, and another value that is set may be given up. -/
inductive Loses (e : EntityId) (i : Input) : Input → Prop where
  | kept : Loses e i i
  | givenUp : i.kind.isKeyList = false → i.kind.isEntityList = false → Loses e i i.reset
  | stripped : i.kind.isKeyList = true ∨ (i.kind.isEntityList = true ∧ i.isDefault = false) →
    Loses e i (i.strip e)

variable {i i' : Input} {e : EntityId}

theorem Loses.sameDeclaration (h : i.Loses e i') : i.SameDeclaration i' := by
  cases h with
  | _ => rfl

theorem unsetKeyless_eq_nil {kind : InputKind} (hk : kind.isKeyList = false) :
    unsetKeyless kind = [] := by
  cases kind with
  | keyLists => cases hk
  | _ => rfl

theorem searchable_reset (i : Input) : i.reset.Searchable where
  fits := by
    rintro (hk | ⟨⟨⟩⟩)
    exact fits_unsetValue hk
  keyless hk := unsetKeyless_eq_nil hk

theorem Searchable.assign (h : i.Searchable) {v : Value} (hv : i.kind.Fits v) :
    (i.assign v).Searchable where
  fits _ := hv
  keyless := h.keyless

/-- A key list has a list for keys without an entry. -/
theorem Searchable.assignKeyLists {lists : KeyLists} (hv : i.kind.Fits lists.toValue) :
    ({ i.assign lists.toValue with keyless := lists.keyless } : Input).Searchable where
  fits _ := hv
  keyless hk := absurd (hk.symm.trans (isKeyList_of_fits hv)) Bool.false_ne_true

theorem Searchable.loses (h : i.Searchable) (hl : i.Loses e i') : i'.Searchable := by
  cases hl with
  | kept => exact h
  | givenUp => exact i.searchable_reset
  | stripped hk =>
    have hfits := h.fits (hk.imp_right And.right)
    have hlist : i.kind.isKeyList = true ∨ i.kind.isEntityList = true := hk.imp_right And.left
    refine ⟨fun _ => (fits_without hfits hlist e).1, fun hkey => ?_⟩
    show i.keyless.filter (· != e) = []
    rw [h.keyless hkey]
    rfl

/-- A list of entities that is set is as it was, or loses the entity. -/
theorem Searchable.assignDropped (h : i.Searchable) (hk : i.kind.isKeyList = false)
    (hl : i.kind.isEntityList = true) (hd : i.isDefault = false) (e : EntityId) (changed : Bool) :
    i.Loses e (i.assignDropped (i.value.without e, changed)).1 := by
  cases changed with
  | true =>
    have hstrip : i.strip e = i.assign (i.value.without e) := by
      rw [Input.strip, Input.assign, h.keyless hk, hd]
      rfl
    have hloses : i.Loses e (i.strip e) := .stripped (.inr ⟨hl, hd⟩)
    rw [hstrip] at hloses
    exact hloses
  | false => exact .kept

/-- **Searching an input for an entity succeeds.** -/
theorem Searchable.removeReferences (h : i.Searchable) (e : EntityId) :
    ∃ i' changed, i.removeReferences e = .ok (i', changed) ∧ i.Loses e i' := by
  refine ⟨(i.searched e).1, (i.searched e).2, removeReferences_eq_searched h.fits e, ?_⟩
  rw [searched]
  cases hk : i.kind.isKeyList with
  | true => exact .stripped (.inl hk)
  | false =>
    cases hd : i.isDefault with
    | true => exact .kept
    | false =>
      cases hl : i.kind.isEntityList with
      | true =>
        cases i.value.truth with
        | false => exact .kept
        | true => exact h.assignDropped hk hl hd e _
      | false =>
        by_cases he : e ∈ i.value.mentions
        · rw [if_neg Bool.false_ne_true, if_neg Bool.false_ne_true, if_neg Bool.false_ne_true,
            if_pos he]
          exact .givenUp hk hl
        · rw [if_neg Bool.false_ne_true, if_neg Bool.false_ne_true, if_neg Bool.false_ne_true,
            if_neg he]
          exact .kept

end Input

namespace World

variable {w w' w'' : World} {e : EntityId}

/-! ## The entities of a world -/

/-- The worlds have the same classes, the same registry, and entities of the same names, classes and
access to the registry. -/
structure SameEntities (w w' : World) : Prop where
  palette_eq : w'.palette = w.palette
  registry_eq : w'.registry = w.registry
  entity?_eq : ∀ y, (w'.entity? y).map (fun x => (x.name, x.className, x.inNamespace)) =
    (w.entity? y).map fun x => (x.name, x.className, x.inNamespace)

namespace SameEntities

theorem refl (w : World) : w.SameEntities w :=
  ⟨rfl, rfl, fun _ => rfl⟩

theorem trans (h : w.SameEntities w') (h' : w'.SameEntities w'') : w.SameEntities w'' where
  palette_eq := h'.palette_eq.trans h.palette_eq
  registry_eq := h'.registry_eq.trans h.registry_eq
  entity?_eq y := (h'.entity?_eq y).trans (h.entity?_eq y)

/-- An entity changes, but neither its name nor its class nor its access to the registry. -/
theorem updateEntity (w : World) (e : EntityId) {f : Entity → Entity}
    (hf : ∀ x, (f x).name = x.name ∧ (f x).className = x.className ∧
      (f x).inNamespace = x.inNamespace) : w.SameEntities (w.updateEntity e f) where
  palette_eq := rfl
  registry_eq := rfl
  entity?_eq y := by
    rw [entity?_updateEntity]
    split
    · rw [Option.map_map]
      refine Option.map_congr fun x _ => ?_
      obtain ⟨hname, hclass, hns⟩ := hf x
      rw [Function.comp_apply, hname, hclass, hns]
    · rfl

theorem of_changesOnly {inputs : InputId → Prop} {attributesOf outputsOf : EntityId → Prop}
    (h : w.ChangesOnly inputs attributesOf outputsOf w') : w.SameEntities w' where
  palette_eq := h.palette_eq
  registry_eq := h.registry_eq
  entity?_eq y := by
    cases hy : w.entity? y with
    | none => rw [h.entity?_eq_none hy]
    | some x =>
      obtain ⟨x', hx', hxx'⟩ := h.entity y x hy
      rw [hx', Option.map_some, Option.map_some, hxx'.name_eq, hxx'.className_eq,
        hxx'.inNamespace_eq]

theorem nameOf_eq (h : w.SameEntities w') (y : EntityId) : w'.nameOf y = w.nameOf y := by
  have heq := congrArg (Option.map Prod.fst) (h.entity?_eq y)
  rw [Option.map_map, Option.map_map] at heq
  exact congrArg (Option.getD · "") heq

theorem isSome_entity?_eq (h : w.SameEntities w') (y : EntityId) :
    (w'.entity? y).isSome = (w.entity? y).isSome := by
  have heq := congrArg Option.isSome (h.entity?_eq y)
  rwa [Option.isSome_map, Option.isSome_map] at heq

end SameEntities

/-! ## All inputs of a world -/

/-- All inputs of a world have a property. -/
def InputsAll (P : Input → Prop) (w : World) : Prop :=
  ∀ id i, w.input? id = some i → P i

/-- What holds of a part of each input that some entity has. -/
theorem inputsAll_of_map {α : Type} {part : Input → α} {parts : List α} {P : α → Prop}
    (hparts : (w.entities.flatMap (·.inputs)).map part = parts) (h : ∀ a ∈ parts, P a) :
    w.InputsAll fun i => P (part i) := by
  intro id i hi
  obtain ⟨x, hx, hi⟩ := Option.bind_eq_some_iff.1 hi
  refine h _ (hparts ▸ List.mem_map_of_mem (List.mem_flatMap.2 ⟨x, ?_, ?_⟩))
  · exact List.mem_of_getElem? hx
  · exact List.mem_of_find?_eq_some hi

namespace InputsAll

variable {P Q : Input → Prop}

theorem imp (hw : w.InputsAll P) (h : ∀ i, P i → Q i) : w.InputsAll Q :=
  fun id i hi => h i (hw id i hi)

/-- A new entity has the inputs that its class declares. -/
theorem create (hw : w.InputsAll P) {className name : String} {loose : Bool}
    (hnew : ∀ i ∈ w.palette.inputs className, P i)
    (h : w.create? className name loose = .ok (w', e)) : w'.InputsAll P := by
  intro id i hi
  rw [input?_create h] at hi
  split at hi
  · exact hnew i (List.mem_of_find?_eq_some hi)
  · exact hw id i hi

theorem addInput (hw : w.InputsAll P) {i : Input} (hi : P i) (h : w.addInput? e i = .ok w') :
    w'.InputsAll P := by
  intro id i' hi'
  obtain ⟨-, rfl⟩ | hold := input?_addInput h hi'
  · exact hi
  · exact hw id i' hold

/-- One input changes into one of its keyword. -/
theorem updateInput (hw : w.InputsAll P) {id : InputId} {i i' : Input}
    (hi : w.input? id = some i) (hkey : i'.keyword = i.keyword) (hi' : P i') :
    (w.updateInput id fun _ => i').InputsAll P := by
  -- the input of another keyword is not touched, so the change keeps keywords
  have hkeyword := (input?_keyword hi).symm.trans hkey.symm
  have hsame : (w.updateInput id fun _ => i') =
      w.updateInput id fun j => if j.keyword == id.keyword then i' else j := by
    refine updateEntity_congr fun x _ => ?_
    rw [Entity.updateInput, Entity.updateInput]
    refine congrArg (fun is => { x with inputs := is }) (List.map_congr_left fun j _ => ?_)
    split
    · rfl
    · rfl
  rw [hsame]
  intro id' j' hj'
  rw [input?_updateInput] at hj'
  · split at hj'
    · obtain ⟨j, hj, rfl⟩ := Option.map_eq_some_iff.1 hj'
      split
      · exact hi'
      · exact hw _ j hj
    · exact hw id' j' hj'
  · intro j
    split
    · next hj => rw [← hkeyword, beq_iff_eq.1 hj]
    · rfl

/-- An input that is found is set by an assignment. -/
theorem store (hw : w.InputsAll P) {id : InputId} {assignment : Assignment}
    (h : ∀ i, w.input? id = some i → P (w.assigned assignment i)) :
    (w.store id assignment).InputsAll P := by
  intro id' i' hi'
  rw [input?_store] at hi'
  split at hi'
  · next hid =>
    obtain ⟨i, hi, rfl⟩ := Option.map_eq_some_iff.1 hi'
    exact h i (hid ▸ hi)
  · exact hw id' i' hi'

/-- A keyword sets an input as its arguments are read; the tokens and the mark of an edit are all
that changes otherwise. -/
theorem applyArguments (hw : w.InputsAll P) {a : Arguments} {id : InputId}
    (hset : ∀ i assignment, w.input? (w.target ⟨e, a.keyword⟩) = some i →
      (w.readKind (some e) i a).Gives assignment → P (w.assigned assignment i))
    (hmark : ∀ i tokens edited, P i → P { i with tokens := tokens, edited := edited })
    (h : (w.applyArguments e a).Gives (w', id)) : w'.InputsAll P := by
  obtain ⟨-, -, changed, hparse, rfl⟩ := applyArguments_eq_of_gives h
  have hchanged : changed.InputsAll P := by
    obtain ⟨-, rfl⟩ | ⟨i, assignment, hi, hread, rfl⟩ := parseInput_gives hparse
    · exact hw
    · refine hw.store fun j hj => ?_
      obtain rfl : i = j := Option.some.inj (hi.symm.trans hj)
      exact hset i assignment hi hread
  intro id' i' hi'
  rw [input?_updateInput (fun i => (w.markReceiver_sameDeclaration e a i).keyword_eq)] at hi'
  split at hi'
  · obtain ⟨i, hi, rfl⟩ := Option.map_eq_some_iff.1 hi'
    obtain ⟨edited, hmarked⟩ := w.markReceiver_eq e a i
    rw [hmarked]
    exact hmark i _ edited (hchanged id' i hi)
  · exact hchanged id' i' hi'

/-! ## Killing -/

/-- Inputs that are searched one after another keep what single searches keep. -/
theorem dropFromInputs (hsearch : ∀ i, P i → i.Searchable)
    (hloses : ∀ i i', P i → i.Loses e i' → P i') (hw : w.InputsAll P) (done ids : List InputId) :
    (∃ changed, (w.dropFromInputs e done ids).result = .ok changed) ∧
      (w.dropFromInputs e done ids).world.InputsAll P ∧
      w.SameEntities (w.dropFromInputs e done ids).world := by
  induction ids generalizing w done with
  | nil => exact ⟨⟨done, rfl⟩, hw, .refl w⟩
  | cons id ids ih =>
    rw [World.dropFromInputs, dropFromInput]
    cases hi : w.input? id with
    | none => exact ih hw _
    | some i =>
      have hP := hw id i hi
      obtain ⟨i', changed, hremove, hl⟩ := (hsearch i hP).removeReferences e
      dsimp only
      rw [hremove, ok_bind]
      have hw' := hw.updateInput hi hl.sameDeclaration.keyword_eq (hloses i i' hP hl)
      obtain ⟨hresult, hall, hsame⟩ := ih hw' (if changed then done ++ [id] else done)
      have hstep : w.SameEntities (w.updateInput id fun _ => i') :=
        .updateEntity w id.entity fun _ => ⟨rfl, rfl, rfl⟩
      exact ⟨hresult, hall, hstep.trans hsame⟩

/-- **Killing an entity succeeds**, and what searches keep holds of all inputs. The registry is as
it is without the entity, if the entity has access to it. -/
theorem kill (hsearch : ∀ i, P i → i.Searchable) (hloses : ∀ i i', P i → i.Loses e i' → P i')
    (hw : w.InputsAll P) :
    (∃ changed, (w.kill e).result = .ok changed) ∧ (w.kill e).world.InputsAll P ∧
      (if w.hasNamespace (some e) then w.unregister e else w).SameEntities (w.kill e).world := by
  unfold World.kill
  split
  · have hunregister : (w.unregister e).InputsAll P := by
      unfold unregister
      split
      · exact hw
      · exact hw
    exact dropFromInputs hsearch hloses hunregister [] _
  · exact ⟨⟨[], rfl⟩, hw, .refl w⟩

end InputsAll

/-! ## Assignments -/

/-- What arguments assign can be searched. -/
theorem searchable_assigned {i : Input} (h : i.Searchable) {assignment : Assignment}
    (ha : assignment.Fits i.kind) : (w.assigned assignment i).Searchable := by
  cases ha with
  | value hv => exact h.assign hv
  | keyLists hv => exact .assignKeyLists hv
  | attributes hk => exact h.assign (by rw [hk]; exact .attributes)
  | customOutputs hk => exact h.assign (by rw [hk]; exact .customOutputs)
  | nothing => exact h

/-- Keywords leave inputs that can be searched. -/
theorem InputsAll.searchable_applyItems (hw : w.InputsAll Input.Searchable) (log : List Warning)
    (done : List InputId) (items : List Arguments) :
    (w.applyItems e log done items).world.InputsAll Input.Searchable :=
  applyItems_induction hw fun _ _ _ _ _ hw h =>
    hw.applyArguments
      (fun _ _ hi hread => searchable_assigned (hw _ _ hi)
        (readKind_fits (fun hk => (hw _ _ hi).fits (.inl hk)) hread))
      (fun _ _ _ hi => ⟨hi.fits, hi.keyless⟩) h

end World

end ModelInputs
