import Mathlib.Logic.Relation
import ModelInputs.Proofs.Run.Killing

/-!
# Runs of a model

A model starts empty. Entities are created, inputs are added to them, keywords are applied to them,
and entities that are registered are killed and renamed, in any order. Where the classes declare
inputs whose defaults refer to no entity, the world is well formed after each of these steps, and so
at any time.

* `World.create?_cases`, `World.addInput?_eq_ok`, `World.register?_eq_ok`, `World.rename?_eq_ok`:
  what is asked of a change that succeeds, and what it does;
* `World.kill_induction`: what killing keeps;
* `World.Step`: one thing that is done to a model;
* `World.Reached`: the worlds that runs lead to;
* `World.WellFormed.create`, `World.WellFormed.applyItems`, `World.WellFormed.rename`: what the
  single steps keep;
* **`World.Reached.wellFormed`**: every world that is reached is well formed.
-/

namespace ModelInputs

namespace World

variable {w w' : World} {e : EntityId}

/-! ## Changes that succeed -/

/-- An entity enters the registry under its name, which is free. -/
theorem register?_eq_ok (h : w.register? e = .ok w') :
    w.named? (w.nameOf e) = none ∧
      w' = ({ w with registry := w.registry ++ [(w.nameOf e, e)] } : World).updateEntity e fun x =>
        { x with inNamespace := true } := by
  unfold register? at h
  dsimp only at h
  split at h
  · cases h
  next hfree =>
  cases h
  exact ⟨Option.not_isSome_iff_eq_none.1 hfree, rfl⟩

/-- The new name is valid and free. It replaces the old one, which no longer stands for anything. -/
theorem rename?_eq_ok {name : String} (h : w.rename? e name = .ok w') :
    isValidName name = true ∧ w.named? name = none ∧
      w' = ({ w with registry := w.withoutName (w.nameOf e) ++ [(name, e)] } : World).updateEntity e
        fun x => { x with name := name } := by
  unfold rename? at h
  split at h
  · cases h
  next hvalid =>
  split at h
  · cases h
  next hfree =>
  cases h
  exact ⟨by simpa using hvalid, Option.not_isSome_iff_eq_none.1 hfree, rfl⟩

/-- The new entity has a valid name. It comes behind the others, and is registered unless it is to
stay loose. -/
theorem create?_cases {className name : String} {loose : Bool}
    (h : w.create? className name loose = .ok (w', e)) :
    isValidName name = true ∧ e = ⟨w.entities.length⟩ ∧
      ((loose = true ∧ w' = { w with entities := w.entities ++ [w.newEntity className name] }) ∨
        loose = false ∧ ({ w with
          entities := w.entities ++ [w.newEntity className name] } : World).register? e = .ok w') := by
  unfold create? at h
  split at h
  · cases h
  next hvalid =>
  refine ⟨by simpa using hvalid, ?_⟩
  cases loose with
  | true =>
    cases h
    exact ⟨rfl, .inl ⟨rfl, rfl⟩⟩
  | false =>
    obtain ⟨w₁, hregister, heq⟩ := map_eq_ok.1 h
    obtain ⟨rfl, rfl⟩ := Prod.mk.inj heq
    exact ⟨rfl, .inr ⟨rfl, hregister⟩⟩

/-- The keyword of a new input is new. -/
theorem addInput?_eq_ok {i : Input} (h : w.addInput? e i = .ok w') :
    w.input? ⟨e, i.keyword⟩ = none ∧
      w' = w.updateEntity e fun x => { x with inputs := x.inputs ++ [i] } := by
  unfold addInput? at h
  split at h
  · cases h
  next hnew =>
  cases h
  exact ⟨Option.not_isSome_iff_eq_none.1 hnew, rfl⟩

/-! ## Killing -/

/-- What every input keeps that gives up an entity is kept where some inputs are searched for it,
whether or not one of them can not be searched. -/
theorem dropFromInputs_induction {P : World → Prop} (hw : P w)
    (hinput : ∀ w id i i' changed, w.input? id = some i → i.removeReferences e = .ok (i', changed) →
      P w → P (w.updateInput id fun _ => i')) (done ids : List InputId) :
    P (w.dropFromInputs e done ids).world := by
  induction ids generalizing w done with
  | nil => exact hw
  | cons id ids ih =>
    rw [dropFromInputs]
    split
    · next w' changed hdrop =>
      refine ih ?_ _
      unfold dropFromInput at hdrop
      split at hdrop
      · next i hi =>
        obtain ⟨⟨i', changed'⟩, hremove, heq⟩ := bind_eq_ok.1 hdrop
        cases heq
        exact hinput w id i i' _ hi hremove hw
      · cases hdrop
        exact hw
    · exact hw

/-- What holds of a world with any registry, and is kept by every input that gives up an entity,
holds of the world in which that entity is killed. -/
theorem kill_induction {P : World → Prop}
    (hregistry : ∀ registry, P { w with registry := registry })
    (hinput : ∀ w id i i' changed, w.input? id = some i → i.removeReferences e = .ok (i', changed) →
      P w → P (w.updateInput id fun _ => i')) : P (w.kill e).world := by
  unfold kill
  split
  · refine dropFromInputs_induction ?_ hinput _ _
    unfold unregister
    split
    · exact hregistry _
    · exact hregistry w.registry
  · exact hregistry w.registry

/-! ## New entities and inputs -/

theorem entity?_append (w : World) (x : Entity) (y : EntityId) :
    ({ w with entities := w.entities ++ [x] } : World).entity? y =
      if y.index = w.entities.length then some x else w.entity? y := by
  show (w.entities ++ [x])[y.index]? = _
  split
  · next h => rw [h, List.getElem?_concat_length]
  · next h =>
    rw [World.entity?]
    by_cases hlt : y.index < w.entities.length
    · rw [List.getElem?_append_left hlt]
    · rw [List.getElem?_eq_none (Nat.le_of_not_lt hlt), List.getElem?_eq_none]
      rw [List.length_append, List.length_singleton]
      omega

theorem WellFormed.newEntity (hw : w.WellFormed) (className name : String) :
    (w.newEntity className name).WellFormed where
  keywords := hw.palette.keywords className
  inputs i hi := (hw.palette.inputs className i hi).suited

theorem WellFormed.append (hw : w.WellFormed) {x : Entity} (hx : x.WellFormed) :
    ({ w with entities := w.entities ++ [x] } : World).WellFormed where
  palette := hw.palette
  entities y z hz := by
    rw [entity?_append] at hz
    split at hz
    · rwa [← Option.some.inj hz]
    · exact hw.entities y z hz
  names := hw.names
  registered name y hmem := by
    obtain ⟨z, hz, hname⟩ := hw.registered name y hmem
    refine ⟨z, ?_, hname⟩
    rw [entity?_append, if_neg]
    · exact hz
    · exact Nat.ne_of_lt (List.getElem?_eq_some_iff.1 hz).1

/-- An entity enters a registry under its name, where neither is in use. -/
theorem WellFormed.enter (hw : w.WellFormed) {registry : List (String × EntityId)}
    (hsub : registry.Sublist w.registry) {name : String} (hname : name ∉ registry.map (·.1))
    (hout : e ∉ registry.map (·.2)) {x : Entity} (hx : w.entity? e = some x) {f : Entity → Entity}
    (hinputs : ∀ y, (f y).inputs = y.inputs) (hfname : (f x).name = name)
    (hfns : (f x).inNamespace = true) :
    (({ w with registry := registry ++ [(name, e)] } : World).updateEntity e f).WellFormed := by
  have hentity (y : EntityId) :
      (({ w with registry := registry ++ [(name, e)] } : World).updateEntity e f).entity? y =
        if e = y then (w.entity? y).map f else w.entity? y :=
    entity?_updateEntity _ e y f
  refine ⟨hw.palette, ?_, ?_, ?_⟩
  · intro y z hz
    rw [hentity] at hz
    split at hz
    · obtain ⟨z₀, hz₀, rfl⟩ := Option.map_eq_some_iff.1 hz
      have hwz := hw.entities y z₀ hz₀
      exact ⟨by rw [hinputs]; exact hwz.keywords, by rw [hinputs]; exact hwz.inputs⟩
    · exact hw.entities y z hz
  · show ((registry ++ [(name, e)]).map (·.1)).Nodup
    rw [List.map_append, List.map_singleton, ← List.concat_eq_append]
    exact (hw.names.sublist (hsub.map _)).concat hname
  · intro name' y hmem
    rw [hentity]
    obtain hold | hnew := List.mem_append.1 hmem
    · rw [if_neg fun heq => hout (List.mem_map.2 ⟨_, hold, heq.symm⟩)]
      exact hw.registered name' y (hsub.subset hold)
    · obtain ⟨rfl, rfl⟩ := Prod.mk.inj (List.mem_singleton.1 hnew)
      rw [if_pos rfl, hx]
      exact ⟨f x, rfl, hfname, hfns⟩

/-- An entity is registered under its name, which was not in use. -/
theorem WellFormed.register (hw : w.WellFormed) (he : (w.entity? e).isSome = true)
    (h : w.register? e = .ok w') : w'.WellFormed := by
  obtain ⟨x, hx⟩ := Option.isSome_iff_exists.1 he
  have hname : x.name = w.nameOf e := by
    rw [nameOf, hx]
    rfl
  obtain ⟨hfree, rfl⟩ := register?_eq_ok h
  have hnew := not_mem_names hfree
  refine hw.enter (List.Sublist.refl _) hnew ?_ hx (fun _ => rfl) hname rfl
  intro hmem
  obtain ⟨name, hmem⟩ := mem_registered.1 hmem
  rw [hw.name_eq hmem] at hnew
  exact hnew (List.mem_map.2 ⟨_, hmem, rfl⟩)

theorem WellFormed.create (hw : w.WellFormed) {className name : String} {loose : Bool}
    (h : w.create? className name loose = .ok (w', e)) : w'.WellFormed := by
  have happend := hw.append (hw.newEntity className name)
  obtain ⟨-, rfl, ⟨-, rfl⟩ | ⟨-, hregister⟩⟩ := create?_cases h
  · exact happend
  · refine happend.register ?_ hregister
    rw [entity?_append, if_pos rfl]
    rfl

theorem WellFormed.addInput (hw : w.WellFormed) {i : Input} (hi : i.IsNew)
    (h : w.addInput? e i = .ok w') : w'.WellFormed := by
  obtain ⟨hnew, rfl⟩ := addInput?_eq_ok h
  have hentity (y : EntityId) := entity?_updateEntity w e y fun x =>
    { x with inputs := x.inputs ++ [i] }
  refine ⟨hw.palette, ?_, hw.names, ?_⟩
  · intro y z hz
    rw [hentity] at hz
    split at hz
    · next hy =>
      subst hy
      obtain ⟨x, hx, rfl⟩ := Option.map_eq_some_iff.1 hz
      have hwx := hw.entities e x hx
      refine ⟨?_, ?_⟩
      · rw [List.map_append, List.map_singleton, ← List.concat_eq_append]
        refine hwx.keywords.concat fun hmem => ?_
        obtain ⟨j, hj, hkey⟩ := List.mem_map.1 hmem
        rw [input?, hx, Option.bind_some, ← hkey, hwx.input?_eq_some hj] at hnew
        cases hnew
      · intro j hj
        obtain hold | hnew := List.mem_append.1 hj
        · exact hwx.inputs j hold
        · rw [List.mem_singleton.1 hnew]
          exact hi.suited
    · exact hw.entities y z hz
  · intro name y hmem
    obtain ⟨z, hz, hname, hns⟩ := hw.registered name y hmem
    rw [hentity]
    split
    · exact ⟨{ z with inputs := z.inputs ++ [i] }, by rw [hz]; rfl, hname, hns⟩
    · exact ⟨z, hz, hname, hns⟩

/-! ## Names -/

theorem WellFormed.rename (hw : w.WellFormed) (he : e ∈ w.registered) {name : String}
    (h : w.rename? e name = .ok w') : w'.WellFormed := by
  obtain ⟨-, hfree, rfl⟩ := rename?_eq_ok h
  have hnew := not_mem_names hfree
  obtain ⟨old, hmem⟩ := mem_registered.1 he
  obtain ⟨x, hx, -, hns⟩ := hw.registered old e hmem
  have hsub : (w.withoutName (w.nameOf e)).Sublist w.registry := List.filter_sublist
  refine hw.enter hsub ?_ ?_ hx (fun _ => rfl) rfl hns
  · exact fun hmem => hnew ((hsub.map _).subset hmem)
  · rw [hw.withoutName_eq he]
    intro hmem
    obtain ⟨entry, hentry, heq⟩ := List.mem_map.1 hmem
    exact bne_iff_ne.1 (List.mem_filter.1 hentry).2 heq

/-! ## Keywords -/

theorem WellFormed.suited (hw : w.WellFormed) {id : InputId} {i : Input}
    (hi : w.input? id = some i) : i.Suited := by
  obtain ⟨x, hx, hxi⟩ := Option.bind_eq_some_iff.1 hi
  exact (hw.entities _ x hx).inputs i (List.mem_of_find?_eq_some hxi)

/-- An assignment that fits its input leaves a well-formed world. -/
theorem WellFormed.store (hw : w.WellFormed) {id : InputId} {i : Input}
    (hi : w.input? id = some i) {assignment : Assignment} (ha : assignment.Fits i.kind) :
    (w.store id assignment).WellFormed := by
  -- definitions change a table of the entity before they set the input, but no input
  have hset {w' : World} {v : Value} (hv : i.kind.Fits v)
      (hchanges : w.ChangesOnly (fun _ => True) (fun _ => True) (fun _ => True) w')
      (hw' : w'.WellFormed) : (w'.updateInput id (Input.assign v)).WellFormed := by
    refine hw'.updateInput (Input.assign_sameDeclaration v) fun j hj => ?_
    have hkind := hchanges.kind_eq id
    rw [hi, hj] at hkind
    have hkind : j.kind = i.kind := Option.some.inj hkind
    exact (hw'.suited hj).assign (hkind ▸ hv)
  have htables {e : EntityId} {f : Entity → Entity} (hf : ∀ x, (f x).inputs = x.inputs)
      (y : EntityId) (x : Entity) (hx : (w.updateEntity e f).entity? y = some x) :
      ∀ i ∈ x.inputs, i.Suited := by
    rw [entity?_updateEntity] at hx
    split at hx
    · obtain ⟨x₀, hx₀, rfl⟩ := Option.map_eq_some_iff.1 hx
      rw [hf]
      exact (hw.entities y x₀ hx₀).inputs
    · exact (hw.entities y x hx).inputs
  cases ha with
  | value hv => exact hset hv (.refl w) hw
  | keyLists hv =>
    refine hw.updateInput (Input.assignKeyLists_sameDeclaration _ _) fun j hj => ?_
    obtain rfl : i = j := Option.some.inj (hi.symm.trans hj)
    exact (hw.suited hi).assignKeyLists hv
  | @attributes e definitions hk =>
    have hchanges : w.ChangesOnly (fun _ => True) (fun _ => True) (fun _ => True)
        ((w.addAttributes definitions).setAttributes e
          ((definitions.map (·.name)).zip (w.newAttributeIds definitions.length))) :=
      (addAttributes_changesOnly (e := e) trivial definitions).trans
        (setAttributes_changesOnly trivial _)
    refine hset (by rw [hk]; exact .attributes) hchanges (hw.of_changesOnly hchanges ?_)
    exact htables fun _ => rfl
  | @customOutputs e outputs hk =>
    have hchanges : w.ChangesOnly (fun _ => True) (fun _ => True) (fun _ => True)
        (w.setCustomOutputs e outputs) := setCustomOutputs_changesOnly trivial outputs
    refine hset (by rw [hk]; exact .customOutputs) hchanges (hw.of_changesOnly hchanges ?_)
    exact htables fun _ => rfl
  | nothing => exact hw

theorem WellFormed.parseInput (hw : w.WellFormed) {this : Option EntityId} {id : InputId}
    {a : Arguments} (h : (w.parseInput this id a).Gives w') : w'.WellFormed := by
  obtain ⟨-, rfl⟩ | ⟨i, assignment, hi, hread, rfl⟩ := parseInput_gives h
  · exact hw
  · exact hw.store hi (readKind_fits (fun hk => (hw.suited hi).fits (.inl hk)) hread)

theorem markReceiver_suited (w : World) (e : EntityId) (a : Arguments) {i : Input}
    (h : i.Suited) : (w.markReceiver e a i).Suited := by
  unfold markReceiver
  dsimp only
  split
  · exact ⟨⟨h.namesNoEntity.default_eq, h.namesNoEntity.keyless_eq⟩, h.fits, h.keyless⟩
  · exact ⟨⟨h.namesNoEntity.default_eq, h.namesNoEntity.keyless_eq⟩, h.fits, h.keyless⟩

theorem WellFormed.applyArguments (hw : w.WellFormed) {a : Arguments} {id : InputId}
    (h : (w.applyArguments e a).Gives (w', id)) : w'.WellFormed := by
  obtain ⟨-, -, changed, hparse, rfl⟩ := applyArguments_eq_of_gives h
  have hchanged := hw.parseInput hparse
  exact hchanged.updateInput (w.markReceiver_sameDeclaration e a) fun i hi =>
    w.markReceiver_suited e a (hchanged.suited hi)

/-- Keywords that are applied leave a well-formed world, whether or not one of them is refused. -/
theorem WellFormed.applyItems (hw : w.WellFormed) (e : EntityId) (log : List Warning)
    (done : List InputId) (items : List Arguments) :
    (w.applyItems e log done items).world.WellFormed :=
  applyItems_induction hw fun _ _ _ _ _ hw h => hw.applyArguments h

/-! ## Runs -/

/-- One thing that is done to a model. Keywords may be applied to any entity, and some of them may
be refused. -/
inductive Step : World → World → Prop where
  | create {w w' : World} {e : EntityId} {className name : String} {loose : Bool} :
    w.create? className name loose = .ok (w', e) → Step w w'
  | addInput {w w' : World} {e : EntityId} {i : Input} :
    i.IsNew → w.addInput? e i = .ok w' → Step w w'
  | apply {w : World} {e : EntityId} {items : List Arguments} :
    Step w (w.applyItems e [] [] items).world
  | kill {w : World} {e : EntityId} : e ∈ w.registered → Step w (w.kill e).world
  | rename {w w' : World} {e : EntityId} {name : String} :
    e ∈ w.registered → w.rename? e name = .ok w' → Step w w'

/-- The world is reached from an empty one of the classes, whatever its settings are. -/
def Reached (p : Palette) (w : World) : Prop :=
  ∃ settings recordsEdits,
    Relation.ReflTransGen Step { palette := p, settings := settings, recordsEdits := recordsEdits } w

/-- **Every step leaves a well-formed world.** -/
theorem Step.wellFormed (h : Step w w') (hw : w.WellFormed) : w'.WellFormed := by
  cases h with
  | create h => exact hw.create h
  | addInput hi h => exact hw.addInput hi h
  | apply => exact hw.applyItems _ _ _ _
  | kill he => exact (hw.kill he).1
  | rename he h => exact hw.rename he h

/-- **Every world that is reached is well formed.** -/
theorem Reached.wellFormed {p : Palette} (hp : p.IsPlain) (h : Reached p w) : w.WellFormed := by
  obtain ⟨settings, recordsEdits, h⟩ := h
  induction h with
  | refl => exact ⟨hp, nofun, List.nodup_nil, nofun⟩
  | tail _ hstep ih => exact hstep.wellFormed ih

end World

end ModelInputs
