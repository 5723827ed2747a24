import Mathlib.Data.List.Nodup
import ModelInputs.Model.Registry
import ModelInputs.Proofs.Reference.Dropping

/-!
# Well-formed worlds

What holds of a world at any time: its registry has each entity once, under its own name, the
keywords of an entity are distinct, and inputs have values of their kinds, or defaults that refer to
no entity.

* `Input.IsNew`, `Palette.IsPlain`: what is asked of the inputs that classes declare;
* `Entity.WellFormed`, `World.WellFormed`;
* `World.WellFormed.named?_eq_some`, `World.WellFormed.nodup_registered`: names and entities
  correspond;
* **`World.WellFormed.updateInput`**, **`World.WellFormed.of_changesOnly`**: a change of inputs
  leaves a well-formed world if they are still suited.
-/

namespace ModelInputs

/-- An input as it is declared: not set, with a default that refers to no entity. -/
structure Input.IsNew (i : Input) : Prop where
  reset_eq : i.reset = i
  namesNoEntity : i.NamesNoEntity

theorem Input.IsNew.suited {i : Input} (h : i.IsNew) : i.Suited := by
  rw [← h.reset_eq]
  exact .of_reset h.namesNoEntity

theorem Input.isNew_make (keyword category : String) {kind : InputKind} {default : Value}
    (hdefault : default.mentions = []) (hkeyless : Input.unsetKeyless kind = []) :
    (Input.make keyword category kind default).IsNew :=
  ⟨rfl, hdefault, hkeyless⟩

/-- The classes declare new inputs, each of a keyword of its own. -/
structure Palette.IsPlain (p : Palette) : Prop where
  keywords : ∀ className, ((p.inputs className).map (·.keyword)).Nodup
  inputs : ∀ className, ∀ i ∈ p.inputs className, i.IsNew

theorem Palette.class?_eq_some_mem {p : Palette} {name : String} {c : EntityClass}
    (h : p.class? name = some c) : c ∈ p.classes ∧ c.name = name :=
  ⟨List.mem_of_find?_eq_some h, by simpa using List.find?_some h⟩

/-- Only the classes of the palette declare inputs. -/
theorem Palette.inputs_eq_nil {p : Palette} {className : String}
    (h : p.class? className = none) : p.inputs className = [] := by
  rw [Palette.inputs, Palette.lineage, Palette.ancestors, h]
  show ([className].filterMap p.class?).flatMap _ = []
  rw [List.filterMap_cons, h]
  rfl

theorem Palette.IsPlain.of_classes {p : Palette}
    (h : ∀ c ∈ p.classes, ((p.inputs c.name).map (·.keyword)).Nodup ∧
      ∀ i ∈ p.inputs c.name, i.IsNew) : p.IsPlain := by
  have hall (className : String) : ((p.inputs className).map (·.keyword)).Nodup ∧
      ∀ i ∈ p.inputs className, i.IsNew := by
    cases hc : p.class? className with
    | none =>
      rw [Palette.inputs_eq_nil hc]
      exact ⟨List.nodup_nil, fun _ hi => absurd hi List.not_mem_nil⟩
    | some c =>
      obtain ⟨hmem, rfl⟩ := Palette.class?_eq_some_mem hc
      exact h c hmem
  exact ⟨fun className => (hall className).1, fun className => (hall className).2⟩

/-- The inputs of the entity have keywords of their own, and are suited to them. -/
structure Entity.WellFormed (x : Entity) : Prop where
  keywords : (x.inputs.map (·.keyword)).Nodup
  inputs : ∀ i ∈ x.inputs, i.Suited

/-- The classes and entities are well formed, and the registry has each of its entities under its
own name only. -/
structure World.WellFormed (w : World) : Prop where
  palette : w.palette.IsPlain
  entities : ∀ e x, w.entity? e = some x → x.WellFormed
  names : (w.registry.map (·.1)).Nodup
  registered : ∀ name e, (name, e) ∈ w.registry →
    ∃ x, w.entity? e = some x ∧ x.name = name ∧ x.inNamespace = true

/-! ## Entities -/

namespace Entity

variable {x : Entity}

theorem WellFormed.input?_eq_some (hx : x.WellFormed) {i : Input} (hi : i ∈ x.inputs) :
    x.input? i.keyword = some i := by
  unfold input?
  cases hj : x.inputs.find? (·.keyword == i.keyword) with
  | none => exact absurd (beq_self_eq_true i.keyword) (List.find?_eq_none.1 hj i hi)
  | some j =>
    have hkey := List.find?_some hj
    rw [List.inj_on_of_nodup_map hx.keywords (List.mem_of_find?_eq_some hj) hi (beq_iff_eq.1 hkey)]

/-- One input is changed, if there is one of that keyword. -/
theorem WellFormed.updateInput (hx : x.WellFormed) {keyword : String} {f : Input → Input}
    (hkey : ∀ i : Input, (f i).keyword = i.keyword)
    (hf : ∀ i, x.input? keyword = some i → (f i).Suited) : (x.updateInput keyword f).WellFormed where
  keywords := by
    have hkeys : (x.updateInput keyword f).inputs.map (·.keyword) = x.inputs.map (·.keyword) := by
      rw [Entity.updateInput, List.map_map]
      refine List.map_congr_left fun i _ => ?_
      dsimp only [Function.comp_apply]
      split
      · exact hkey i
      · rfl
    rw [hkeys]
    exact hx.keywords
  inputs := by
    intro i hi
    obtain ⟨j, hj, rfl⟩ := List.mem_map.1 hi
    split
    · next hk =>
      refine hf j ?_
      rw [← beq_iff_eq.1 hk]
      exact hx.input?_eq_some hj
    · exact hx.inputs j hj

end Entity

namespace World

variable {w w' : World} {e : EntityId} {name : String}

/-! ## Names -/

theorem mem_registry_of_named? (h : w.named? name = some e) : (name, e) ∈ w.registry := by
  obtain ⟨before, behind, hw, -⟩ := List.lookup_eq_some_iff.1 h
  rw [hw]
  exact List.mem_append_right _ (.head _)

theorem mem_registered : e ∈ w.registered ↔ ∃ name, (name, e) ∈ w.registry := by
  unfold World.registered
  rw [List.mem_map]
  constructor
  · rintro ⟨⟨name, e'⟩, hmem, rfl⟩
    exact ⟨name, hmem⟩
  · rintro ⟨name, hmem⟩
    exact ⟨_, hmem, rfl⟩

theorem not_mem_names (h : w.named? name = none) : name ∉ w.registry.map (·.1) := by
  intro hmem
  obtain ⟨entry, hentry, rfl⟩ := List.mem_map.1 hmem
  have hne := List.lookup_eq_none_iff.1 h entry hentry
  exact bne_iff_ne.1 hne rfl

namespace WellFormed

theorem named?_eq_some (hw : w.WellFormed) : w.named? name = some e ↔ (name, e) ∈ w.registry := by
  refine ⟨mem_registry_of_named?, fun hmem => ?_⟩
  obtain ⟨e', he'⟩ := Option.isSome_iff_exists.1
    (List.lookup_isSome_iff.2 ⟨_, hmem, beq_self_eq_true name⟩)
  have heq := List.inj_on_of_nodup_map hw.names (mem_registry_of_named? he') hmem rfl
  rw [← (Prod.mk.inj heq).2]
  exact he'

/-- An entity is registered under its own name. -/
theorem name_eq (hw : w.WellFormed) (h : (name, e) ∈ w.registry) : w.nameOf e = name := by
  obtain ⟨x, hx, rfl, -⟩ := hw.registered name e h
  rw [nameOf, hx]
  rfl

theorem isRegistered (hw : w.WellFormed) (he : e ∈ w.registered) : w.isRegistered e = true := by
  obtain ⟨name, hmem⟩ := mem_registered.1 he
  rw [World.isRegistered, hw.name_eq hmem, hw.named?_eq_some.2 hmem]
  exact beq_self_eq_true _

theorem hasNamespace (hw : w.WellFormed) (he : e ∈ w.registered) :
    w.hasNamespace (some e) = true := by
  obtain ⟨name, hmem⟩ := mem_registered.1 he
  obtain ⟨x, hx, -, hns⟩ := hw.registered name e hmem
  rw [World.hasNamespace, Option.bind_some, hx, Option.map_some, hns]
  rfl

/-- No entity is registered under two names. -/
theorem nodup_registered (hw : w.WellFormed) : w.registered.Nodup := by
  refine List.Nodup.map_on ?_ (List.Nodup.of_map _ hw.names)
  rintro ⟨name, e⟩ h ⟨name', e'⟩ h' rfl
  rw [← hw.name_eq h, ← hw.name_eq h']

/-- The registry without the name of an entity is the one without the entity. -/
theorem withoutName_eq (hw : w.WellFormed) (he : e ∈ w.registered) :
    w.withoutName (w.nameOf e) = w.registry.filter (·.2 != e) := by
  obtain ⟨name, hmem⟩ := mem_registered.1 he
  rw [withoutName, hw.name_eq hmem]
  refine List.filter_congr ?_
  rintro ⟨name', e'⟩ hmem'
  rw [Bool.eq_iff_iff, bne_iff_ne, bne_iff_ne, not_iff_not]
  constructor
  · rintro rfl
    exact (Prod.mk.inj (List.inj_on_of_nodup_map hw.names hmem' hmem rfl)).2
  · rintro rfl
    rw [← hw.name_eq hmem, ← hw.name_eq hmem']

/-! ## Changes -/

/-- **A world in which only inputs, attributes and custom outputs changed is well formed** if its
inputs are suited. -/
theorem of_changesOnly {inputs : InputId → Prop} {attributesOf outputsOf : EntityId → Prop}
    (hw : w.WellFormed) (h : w.ChangesOnly inputs attributesOf outputsOf w')
    (hsuited : ∀ e x, w'.entity? e = some x → ∀ i ∈ x.inputs, i.Suited) : w'.WellFormed where
  palette := by
    rw [h.palette_eq]
    exact hw.palette
  entities e x' hx' := by
    refine ⟨?_, hsuited e x' hx'⟩
    cases hx : w.entity? e with
    | none =>
      rw [h.entity?_eq_none hx] at hx'
      cases hx'
    | some x =>
      obtain ⟨x'', hx'', hxx'⟩ := h.entity e x hx
      obtain rfl : x'' = x' := Option.some.inj (hx''.symm.trans hx')
      rw [hxx'.keywords_eq]
      exact (hw.entities e x hx).keywords
  names := by
    rw [h.registry_eq]
    exact hw.names
  registered name e hmem := by
    rw [h.registry_eq] at hmem
    obtain ⟨x, hx, hname, hns⟩ := hw.registered name e hmem
    obtain ⟨x', hx', hxx'⟩ := h.entity e x hx
    exact ⟨x', hx', hxx'.name_eq.trans hname, hxx'.inNamespace_eq.trans hns⟩

/-- **An input that is changed leaves the world well formed** if it is still suited. -/
theorem updateInput (hw : w.WellFormed) {id : InputId} {f : Input → Input}
    (hdecl : ∀ i : Input, i.SameDeclaration (f i))
    (hf : ∀ i, w.input? id = some i → (f i).Suited) : (w.updateInput id f).WellFormed := by
  have hchanges : w.ChangesOnly (fun _ => True) (fun _ => False) (fun _ => False)
      (w.updateInput id f) := updateInput_changesOnly trivial hdecl
  refine hw.of_changesOnly hchanges ?_
  intro e x hx
  rw [World.updateInput, entity?_updateEntity] at hx
  split at hx
  · next he =>
    obtain ⟨y, hy, rfl⟩ := Option.map_eq_some_iff.1 hx
    rw [← he] at hy
    refine ((hw.entities _ y hy).updateInput (fun i => (hdecl i).keyword_eq) ?_).inputs
    intro i hi
    refine hf i ?_
    rw [input?, hy]
    exact hi
  · exact (hw.entities e x hx).inputs

end WellFormed

end World

end ModelInputs
