import ModelInputs.Proofs.Registration
import ModelInputs.Proofs.Run.Outputs

/-!
# What definitions hide

Where a name is looked up, the attributes of an entity come before its custom outputs, and these
before all outputs that are declared. An input that is added may be hidden by a definition, but no
definition ever hides another one: whatever is done to a model, the custom outputs of an entity are
its own, and each of them is found under its name.

* `World.TablesApart`: no attribute hides a custom output;
* `World.KeepsTables`: what neither defines anything nor takes a definition away;
* `World.FreeStep`, `World.FreelyReached`: all that can be done to a model, and where it leads;
* **`World.FreeStep.tablesApart`**, **`World.FreelyReached.tablesApart`**: a step, and a run;
* **`World.TablesApart.handle?_custom`**: custom outputs are found under their names.
-/

namespace ModelInputs

open Logged

/-- The custom outputs of an entity are its own, and no attribute has the name of one of them. -/
structure Entity.TablesApart (x : Entity) (e : EntityId) : Prop where
  disjoint : (x.attributes.map (·.1)).Disjoint (x.customOutputs.map (·.1))
  own : ∀ entry ∈ x.customOutputs, entry.2.entity = e

namespace World

variable {w w' w'' : World} {e : EntityId} {name : String}

/-- In no entity an attribute hides a custom output. -/
def TablesApart (w : World) : Prop :=
  ∀ e x, w.entity? e = some x → x.TablesApart e

/-! ## What does not define anything -/

/-- Entities keep their tables, or are new and have none, and attributes keep their entities and
expressions. -/
structure KeepsTables (w w' : World) : Prop where
  tables : ∀ e x', w'.entity? e = some x' → x'.definedNames = [] ∨
    ∃ x, w.entity? e = some x ∧ x'.attributes = x.attributes ∧ x'.customOutputs = x.customOutputs
  attributes : ∀ a d, w.attribute? a = some d → ∃ d', w'.attribute? a = some d' ∧
    d'.entity = d.entity ∧ d'.expression = d.expression

namespace KeepsTables

theorem of_entities_eq (hentities : w'.entities = w.entities)
    (hattributes : w'.attributes = w.attributes) : w.KeepsTables w' where
  tables e x' hx' := by
    rw [entity?, hentities] at hx'
    exact .inr ⟨x', hx', rfl, rfl⟩
  attributes a d hd := by
    rw [attribute?, ← hattributes] at hd
    exact ⟨d, hd, rfl, rfl⟩

theorem refl (w : World) : w.KeepsTables w :=
  of_entities_eq rfl rfl

theorem trans (h : w.KeepsTables w') (h' : w'.KeepsTables w'') : w.KeepsTables w'' where
  tables e x'' hx'' := by
    obtain hnil | ⟨x', hx', hattributes', hcustom'⟩ := h'.tables e x'' hx''
    · exact .inl hnil
    obtain hnil | ⟨x, hx, hattributes, hcustom⟩ := h.tables e x' hx'
    · rw [Entity.definedNames, hattributes', hcustom']
      exact .inl hnil
    · exact .inr ⟨x, hx, hattributes'.trans hattributes, hcustom'.trans hcustom⟩
  attributes a d hd := by
    obtain ⟨d', hd', hentity, hexp⟩ := h.attributes a d hd
    obtain ⟨d'', hd'', hentity', hexp'⟩ := h'.attributes a d' hd'
    exact ⟨d'', hd'', hentity'.trans hentity, hexp'.trans hexp⟩

/-- An entity changes, but not its tables; the registry may change too. -/
theorem updateEntity (w : World) (registry : List (String × EntityId)) (e : EntityId)
    {f : Entity → Entity} (hattributes : ∀ x, (f x).attributes = x.attributes)
    (hcustom : ∀ x, (f x).customOutputs = x.customOutputs) :
    w.KeepsTables (({ w with registry := registry } : World).updateEntity e f) where
  tables y x' hx' := by
    rw [entity?_updateEntity] at hx'
    split at hx'
    · obtain ⟨x, hx, rfl⟩ := Option.map_eq_some_iff.1 hx'
      exact .inr ⟨x, hx, hattributes x, hcustom x⟩
    · exact .inr ⟨x', hx', rfl, rfl⟩
  attributes a d hd := ⟨d, hd, rfl, rfl⟩

theorem updateInput (w : World) (id : InputId) (f : Input → Input) :
    w.KeepsTables (w.updateInput id f) :=
  .updateEntity w w.registry id.entity (fun _ => rfl) fun _ => rfl

/-- An attribute changes, but neither its entity nor its expression. -/
theorem updateAttribute (w : World) (a : AttributeId) {f : Attribute → Attribute}
    (hf : ∀ d, (f d).entity = d.entity ∧ (f d).expression = d.expression) :
    w.KeepsTables (w.updateAttribute a f) where
  tables e x' hx' := .inr ⟨x', hx', rfl, rfl⟩
  attributes b d hd := by
    rw [attribute?, World.updateAttribute, List.getElem?_modify]
    rw [attribute?] at hd
    rw [hd]
    split
    · exact ⟨f d, rfl, hf d⟩
    · exact ⟨d, rfl, rfl, rfl⟩

theorem create {className : String} {loose : Bool}
    (h : w.create? className name loose = .ok (w', e)) : w.KeepsTables w' := by
  have happend : w.KeepsTables { w with entities := w.entities ++ [w.newEntity className name] } := by
    refine ⟨fun y x' hx' => ?_, fun a d hd => ⟨d, hd, rfl, rfl⟩⟩
    rw [entity?_append] at hx'
    split at hx'
    · cases hx'
      exact .inl rfl
    · exact .inr ⟨x', hx', rfl, rfl⟩
  obtain ⟨-, -, ⟨-, rfl⟩ | ⟨-, hregister⟩⟩ := create?_cases h
  · exact happend
  · obtain ⟨-, rfl⟩ := register?_eq_ok hregister
    exact happend.trans (.updateEntity _ _ _ (fun _ => rfl) fun _ => rfl)

theorem addInput {i : Input} (h : w.addInput? e i = .ok w') : w.KeepsTables w' := by
  obtain ⟨-, rfl⟩ := addInput?_eq_ok h
  exact .updateEntity w w.registry e (fun _ => rfl) fun _ => rfl

theorem rename (h : w.rename? e name = .ok w') : w.KeepsTables w' := by
  obtain ⟨-, -, rfl⟩ := rename?_eq_ok h
  exact .updateEntity w _ e (fun _ => rfl) fun _ => rfl

theorem kill (w : World) (e : EntityId) : w.KeepsTables (w.kill e).world :=
  kill_induction (fun _ => of_entities_eq rfl rfl) fun _ _ _ _ _ _ _ hw =>
    hw.trans (.updateInput _ _ _)

theorem setAttribute {r : Result} (h : w.setAttribute? e name r = .ok w') : w.KeepsTables w' := by
  unfold setAttribute? at h
  split at h
  · cases h
    exact .updateAttribute w _ fun _ => ⟨rfl, rfl⟩
  · cases h

/-- **Operations on the registry change no tables.** -/
theorem perform (w : World) (op : RegistryOp) : w.KeepsTables (w.perform op).world := by
  refine perform_induction (.refl w) (fun _ _ _ _ _ h => .create h) (fun e w' h => ?_)
    (fun e => ?_) (.kill w) (fun _ _ _ h => .rename h) op
  · obtain ⟨-, rfl⟩ := register?_eq_ok h
    exact .updateEntity w _ e (fun _ => rfl) fun _ => rfl
  · unfold unregister
    split
    · exact of_entities_eq rfl rfl
    · exact .refl w

end KeepsTables

/-! ## Definitions -/

namespace TablesApart

/-- **What keeps tables keeps them apart.** -/
theorem keep (hw : w.TablesApart) (h : w.KeepsTables w') : w'.TablesApart := by
  intro e x' hx'
  obtain hnil | ⟨x, hx, hattributes, hcustom⟩ := h.tables e x' hx'
  · obtain ⟨hattributes, hcustom⟩ := List.append_eq_nil_iff.1 hnil
    refine ⟨?_, ?_⟩
    · rw [hattributes]
      exact List.disjoint_nil_left _
    · rw [List.map_eq_nil_iff.1 hcustom]
      exact nofun
  · have hapart := hw e x hx
    refine ⟨?_, ?_⟩
    · rw [hattributes, hcustom]
      exact hapart.disjoint
    · rw [hcustom]
      exact hapart.own

section

variable (hw : w.TablesApart) {a : Arguments}

include hw

/-- **An attribute does not take the name of a custom output.** -/
theorem setAttributes {ds : List Attribute} (hread : (w.readAttributes e a).Gives ds) :
    ((w.addAttributes ds).setAttributes e (w.definitionTable ds)).TablesApart := by
  have hkeys := w.keys_definitionTable ds
  intro y x' hx'
  rw [World.setAttributes, entity?_updateEntity] at hx'
  split at hx'
  · next he =>
    subst he
    obtain ⟨x, hx, rfl⟩ := Option.map_eq_some_iff.1 hx'
    have hx : w.entity? e = some x := hx
    refine ⟨?_, (hw e x hx).own⟩
    rw [distinctKeys_eq_self (hkeys.symm ▸ nodup_of_readAttributes hread), hkeys]
    exact disjoint_of_readAttributes hx (hw e x hx).disjoint hread
  · exact hw y x' hx'

/-- **A custom output does not take the name of an attribute.** -/
theorem setCustomOutputs {os : List CustomOutput} (hread : (w.readCustomOutputs e a).Gives os) :
    (w.setCustomOutputs e os).TablesApart := by
  obtain ⟨hnodup, hnames⟩ := names_of_readCustomOutputs hread
  have hkeys : (os.map fun o => (o.name, o)).map (·.1) = os.map (·.name) := List.map_map
  intro y x' hx'
  rw [World.setCustomOutputs, entity?_updateEntity] at hx'
  split at hx'
  · next he =>
    subst he
    obtain ⟨x, hx, rfl⟩ := Option.map_eq_some_iff.1 hx'
    rw [distinctKeys_eq_self (hkeys.symm ▸ hnodup)]
    refine ⟨?_, ?_⟩
    · rw [hkeys]
      exact disjoint_of_readCustomOutputs hx hread
    · intro entry hentry
      obtain ⟨o, ho, rfl⟩ := List.mem_map.1 hentry
      exact (hnames o ho).1
  · exact hw y x' hx'

theorem applyItems (e : EntityId) (log : List Warning) (done : List InputId)
    (items : List Arguments) : (w.applyItems e log done items).world.TablesApart :=
  KeptByKeywords.applyItems ⟨fun _ hw => hw.keep (.updateInput _ _ _),
    fun hds hw => hw.setAttributes hds, fun hos hw => hw.setCustomOutputs hos⟩ hw e log done items

end

end TablesApart

/-! ## Runs -/

/-- One thing that is done to a model, whatever it is: an operation on the registry, a new input,
keywords, which may be refused, or new values of inputs and attributes. -/
inductive FreeStep : World → World → Prop where
  | perform {w : World} {op : RegistryOp} : FreeStep w (w.perform op).world
  | addInput {w w' : World} {e : EntityId} {i : Input} :
    w.addInput? e i = .ok w' → FreeStep w w'
  | apply {w : World} {e : EntityId} {items : List Arguments} :
    FreeStep w (w.applyItems e [] [] items).world
  | reset {w : World} {id : InputId} : FreeStep w (w.updateInput id Input.reset)
  | setAttribute {w w' : World} {e : EntityId} {name : String} {r : Result} :
    w.setAttribute? e name r = .ok w' → FreeStep w w'
  | resetAttributes {w : World} {e : EntityId} : FreeStep w (w.resetAttributes e)

/-- A keyword that is accepted is a step. -/
theorem FreeStep.of_gives {a : Arguments} {id : InputId}
    (h : (w.applyArguments e a).Gives (w', id)) : FreeStep w w' :=
  w.applyItems_of_gives a h ▸ .apply

/-- The world is reached from an empty one of the classes. -/
def FreelyReached (p : Palette) (w : World) : Prop :=
  ∃ settings recordsEdits, Relation.ReflTransGen FreeStep
    { palette := p, settings := settings, recordsEdits := recordsEdits } w

/-- **Every step keeps the tables apart.** -/
theorem FreeStep.tablesApart (h : FreeStep w w') (hw : w.TablesApart) : w'.TablesApart := by
  cases h with
  | perform => exact hw.keep (.perform w _)
  | addInput h => exact hw.keep (.addInput h)
  | apply => exact hw.applyItems _ _ _ _
  | reset => exact hw.keep (.updateInput w _ _)
  | setAttribute h => exact hw.keep (.setAttribute h)
  | resetAttributes =>
    exact resetAttributes_induction hw fun w _ hw =>
      hw.keep (.updateAttribute w _ fun _ => ⟨rfl, rfl⟩)

/-- **In every world that is reached the tables are apart.** -/
theorem FreelyReached.tablesApart {p : Palette} (h : FreelyReached p w) : w.TablesApart := by
  obtain ⟨settings, recordsEdits, h⟩ := h
  induction h with
  | refl => exact nofun
  | tail _ hstep ih => exact hstep.tablesApart ih

/-! ## Names -/

/-- **A custom output of an entity is found under its name**, and belongs to that entity. -/
theorem TablesApart.handle?_custom (hw : w.TablesApart) {x : Entity} (hx : w.entity? e = some x)
    {o : CustomOutput} (ho : x.customOutputs.lookup name = some o) :
    w.handle? e name = some (.custom o) ∧ o.entity = e := by
  obtain ⟨hdisjoint, hown⟩ := hw e x hx
  have hname : name ∈ x.customOutputs.map (·.1) := by
    rw [← lookup_isSome_iff_mem, ho]
    rfl
  have hattribute : x.attributes.lookup name = none := by
    rw [← Option.not_isSome_iff_eq_none, lookup_isSome_iff_mem]
    exact fun hmem => hdisjoint hmem hname
  refine ⟨?_, hown _ (mem_of_lookup_eq_some ho)⟩
  rw [handle?, hx, Option.bind_some, hattribute, ho]
  rfl

end World

end ModelInputs
