import ModelInputs.Proofs.Integrity
import ModelInputs.Proofs.Reading.Entities
import ModelInputs.Proofs.Run.Tables

/-!
# Runs that assign results to attributes

Besides all that is done to a model otherwise, any result may be assigned to an attribute. No input
refers to what an attribute holds, so references stay as they should be. What is defined belongs to
the entity that has it, and the expressions of definitions and of providers are read from texts, so
they add no entities of their own. An entity that has left the registry never comes back.

* `World.AssigningStep`, `World.AssignedReached`: such runs;
* **`World.AssigningStep.integral`**: they keep what inputs hold as it should be;
* `World.OwnDefinitions`, **`World.AssigningStep.ownDefinitions`**: definitions of entities;
* `Input.Plain`, **`World.AssigningStep.plainInputs`**: expressions of providers;
* **`World.AssigningStep.staysOut`**: what is out of the registry stays out.
-/

namespace ModelInputs

open Logged

namespace World

variable {w w' : World} {e : EntityId} {name : String} {a : Arguments}

/-- One thing that is done to a model: a step without results, or a result that is assigned to an
attribute. -/
inductive AssigningStep : World → World → Prop where
  | step {w w' : World} : Step w w' → AssigningStep w w'
  | setAttribute {w w' : World} {e : EntityId} {name : String} {r : Result} :
    w.setAttribute? e name r = .ok w' → AssigningStep w w'

/-- The world is reached from an empty one of the classes, whatever its settings are. -/
def AssignedReached (p : Palette) (w : World) : Prop :=
  ∃ settings recordsEdits, Relation.ReflTransGen AssigningStep
    { palette := p, settings := settings, recordsEdits := recordsEdits } w

theorem Reached.assignedReached {p : Palette} (h : Reached p w) : AssignedReached p w := by
  obtain ⟨settings, recordsEdits, h⟩ := h
  exact ⟨settings, recordsEdits, Relation.ReflTransGen.mono (fun _ _ => AssigningStep.step) _ _ h⟩

theorem setAttribute?_eq_ok {r : Result} (h : w.setAttribute? e name r = .ok w') :
    ∃ a, w' = w.updateAttribute a (Attribute.assign r) := by
  unfold setAttribute? at h
  split at h
  · cases h
    exact ⟨_, rfl⟩
  · cases h

/-! ## References -/

/-- No input holds what an attribute holds. -/
theorem Integral.updateAttribute (hw : w.Integral) (a : AttributeId)
    (f : Attribute → Attribute) : (w.updateAttribute a f).Integral :=
  ⟨⟨hw.wellFormed.palette, hw.wellFormed.entities, hw.wellFormed.names, hw.wellFormed.registered⟩,
    hw.palette, hw.groups, hw.holds⟩

theorem AssigningStep.integral (h : AssigningStep w w') (hw : w.Integral) : w'.Integral := by
  cases h with
  | step h => exact h.integral hw
  | setAttribute h =>
    obtain ⟨a, rfl⟩ := setAttribute?_eq_ok h
    exact hw.updateAttribute a _

/-! ## Definitions -/

/-- The attributes and the custom outputs of an entity are its own, and their expressions add no
entities. -/
structure DefinesOwn (w : World) (e : EntityId) (x : Entity) : Prop where
  attributes : ∀ entry ∈ x.attributes, ∃ d, w.attribute? entry.2 = some d ∧ d.entity = e ∧
    ∀ exp, d.expression = some exp → exp.root.AddsNone
  customOutputs : ∀ entry ∈ x.customOutputs, entry.2.entity = e ∧
    entry.2.expression.root.AddsNone

/-- All definitions are those of the entities that have them. -/
def OwnDefinitions (w : World) : Prop :=
  ∀ e x, w.entity? e = some x → w.DefinesOwn e x

/-- An attribute that is read is one of the entity, with the expression of a text if it has one. -/
theorem own_of_readAttributes {ds : List Attribute} (h : (w.readAttributes e a).Gives ds) :
    ∀ d ∈ ds, d.entity = e ∧ ∀ exp, d.expression = some exp → exp.root.AddsNone := by
  refine forall_mem_of_readGroups (fun found group d hd => ?_) h
  obtain ⟨-, -, rest, -, hread⟩ := readAttribute_gives.1 hd
  obtain ⟨unit, hnumber⟩ | ⟨text, hexpression⟩ := readDefinition_eq rest
  · rw [hnumber] at hread
    obtain ⟨_, -, hread⟩ := hread.of_bind
    obtain ⟨hentity, -, hnone⟩ := numberAttribute_gives hread
    exact ⟨hentity, fun exp hexp => absurd (hnone.symm.trans hexp) nofun⟩
  · rw [hexpression, gives_ofExcept, expressionAttribute_eq_ok] at hread
    obtain ⟨exp, unit, hparse, -, rfl⟩ := hread
    refine ⟨rfl, ?_⟩
    rintro _ ⟨⟩
    exact Expression.addsNone_of_parse? hparse

/-- A custom output that is read is one of the entity, with the expression of a text. -/
theorem own_of_readCustomOutputs {os : List CustomOutput}
    (h : (w.readCustomOutputs e a).Gives os) :
    ∀ o ∈ os, o.entity = e ∧ o.expression.root.AddsNone := by
  refine forall_mem_of_readGroups (fun found group o ho => ?_) h
  obtain ⟨-, -, _, exp, -, hparse, -, rfl⟩ := readCustomOutput_gives.1 ho
  exact ⟨rfl, Expression.addsNone_of_parse? hparse⟩

namespace OwnDefinitions

/-- **What keeps tables keeps definitions with their entities.** -/
theorem keep (hw : w.OwnDefinitions) (h : w.KeepsTables w') : w'.OwnDefinitions := by
  intro e x' hx'
  obtain hnil | ⟨x, hx, hattributes, hcustom⟩ := h.tables e x' hx'
  · obtain ⟨hattributes, hcustom⟩ := List.append_eq_nil_iff.1 hnil
    refine ⟨?_, ?_⟩
    · rw [List.map_eq_nil_iff.1 hattributes]
      exact nofun
    · rw [List.map_eq_nil_iff.1 hcustom]
      exact nofun
  · obtain ⟨hown, hownCustom⟩ := hw e x hx
    refine ⟨fun entry hentry => ?_, hcustom ▸ hownCustom⟩
    obtain ⟨d, hd, hentity, hexp⟩ := hown entry (hattributes ▸ hentry)
    obtain ⟨d', hd', hentity', hexp'⟩ := h.attributes entry.2 d hd
    exact ⟨d', hd', hentity'.trans hentity, hexp' ▸ hexp⟩

theorem setAttributes (hw : w.OwnDefinitions) {ds : List Attribute}
    (hread : (w.readAttributes e a).Gives ds) :
    ((w.addAttributes ds).setAttributes e (w.definitionTable ds)).OwnDefinitions := by
  have hadd : (w.addAttributes ds).OwnDefinitions := by
    refine hw.keep ⟨fun y x hx => .inr ⟨x, hx, rfl, rfl⟩, fun b d hd => ⟨d, ?_, rfl, rfl⟩⟩
    obtain ⟨hlt, -⟩ := List.getElem?_eq_some_iff.1 hd
    exact (List.getElem?_append_left hlt).trans hd
  intro y x' hx'
  rw [World.setAttributes, entity?_updateEntity] at hx'
  split at hx'
  · next he =>
    subst he
    obtain ⟨x, hx, rfl⟩ := Option.map_eq_some_iff.1 hx'
    refine ⟨fun entry hentry => ?_, (hadd e x hx).customOutputs⟩
    rw [distinctKeys_eq_self ((w.keys_definitionTable ds).symm ▸ nodup_of_readAttributes hread)]
      at hentry
    obtain ⟨d, hd, hfound, -⟩ := found_of_mem_definitionTable hentry
    exact ⟨d, hfound, own_of_readAttributes hread d hd⟩
  · exact ⟨(hadd y x' hx').attributes, (hadd y x' hx').customOutputs⟩

theorem setCustomOutputs (hw : w.OwnDefinitions) {os : List CustomOutput}
    (hread : (w.readCustomOutputs e a).Gives os) : (w.setCustomOutputs e os).OwnDefinitions := by
  have hkeys : (os.map fun o => (o.name, o)).map (·.1) = os.map (·.name) := List.map_map
  have hnodup := (names_of_readCustomOutputs hread).1
  intro y x' hx'
  rw [World.setCustomOutputs, entity?_updateEntity] at hx'
  split at hx'
  · next he =>
    subst he
    obtain ⟨x, hx, rfl⟩ := Option.map_eq_some_iff.1 hx'
    refine ⟨(hw e x hx).attributes, fun entry hentry => ?_⟩
    rw [distinctKeys_eq_self (hkeys.symm ▸ hnodup)] at hentry
    obtain ⟨o, ho, rfl⟩ := List.mem_map.1 hentry
    exact own_of_readCustomOutputs hread o ho
  · exact ⟨(hw y x' hx').attributes, (hw y x' hx').customOutputs⟩

end OwnDefinitions

/-- **Every step leaves definitions with their entities.** -/
theorem AssigningStep.ownDefinitions (h : AssigningStep w w') (hw : w.OwnDefinitions) :
    w'.OwnDefinitions := by
  cases h with
  | step h =>
    cases h with
    | create h => exact hw.keep (.create h)
    | addInput _ h => exact hw.keep (.addInput h)
    | apply =>
      refine KeptByKeywords.applyItems ⟨fun _ hw => hw.keep (.updateInput _ _ _), ?_, ?_⟩ hw _ _ _ _
      · exact fun hread hw => hw.setAttributes hread
      · exact fun hread hw => hw.setCustomOutputs hread
    | kill _ => exact hw.keep (.kill w _)
    | rename _ h => exact hw.keep (.rename h)
  | setAttribute h => exact hw.keep (.setAttribute h)

end World

/-! ## Providers -/

/-- The input can be searched, and the expression that it is set to, if any, adds no entities. -/
structure Input.Plain (i : Input) : Prop where
  searchable : i.Searchable
  addsNone : ∀ exp this type, i.value = .provider (.expression exp this type) → exp.root.AddsNone

namespace Input

variable {i i' : Input} {e : EntityId}

theorem unsetValue_ne_provider (kind : InputKind) (p : Provider) :
    unsetValue kind ≠ .provider p := by
  cases kind with
  | _ => exact nofun

theorem plain_reset (i : Input) : i.reset.Plain :=
  ⟨i.searchable_reset, fun _ _ _ h => absurd h (unsetValue_ne_provider _ _)⟩

theorem Plain.loses (h : i.Plain) (hl : i.Loses e i') : i'.Plain := by
  refine ⟨h.searchable.loses hl, ?_⟩
  cases hl with
  | kept => exact h.addsNone
  | givenUp => exact i.plain_reset.addsNone
  | stripped =>
    -- only lists and maps lose an entity, and they are no providers
    intro exp this type hvalue
    rw [strip] at hvalue
    cases hv : i.value with
    | provider _ =>
      rw [hv] at hvalue
      exact h.addsNone exp this type (hv.trans hvalue)
    | _ =>
      rw [hv] at hvalue
      cases hvalue

end Input

namespace World

variable {w w' : World} {e : EntityId} {a : Arguments}

/-- A provider that is read has the expression of a text. -/
theorem addsNone_of_readArguments {this this' : Option EntityId} {i : Input} {exp : Expression}
    {type : TypeRef}
    (h : (w.readArguments this i a).Gives (.provider (.expression exp this' type))) :
    exp.root.AddsNone := by
  have hfits := readArguments_fits h
  obtain ⟨type', invalid, hk⟩ : ∃ type' invalid, i.kind = .provider type' invalid := by
    generalize i.kind = kind at hfits
    cases hfits
    exact ⟨_, _, rfl⟩
  unfold readArguments at h
  rw [hk] at h
  obtain ⟨token, -, h⟩ := h.of_bind
  have h := h.of_ofExcept
  unfold readProvider at h
  split at h
  · split at h
    · cases h
    · cases h
  · obtain ⟨exp', hexp, h⟩ := bind_eq_ok.1 h
    cases h
    exact Expression.addsNone_of_parse? (readExpression_eq_ok.1 hexp).1

theorem plain_assigned {i : Input} (hi : i.Plain) {assignment : Assignment}
    (h : (w.readKind (some e) i a).Gives assignment) : (w.assigned assignment i).Plain := by
  have hfits := readKind_fits (fun hk => hi.searchable.fits (.inl hk)) h
  refine ⟨searchable_assigned hi.searchable hfits, ?_⟩
  cases assigns_of_gives h with
  | value hread =>
    rintro exp this type rfl
    exact addsNone_of_readArguments hread
  | keyLists | attributes | customOutputs => exact nofun
  | nothing => exact hi.addsNone

/-- **Every step leaves providers without entities of their own.** -/
theorem AssigningStep.plainInputs (h : AssigningStep w w') (hp : w.palette.IsPlain)
    (hw : w.InputsAll Input.Plain) : w'.InputsAll Input.Plain := by
  have hnew {i : Input} (hi : i.IsNew) : i.Plain := by
    rw [← hi.reset_eq]
    exact i.plain_reset
  cases h with
  | step h =>
    cases h with
    | create h => exact hw.create (fun i hi => hnew (hp.inputs _ i hi)) h
    | addInput hi h => exact hw.addInput (hnew hi) h
    | apply =>
      refine applyItems_induction hw fun _ _ _ _ _ hw h => ?_
      refine hw.applyArguments (fun i _ hi hread => plain_assigned (hw _ i hi) hread) ?_ h
      exact fun i _ _ hi => ⟨⟨hi.searchable.fits, hi.searchable.keyless⟩, hi.addsNone⟩
    | kill _ => exact (InputsAll.kill (fun _ hi => hi.searchable) (fun _ _ hi => hi.loses) hw).2.1
    | rename _ h => exact fun id i hi => hw id i ((input?_rename h id).symm.trans hi)
  | setAttribute h =>
    obtain ⟨_, rfl⟩ := setAttribute?_eq_ok h
    exact hw

/-! ## Entities out of the registry -/

theorem registered_applyItems (e : EntityId) (log : List Warning) (done : List InputId)
    (items : List Arguments) : (w.applyItems e log done items).world.registered = w.registered :=
  have hkept : KeptByKeywords fun w' => w'.registered = w.registered :=
    ⟨fun _ h => h, fun _ h => h, fun _ h => h⟩
  hkept.applyItems rfl e log done items

/-- An entity that exists is not registered. -/
def IsOut (w : World) (e : EntityId) : Prop :=
  (∃ x, w.entity? e = some x) ∧ e ∉ w.registered

/-- A killed entity is out of the registry. -/
theorem isOut_kill (hw : w.WellFormed) (he : e ∈ w.registered) : (w.kill e).world.IsOut e := by
  obtain ⟨-, changed, -, hkilled⟩ := hw.kill he
  obtain ⟨x, hx⟩ := hw.entity_of_registered he
  obtain ⟨x', hx', -⟩ := (Grows.kill w e).className_eq e x hx
  exact ⟨⟨x', hx'⟩, fun hmem => (hkilled.mem_registered.1 hmem).1 rfl⟩

/-- **An entity that is out of the registry stays out.** -/
theorem AssigningStep.staysOut (h : AssigningStep w w') (hw : w.WellFormed) (he : w.IsOut e) :
    w'.IsOut e := by
  obtain ⟨⟨x, hx⟩, hout⟩ := he
  cases h with
  | step h =>
    obtain ⟨x', hx', -⟩ := h.grows.className_eq e x hx
    refine ⟨⟨x', hx'⟩, fun hmem => hout ?_⟩
    cases h with
    | create h =>
      -- the new entity did not exist before
      obtain rfl | hold := (mem_registered_create h).2 hmem
      · obtain ⟨rfl, -⟩ := create?_eq_ok h
        exact absurd (List.getElem?_eq_some_iff.1 hx).1 (Nat.lt_irrefl _)
      · exact hold
    | addInput _ h =>
      rw [registered, registry_addInput h] at hmem
      exact hmem
    | apply =>
      rw [registered_applyItems] at hmem
      exact hmem
    | kill he =>
      obtain ⟨-, changed, -, hkilled⟩ := hw.kill he
      exact (hkilled.mem_registered.1 hmem).2
    | rename he h => exact (hw.mem_registered_rename he h).1 hmem
  | setAttribute h =>
    obtain ⟨_, rfl⟩ := setAttribute?_eq_ok h
    exact ⟨⟨x, hx⟩, hout⟩

/-! ## Runs -/

/-- What holds at any time of such a run. -/
structure Assigned (w : World) : Prop where
  integral : w.Integral
  ownDefinitions : w.OwnDefinitions
  plainInputs : w.InputsAll Input.Plain

theorem AssigningStep.assigned (h : AssigningStep w w') (hw : w.Assigned) : w'.Assigned :=
  ⟨h.integral hw.integral, h.ownDefinitions hw.ownDefinitions,
    h.plainInputs hw.integral.wellFormed.palette hw.plainInputs⟩

/-- **In every world that is reached**, references, definitions and providers are as they should
be. -/
theorem AssignedReached.assigned {p : Palette} (hp : p.IsPlain) (hg : p.HasGroups)
    (h : AssignedReached p w) : w.Assigned := by
  obtain ⟨settings, recordsEdits, h⟩ := h
  induction h with
  | refl =>
    have hreached : Reached p
        { palette := p, settings := settings, recordsEdits := recordsEdits } :=
      ⟨settings, recordsEdits, .refl⟩
    exact ⟨hreached.integral hp hg, nofun, fun _ _ hi => nomatch hi⟩
  | tail _ hstep ih => exact hstep.assigned ih

/-- What a run starts from and what is out of the registry then stays so. -/
theorem Assigned.of_run (h : Relation.ReflTransGen AssigningStep w w') (hw : w.Assigned)
    (he : w.IsOut e) : w'.Assigned ∧ w'.IsOut e := by
  induction h with
  | refl => exact ⟨hw, he⟩
  | tail _ hstep ih => exact ⟨hstep.assigned ih.1, hstep.staysOut ih.1.integral.wellFormed ih.2⟩

end World

end ModelInputs
