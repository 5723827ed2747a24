import ModelInputs.Proofs.Relative.Loosening
import ModelInputs.Proofs.Repeat.Definitions
import ModelInputs.Proofs.Repeat.Settled
import ModelInputs.Proofs.Value.Within

/-!
# Where outputs are defined

The user of an entity defines attributes and custom outputs, in two tables that replace each other's
old entries only as a whole. A definition is checked against what the class and the inputs of the
entity declare, and against the other table as it is at that time. So whatever is applied, accepted
or refused, no name is defined twice, and none is both defined and declared.

* `Entity.definedNames`: the names that the user of an entity has defined;
* `World.OutputsApart`: no name is defined twice or also declared;
* `World.KeepsDefinitions`: the tables stay, and no defined name gets declared;
* `World.KeptByKeywords`: what keywords keep, as long as definitions do;
* `World.OrderlyStep`: one thing that is done to a model, where no input takes a defined name;
* **`World.OrderlyStep.outputsApart`**, **`World.OrderlyReached.outputsApart`**: a step, and a run.
-/

namespace ModelInputs

open Logged

/-- The names of the attributes and of the custom outputs of an entity. -/
def Entity.definedNames (x : Entity) : List String :=
  x.attributes.map (·.1) ++ x.customOutputs.map (·.1)

namespace World

variable {w w' : World} {e : EntityId} {a : Arguments} {name : String}

/-! ## Declared outputs -/

theorem isDeclaredOutput_eq_of_entity? {x : Entity} (hx : w.entity? e = some x) (name : String) :
    w.isDeclaredOutput e name =
      ((w.palette.output? x.className name).isSome || (inputOutput? x name).isSome) := by
  rw [isDeclaredOutput, outputSpec?, classOf, hx]
  rfl

theorem undeclared_of_checkNewName {seen : List String}
    (h : w.checkNewName e name seen = .ok ()) : w.isDeclaredOutput e name = false := by
  unfold checkNewName at h
  split at h
  · cases h
  split at h
  · cases h
  split at h
  · cases h
  next hdeclared => exact Bool.eq_false_iff.2 hdeclared

/-- An entity that is found as it was declares what it declared. -/
theorem isDeclaredOutput_congr (hentity : w'.entity? e = w.entity? e)
    (hpalette : w'.palette = w.palette) (name : String) :
    w'.isDeclaredOutput e name = w.isDeclaredOutput e name := by
  rw [isDeclaredOutput, isDeclaredOutput, outputSpec?, outputSpec?, classOf, classOf, hpalette,
    hentity]

/-! ## Outputs apart from each other -/

/-- What holds of the tables of an entity: no name is defined twice or also declared, and the
entries are found under their own names. -/
structure DefinesApart (w : World) (e : EntityId) (x : Entity) : Prop where
  keywords : (x.inputs.map (·.keyword)).Nodup
  names : x.definedNames.Nodup
  undeclared : ∀ name ∈ x.definedNames, w.isDeclaredOutput e name = false
  attributes : ∀ entry ∈ x.attributes, ∃ d, w.attribute? entry.2 = some d ∧ d.name = entry.1
  customOutputs : ∀ entry ∈ x.customOutputs, entry.2.name = entry.1 ∧ entry.2.entity = e

/-- No entity has a name that is defined twice or also declared. -/
def OutputsApart (w : World) : Prop :=
  ∀ e x, w.entity? e = some x → w.DefinesApart e x

/-- Entities have the tables that they had, or are new and have none, and no name that is defined
gets declared. -/
structure KeepsDefinitions (w w' : World) : Prop where
  entity : ∀ e x', w'.entity? e = some x' →
    (x'.definedNames = [] ∧ (x'.inputs.map (·.keyword)).Nodup) ∨
    ∃ x, w.entity? e = some x ∧ x'.attributes = x.attributes ∧
      x'.customOutputs = x.customOutputs ∧
      ((x.inputs.map (·.keyword)).Nodup → (x'.inputs.map (·.keyword)).Nodup)
  declared : ∀ e x name, w.entity? e = some x → name ∈ x.definedNames →
    w'.isDeclaredOutput e name = true → w.isDeclaredOutput e name = true
  found : ∀ a d, w.attribute? a = some d → ∃ d', w'.attribute? a = some d' ∧ d'.name = d.name

theorem DefinesApart.of_definedNames_eq_nil {x : Entity} (h : x.definedNames = [])
    (hkeywords : (x.inputs.map (·.keyword)).Nodup) : w.DefinesApart e x := by
  obtain ⟨hattributes, hcustom⟩ := List.append_eq_nil_iff.1 h
  have hnames (name : String) : name ∉ x.definedNames := by
    rw [h]
    exact List.not_mem_nil
  refine ⟨hkeywords, h ▸ List.nodup_nil, fun name hname => absurd hname (hnames name), ?_, ?_⟩
  · rw [List.map_eq_nil_iff.1 hattributes]
    exact nofun
  · rw [List.map_eq_nil_iff.1 hcustom]
    exact nofun

/-- **What keeps definitions keeps outputs apart.** -/
theorem OutputsApart.keep (hw : w.OutputsApart) (h : w.KeepsDefinitions w') :
    w'.OutputsApart := by
  intro e x' hx'
  obtain ⟨hnil, hkeywords⟩ | ⟨x, hx, hattributes, hcustom, hkeywords⟩ := h.entity e x' hx'
  · exact .of_definedNames_eq_nil hnil hkeywords
  · have hapart := hw e x hx
    have hnames : x'.definedNames = x.definedNames := by
      rw [Entity.definedNames, Entity.definedNames, hattributes, hcustom]
    refine ⟨hkeywords hapart.keywords, hnames ▸ hapart.names, ?_, ?_, ?_⟩
    · intro name hname
      rw [hnames] at hname
      rw [Bool.eq_false_iff]
      intro hdeclared
      have hdeclared := h.declared e x name hx hname hdeclared
      rw [hapart.undeclared name hname] at hdeclared
      cases hdeclared
    · rw [hattributes]
      intro entry hentry
      obtain ⟨d, hd, hdname⟩ := hapart.attributes entry hentry
      obtain ⟨d', hd', hname⟩ := h.found entry.2 d hd
      exact ⟨d', hd', hname.trans hdname⟩
    · rw [hcustom]
      exact hapart.customOutputs

/-! ## What keeps definitions -/

namespace KeepsDefinitions

/-- The entities and attributes are as they were. -/
theorem of_entities_eq (hpalette : w'.palette = w.palette) (hentities : w'.entities = w.entities)
    (hattribute : ∀ a d, w.attribute? a = some d →
      ∃ d', w'.attribute? a = some d' ∧ d'.name = d.name) : w.KeepsDefinitions w' := by
  have hentity (e : EntityId) : w'.entity? e = w.entity? e := by
    rw [entity?, entity?, hentities]
  refine ⟨fun e x' hx' => .inr ⟨x', (hentity e).symm.trans hx', rfl, rfl, id⟩, ?_, hattribute⟩
  intro e x name _ _ hdeclared
  rwa [isDeclaredOutput_congr (hentity e) hpalette] at hdeclared

/-- A change of inputs alone. -/
theorem of_changesOnly {inputs : InputId → Prop}
    (h : w.ChangesOnly inputs (fun _ => False) (fun _ => False) w') : w.KeepsDefinitions w' where
  entity e x' hx' := by
    right
    cases hx : w.entity? e with
    | none =>
      rw [h.entity?_eq_none hx] at hx'
      cases hx'
    | some x =>
      obtain ⟨x'', hx'', hxx'⟩ := h.entity e x hx
      cases hx'.symm.trans hx''
      refine ⟨x, rfl, hxx'.attributes_eq id, hxx'.customOutputs_eq id, fun hkeywords => ?_⟩
      rwa [hxx'.keywords_eq]
  declared e x name _ _ hdeclared := by
    rwa [h.isDeclaredOutput_eq] at hdeclared
  found a d hd := ⟨d, (h.attribute?_eq (fun _ => id) a).trans hd, rfl⟩

/-- An entity changes, but neither its tables nor what it declares; the registry may change too. -/
theorem updateEntity (w : World) (registry : List (String × EntityId)) (e : EntityId)
    {f : Entity → Entity} (hclass : ∀ x, (f x).className = x.className)
    (hinputs : ∀ x, (f x).inputs = x.inputs) (hattributes : ∀ x, (f x).attributes = x.attributes)
    (hcustom : ∀ x, (f x).customOutputs = x.customOutputs) :
    w.KeepsDefinitions (({ w with registry := registry } : World).updateEntity e f) := by
  have hentity (y : EntityId) :
      (({ w with registry := registry } : World).updateEntity e f).entity? y =
        if e = y then (w.entity? y).map f else w.entity? y :=
    entity?_updateEntity _ e y f
  refine ⟨fun y x' hx' => .inr ?_, fun y x name hx _ hdeclared => ?_, fun a d hd => ⟨d, hd, rfl⟩⟩
  · rw [hentity] at hx'
    split at hx'
    · obtain ⟨x, hx, rfl⟩ := Option.map_eq_some_iff.1 hx'
      exact ⟨x, hx, hattributes x, hcustom x, fun h => by rwa [hinputs]⟩
    · exact ⟨x', hx', rfl, rfl, id⟩
  · have hx' := hentity y
    rw [hx] at hx'
    split at hx'
    · rw [isDeclaredOutput_eq_of_entity? hx', hclass, inputOutput?, Entity.input?, hinputs]
        at hdeclared
      rw [isDeclaredOutput_eq_of_entity? hx, inputOutput?, Entity.input?]
      exact hdeclared
    · rwa [isDeclaredOutput_congr (hx'.trans hx.symm) rfl] at hdeclared

end KeepsDefinitions

/-! ## Definitions -/

/-- **Attributes are defined under names that are no other outputs.** -/
theorem names_of_readAttributes {ds : List Attribute} (h : (w.readAttributes e a).Gives ds) :
    ∀ d ∈ ds, w.isDeclaredOutput e d.name = false ∧
      (w.hasOutput e d.name = true → w.hasAttribute e d.name = true) := by
  refine forall_mem_of_readGroups (fun found group d hd => ?_) h
  obtain ⟨-, hcheck, rest, -, hread⟩ := readAttribute_gives.1 hd
  rw [name_of_readDefinition hread]
  obtain ⟨_, hnew, hold⟩ := bind_eq_ok.1 hcheck
  refine ⟨undeclared_of_checkNewName hnew, fun hhas => ?_⟩
  cases hattribute : w.hasAttribute e (group.args.headD "") with
  | true => rfl
  | false =>
    rw [hhas, hattribute] at hold
    cases hold

/-- **Custom outputs are defined under names that are no other outputs**, each different from the
others. -/
theorem names_of_readCustomOutputs {os : List CustomOutput}
    (h : (w.readCustomOutputs e a).Gives os) :
    (os.map (·.name)).Nodup ∧ ∀ o ∈ os, o.entity = e ∧ w.isDeclaredOutput e o.name = false ∧
      w.hasAttribute e o.name = false := by
  have hcheck {found : List CustomOutput} {group : Arguments} {o : CustomOutput}
      (ho : (w.readCustomOutput e found group).Gives o) :
      o.entity = e ∧ w.checkCustomName e o.name (found.map (·.name)) = .ok () := by
    obtain ⟨-, hcheck, _, _, -, -, -, rfl⟩ := readCustomOutput_gives.1 ho
    exact ⟨rfl, hcheck⟩
  constructor
  · refine nodup_of_readGroups (·.name) (fun found group o ho => ?_) h
    obtain ⟨_, hnew, -⟩ := bind_eq_ok.1 (hcheck ho).2
    exact not_mem_of_checkNewName hnew
  · refine forall_mem_of_readGroups (fun found group o ho => ?_) h
    obtain ⟨hentity, hname⟩ := hcheck ho
    obtain ⟨_, hnew, hattribute⟩ := bind_eq_ok.1 hname
    refine ⟨hentity, undeclared_of_checkNewName hnew, ?_⟩
    rw [Bool.eq_false_iff]
    intro hhas
    rw [hhas] at hattribute
    cases hattribute

/-! ## Tables -/

theorem mem_of_lookup_eq_some {α : Type} {entries : List (String × α)} {x : α}
    (h : entries.lookup name = some x) : (name, x) ∈ entries := by
  obtain ⟨before, behind, rfl, -⟩ := List.lookup_eq_some_iff.1 h
  exact List.mem_append_right _ (.head _)

theorem lookup_isSome_iff_mem {α : Type} {entries : List (String × α)} {name : String} :
    (entries.lookup name).isSome = true ↔ name ∈ entries.map (·.1) := by
  rw [List.lookup_isSome_iff, List.mem_map]
  constructor
  · rintro ⟨entry, hentry, hname⟩
    exact ⟨entry, hentry, (beq_iff_eq.1 hname).symm⟩
  · rintro ⟨entry, hentry, rfl⟩
    exact ⟨entry, hentry, beq_self_eq_true _⟩

theorem hasAttribute_iff {x : Entity} (hx : w.entity? e = some x) :
    w.hasAttribute e name = true ↔ name ∈ x.attributes.map (·.1) := by
  rw [hasAttribute, hx, Option.bind_some, lookup_isSome_iff_mem]

theorem hasCustomOutput_iff {x : Entity} (hx : w.entity? e = some x) :
    w.hasCustomOutput e name = true ↔ name ∈ x.customOutputs.map (·.1) := by
  rw [hasCustomOutput, hx, Option.bind_some, lookup_isSome_iff_mem]

/-- No attribute that is defined takes the name of a custom output, if none has had it before. -/
theorem disjoint_of_readAttributes {x : Entity} (hx : w.entity? e = some x)
    (hdisjoint : (x.attributes.map (·.1)).Disjoint (x.customOutputs.map (·.1)))
    {ds : List Attribute} (hread : (w.readAttributes e a).Gives ds) :
    (ds.map (·.name)).Disjoint (x.customOutputs.map (·.1)) := by
  intro name hname hother
  obtain ⟨d, hd, rfl⟩ := List.mem_map.1 hname
  -- a custom output would be an output of that name that is no attribute
  have hhas : w.hasOutput e d.name = true := by
    rw [hasOutput, (hasCustomOutput_iff hx).2 hother, Bool.or_true, Bool.true_or]
  have hattribute := (names_of_readAttributes hread d hd).2 hhas
  exact hdisjoint ((hasAttribute_iff hx).1 hattribute) hother

/-- No custom output that is defined takes the name of an attribute. -/
theorem disjoint_of_readCustomOutputs {x : Entity} (hx : w.entity? e = some x)
    {os : List CustomOutput} (hread : (w.readCustomOutputs e a).Gives os) :
    (x.attributes.map (·.1)).Disjoint (os.map (·.name)) := by
  intro name hattribute hname
  obtain ⟨o, ho, rfl⟩ := List.mem_map.1 hname
  have hno := ((names_of_readCustomOutputs hread).2 o ho).2.2
  rw [(hasAttribute_iff hx).2 hattribute] at hno
  cases hno

/-- The entries of a table of definitions are found under their own names. -/
theorem found_of_mem_definitionTable {ds : List Attribute} {entry : String × AttributeId}
    (h : entry ∈ w.definitionTable ds) :
    ∃ d ∈ ds, (w.addAttributes ds).attribute? entry.2 = some d ∧ d.name = entry.1 := by
  obtain ⟨k, hk⟩ := List.mem_iff_getElem?.1 h
  rw [definitionTable, newAttributeIds, List.getElem?_zip_eq_some, List.getElem?_map,
    List.getElem?_map] at hk
  obtain ⟨hname, hid⟩ := hk
  obtain ⟨d, hd, hname⟩ := Option.map_eq_some_iff.1 hname
  obtain ⟨k', hk', hid⟩ := Option.map_eq_some_iff.1 hid
  obtain ⟨_, hk'⟩ := List.getElem?_eq_some_iff.1 hk'
  rw [List.getElem_range] at hk'
  subst hk'
  refine ⟨d, List.mem_of_getElem? hd, ?_, hname⟩
  rw [← hid, attribute?_addAttributes]
  exact hd

/-- **The attributes that are defined are the table of their entity.** -/
theorem entity?_defineAttributes {x : Entity} (hx : w.entity? e = some x) {ds : List Attribute}
    (hds : (w.readAttributes e a).Gives ds) :
    ((w.addAttributes ds).setAttributes e (w.definitionTable ds)).entity? e =
      some { x with attributes := w.definitionTable ds } := by
  have hkeys := w.keys_definitionTable ds
  rw [World.setAttributes, entity?_updateEntity, if_pos rfl,
    distinctKeys_eq_self (hkeys.symm ▸ nodup_of_readAttributes hds)]
  exact congrArg (Option.map _) hx

/-- **The custom outputs that are defined are the table of their entity.** -/
theorem entity?_defineCustomOutputs {x : Entity} (hx : w.entity? e = some x)
    {os : List CustomOutput} (hos : (w.readCustomOutputs e a).Gives os) :
    (w.setCustomOutputs e os).entity? e =
      some { x with customOutputs := os.map fun o => (o.name, o) } := by
  have hkeys : (os.map fun o => (o.name, o)).map (·.1) = os.map (·.name) := List.map_map
  rw [World.setCustomOutputs, entity?_updateEntity, if_pos rfl,
    distinctKeys_eq_self (hkeys.symm ▸ (names_of_readCustomOutputs hos).1)]
  exact congrArg (Option.map _) hx

/-! ## Steps that define or set -/

/-- Every change of an input keeps the property, and so does every definition that is read. -/
structure KeptByKeywords (P : World → Prop) : Prop where
  input : ∀ {w : World} {id : InputId} {f : Input → Input}, (∀ i : Input, i.SameDeclaration (f i)) →
    P w → P (w.updateInput id f)
  attributes : ∀ {w : World} {e : EntityId} {a : Arguments} {ds : List Attribute},
    (w.readAttributes e a).Gives ds → P w →
    P ((w.addAttributes ds).setAttributes e (w.definitionTable ds))
  customOutputs : ∀ {w : World} {e : EntityId} {a : Arguments} {os : List CustomOutput},
    (w.readCustomOutputs e a).Gives os → P w → P (w.setCustomOutputs e os)

namespace KeptByKeywords

variable {P : World → Prop} (hP : KeptByKeywords P)

include hP

/-- An assignment that arguments make is a change of an input, perhaps behind a definition. -/
theorem store (hw : P w) {i : Input} {id : InputId} {assignment : Assignment}
    (hread : (w.readKind (some e) i a).Gives assignment) : P (w.store id assignment) := by
  have hsuits := readKind_gives hread
  cases assignment with
  | value v => exact hP.input (Input.assign_sameDeclaration v) hw
  | keyLists lists =>
    exact hP.input (Input.assignKeyLists_sameDeclaration lists.toValue lists.keyless) hw
  | attributes e' ds =>
    generalize hk : i.kind = kind at hsuits
    cases hsuits
    obtain ⟨ds', hds, heq⟩ := (gives_readKind_attributes hk).1 hread
    cases heq
    exact hP.input (Input.assign_sameDeclaration _) (hP.attributes hds hw)
  | customOutputs e' os =>
    generalize hk : i.kind = kind at hsuits
    cases hsuits
    obtain ⟨os', hos, heq⟩ := (gives_readKind_customOutputs hk).1 hread
    cases heq
    exact hP.input (Input.assign_sameDeclaration _) (hP.customOutputs hos hw)
  | nothing => exact hw

/-- **Keywords keep what changes of inputs and definitions keep**, whether or not one of them is
refused. -/
theorem applyItems (hw : P w) (e : EntityId) (log : List Warning) (done : List InputId)
    (items : List Arguments) : P (w.applyItems e log done items).world := by
  refine applyItems_induction hw fun w a w' id _ hw h => ?_
  obtain ⟨-, -, changed, hparse, rfl⟩ := applyArguments_eq_of_gives h
  have hchanged : P changed := by
    obtain ⟨-, rfl⟩ | ⟨i, assignment, -, hread, rfl⟩ := parseInput_gives hparse
    · exact hw
    · exact hP.store hw hread
  exact hP.input (w.markReceiver_sameDeclaration e a) hchanged

end KeptByKeywords

theorem resetAttributes_induction {P : World → Prop} (hw : P w)
    (hreset : ∀ w id, P w → P (w.updateAttribute id Attribute.reset)) :
    P (w.resetAttributes e) := by
  unfold resetAttributes
  split
  · next x hx =>
    clear hx
    generalize x.attributes = entries
    induction entries generalizing w with
    | nil => exact hw
    | cons entry entries ih => exact ih (hreset w entry.2 hw)
  · exact hw

namespace OutputsApart

variable (hw : w.OutputsApart)

include hw

/-- What holds of the tables of an entity still holds of them in a world in which others change. -/
theorem definesApart_of_changesOnly {inputs : InputId → Prop}
    {attributesOf outputsOf : EntityId → Prop}
    (h : w.ChangesOnly inputs attributesOf outputsOf w') {x : Entity} (hx : w.entity? e = some x) :
    w'.DefinesApart e x := by
  have hapart := hw e x hx
  refine ⟨hapart.keywords, hapart.names, fun name hname => ?_, fun entry hentry => ?_,
    hapart.customOutputs⟩
  · rw [h.isDeclaredOutput_eq]
    exact hapart.undeclared name hname
  · obtain ⟨d, hd, hname⟩ := hapart.attributes entry hentry
    obtain ⟨hlt, hd⟩ := List.getElem?_eq_some_iff.1 hd
    refine ⟨d, List.getElem?_eq_some_iff.2 ⟨?_, ?_⟩, hname⟩
    · exact Nat.lt_of_lt_of_le hlt h.attributes_prefix.length_le
    · rw [← hd]
      exact (h.attributes_prefix.getElem hlt).symm

/-- **Attributes that are defined anew stay apart** from all other outputs of the entity. -/
theorem setAttributes {ds : List Attribute} (hread : (w.readAttributes e a).Gives ds) :
    ((w.addAttributes ds).setAttributes e (w.definitionTable ds)).OutputsApart := by
  have hchanges : w.ChangesOnly (fun _ => False) (fun _ => True) (fun _ => False)
      ((w.addAttributes ds).setAttributes e (w.definitionTable ds)) :=
    (addAttributes_changesOnly (e := e) trivial ds).trans (setAttributes_changesOnly trivial _)
  have hnodup := nodup_of_readAttributes hread
  have hkeys := w.keys_definitionTable ds
  intro y x' hx'
  rw [World.setAttributes, entity?_updateEntity] at hx'
  split at hx'
  · next he =>
    subst he
    obtain ⟨x, hx, rfl⟩ := Option.map_eq_some_iff.1 hx'
    have hx : w.entity? e = some x := hx
    have hapart := hw.definesApart_of_changesOnly hchanges hx
    rw [distinctKeys_eq_self (hkeys.symm ▸ hnodup)]
    obtain ⟨-, hcustom, hdisjoint⟩ := List.nodup_append.1 hapart.names
    refine ⟨hapart.keywords, ?_, ?_, fun entry hentry => ?_, hapart.customOutputs⟩
    · rw [Entity.definedNames, hkeys]
      refine List.nodup_append.2 ⟨hnodup, hcustom, ?_⟩
      rintro name hname _ hother rfl
      refine disjoint_of_readAttributes hx (fun name hname hother => ?_) hread hname hother
      exact hdisjoint name hname name hother rfl
    · intro name hname
      rw [Entity.definedNames, hkeys] at hname
      obtain hname | hname := List.mem_append.1 hname
      · obtain ⟨d, hd, rfl⟩ := List.mem_map.1 hname
        rw [hchanges.isDeclaredOutput_eq]
        exact (names_of_readAttributes hread d hd).1
      · exact hapart.undeclared name (List.mem_append_right _ hname)
    · obtain ⟨d, -, hfound⟩ := found_of_mem_definitionTable hentry
      exact ⟨d, hfound⟩
  · exact hw.definesApart_of_changesOnly hchanges hx'

/-- **Custom outputs that are defined anew stay apart** from all other outputs of the entity. -/
theorem setCustomOutputs {os : List CustomOutput} (hread : (w.readCustomOutputs e a).Gives os) :
    (w.setCustomOutputs e os).OutputsApart := by
  have hchanges : w.ChangesOnly (fun _ => False) (fun _ => False) (fun _ => True)
      (w.setCustomOutputs e os) := setCustomOutputs_changesOnly trivial os
  obtain ⟨hnodup, hnames⟩ := names_of_readCustomOutputs hread
  have hkeys : (os.map fun o => (o.name, o)).map (·.1) = os.map (·.name) := List.map_map
  intro y x' hx'
  rw [World.setCustomOutputs, entity?_updateEntity] at hx'
  split at hx'
  · next he =>
    subst he
    obtain ⟨x, hx, rfl⟩ := Option.map_eq_some_iff.1 hx'
    have hapart := hw.definesApart_of_changesOnly hchanges hx
    rw [distinctKeys_eq_self (hkeys.symm ▸ hnodup)]
    obtain ⟨hattributes, -, -⟩ := List.nodup_append.1 hapart.names
    refine ⟨hapart.keywords, ?_, ?_, hapart.attributes, ?_⟩
    · rw [Entity.definedNames, hkeys]
      refine List.nodup_append.2 ⟨hattributes, hnodup, ?_⟩
      rintro name hattribute _ hname rfl
      exact disjoint_of_readCustomOutputs hx hread hattribute hname
    · intro name hname
      rw [Entity.definedNames, hkeys] at hname
      obtain hname | hname := List.mem_append.1 hname
      · exact hapart.undeclared name (List.mem_append_left _ hname)
      · obtain ⟨o, ho, rfl⟩ := List.mem_map.1 hname
        rw [hchanges.isDeclaredOutput_eq]
        exact (hnames o ho).2.1
    · intro entry hentry
      obtain ⟨o, ho, rfl⟩ := List.mem_map.1 hentry
      exact ⟨rfl, (hnames o ho).1⟩
  · exact hw.definesApart_of_changesOnly hchanges hx'

/-! ## Keywords -/

/-- A change of one input. -/
theorem updateInput {id : InputId} {f : Input → Input} (hf : ∀ i : Input, i.SameDeclaration (f i)) :
    (w.updateInput id f).OutputsApart := by
  have hchanges : w.ChangesOnly (fun _ => True) (fun _ => False) (fun _ => False)
      (w.updateInput id f) := updateInput_changesOnly trivial hf
  exact hw.keep (.of_changesOnly hchanges)

/-- **Keywords keep outputs apart**, whether or not one of them is refused. -/
theorem applyItems (e : EntityId) (log : List Warning) (done : List InputId)
    (items : List Arguments) : (w.applyItems e log done items).world.OutputsApart :=
  KeptByKeywords.applyItems ⟨fun hf hw => hw.updateInput hf, fun hds hw => hw.setAttributes hds,
    fun hos hw => hw.setCustomOutputs hos⟩ hw e log done items

/-! ## Entities -/

theorem create {className : String} {loose : Bool}
    (hkeywords : ((w.palette.inputs className).map (·.keyword)).Nodup)
    (h : w.create? className name loose = .ok (w', e)) : w'.OutputsApart := by
  have happend : ({ w with
      entities := w.entities ++ [w.newEntity className name] } : World).OutputsApart := by
    refine hw.keep ⟨fun y x' hx' => ?_, fun y x defined hx _ hdeclared => ?_,
      fun a d hd => ⟨d, hd, rfl⟩⟩
    · rw [entity?_append] at hx'
      split at hx'
      · cases hx'
        exact .inl ⟨rfl, hkeywords⟩
      · exact .inr ⟨x', hx', rfl, rfl, id⟩
    · have hold := entity?_append w (w.newEntity className name) y
      rw [if_neg (Nat.ne_of_lt (List.getElem?_eq_some_iff.1 hx).1)] at hold
      rwa [isDeclaredOutput_congr hold rfl] at hdeclared
  obtain ⟨-, -, ⟨-, rfl⟩ | ⟨-, hregister⟩⟩ := create?_cases h
  · exact happend
  · obtain ⟨-, rfl⟩ := register?_eq_ok hregister
    exact happend.keep (.updateEntity _ _ _ (fun _ => rfl) (fun _ => rfl) (fun _ => rfl)
      fun _ => rfl)

/-- An input that is added must not become an output under a name that the user has defined. -/
theorem addInput {i : Input} (hfree : i.isOutput = true → w.hasAttribute e i.keyword = false ∧
      w.hasCustomOutput e i.keyword = false)
    (h : w.addInput? e i = .ok w') : w'.OutputsApart := by
  obtain ⟨hnew, rfl⟩ := addInput?_eq_ok h
  refine hw.keep ⟨fun y x' hx' => .inr ?_, fun y x name hx hname hdeclared => ?_,
    fun a d hd => ⟨d, hd, rfl⟩⟩
  · rw [entity?_updateEntity] at hx'
    split at hx'
    · next he =>
      subst he
      obtain ⟨x, hx, rfl⟩ := Option.map_eq_some_iff.1 hx'
      refine ⟨x, hx, rfl, rfl, fun hnodup => ?_⟩
      rw [List.map_append, List.map_singleton, ← List.concat_eq_append]
      refine hnodup.concat fun hmem => ?_
      obtain ⟨j, hj, hkey⟩ := List.mem_map.1 hmem
      rw [input?, hx, Option.bind_some] at hnew
      exact List.find?_eq_none.1 hnew j hj (beq_iff_eq.2 hkey)
    · exact ⟨x', hx', rfl, rfl, id⟩
  · have hx' := entity?_updateEntity w e y fun x => { x with inputs := x.inputs ++ [i] }
    rw [hx] at hx'
    split at hx'
    · next he =>
      subst he
      rw [Option.map_some] at hx'
      rw [isDeclaredOutput_eq_of_entity? hx', Bool.or_eq_true] at hdeclared
      rw [isDeclaredOutput_eq_of_entity? hx, Bool.or_eq_true]
      refine hdeclared.imp_right fun hinput => ?_
      obtain ⟨j, hj⟩ := Option.isSome_iff_exists.1 hinput
      obtain ⟨hfound, hout⟩ := Option.filter_eq_some_iff.1 hj
      rw [Entity.input?, List.find?_append] at hfound
      obtain hold | ⟨-, hadded⟩ := Option.or_eq_some_iff.1 hfound
      · exact Option.isSome_iff_exists.2 ⟨j, Option.filter_eq_some_iff.2 ⟨hold, hout⟩⟩
      · -- the new input is an output, so its keyword is no name that is defined
        obtain rfl := List.mem_singleton.1 (List.mem_of_find?_eq_some hadded)
        have hkey := List.find?_some hadded
        obtain rfl : j.keyword = name := beq_iff_eq.1 hkey
        obtain ⟨hattribute, hcustom⟩ := hfree hout
        obtain hname | hname := List.mem_append.1 hname
        · rw [(hasAttribute_iff hx).2 hname] at hattribute
          cases hattribute
        · rw [(hasCustomOutput_iff hx).2 hname] at hcustom
          cases hcustom
    · rwa [isDeclaredOutput_congr (hx'.trans hx.symm) rfl] at hdeclared

theorem rename (h : w.rename? e name = .ok w') : w'.OutputsApart := by
  obtain ⟨-, -, rfl⟩ := rename?_eq_ok h
  exact hw.keep (.updateEntity w _ e (fun _ => rfl) (fun _ => rfl) (fun _ => rfl) fun _ => rfl)

/-- One input is put in the place of another one that is declared as it is. -/
theorem setInput {id : InputId} {i i' : Input} (hi : w.input? id = some i)
    (h : i.SameDeclaration i') : (w.updateInput id fun _ => i').OutputsApart := by
  classical
  -- it is the only input of the entity with its keyword
  have hsame : (w.updateInput id fun _ => i') =
      w.updateInput id fun j => if j.reset = i.reset then i' else j := by
    refine updateEntity_congr fun x hx => ?_
    refine congrArg (fun is => { x with inputs := is }) (List.map_congr_left fun j hj => ?_)
    split
    · next hkey =>
      rw [input?, hx, Option.bind_some] at hi
      have hkeywords := (hw id.entity x hx).keywords
      have hfound := List.find?_some hi
      have heq : j.keyword = i.keyword := (beq_iff_eq.1 hkey).trans (beq_iff_eq.1 hfound).symm
      rw [List.inj_on_of_nodup_map hkeywords hj (List.mem_of_find?_eq_some hi) heq]
      exact (if_pos rfl).symm
    · rfl
  rw [hsame]
  refine hw.updateInput fun j => ?_
  split
  · next hj => exact h.trans hj.symm
  · rfl

theorem kill (e : EntityId) : (w.kill e).world.OutputsApart :=
  kill_induction (fun _ => hw.keep (.of_entities_eq rfl rfl fun _ d hd => ⟨d, hd, rfl⟩))
    fun _ _ _ _ _ hi hremove hw =>
      hw.setInput hi (Input.removeReferences_loosens hremove).declaration

/-! ## Values of attributes -/

theorem updateAttribute {id : AttributeId} {f : Attribute → Attribute}
    (hf : ∀ d : Attribute, (f d).name = d.name) : (w.updateAttribute id f).OutputsApart := by
  refine hw.keep (.of_entities_eq rfl rfl fun a d hd => ?_)
  have hd : w.attributes[a.index]? = some d := hd
  rw [attribute?, World.updateAttribute, List.getElem?_modify, hd]
  split
  · exact ⟨f d, rfl, hf d⟩
  · exact ⟨d, rfl, rfl⟩

theorem resetAttributes (e : EntityId) : (w.resetAttributes e).OutputsApart :=
  resetAttributes_induction hw fun _ _ hw => hw.updateAttribute fun _ => rfl

end OutputsApart

/-! ## Runs -/

/-- One thing that is done to a model in which no input becomes an output under a name that the user
has defined. Keywords are applied to any entity, and may be refused; attributes get values. -/
inductive OrderlyStep : World → World → Prop where
  | create {w w' : World} {e : EntityId} {className name : String} {loose : Bool} :
    ((w.palette.inputs className).map (·.keyword)).Nodup →
    w.create? className name loose = .ok (w', e) → OrderlyStep w w'
  | addInput {w w' : World} {e : EntityId} {i : Input} :
    (i.isOutput = true → w.hasAttribute e i.keyword = false ∧
      w.hasCustomOutput e i.keyword = false) →
    w.addInput? e i = .ok w' → OrderlyStep w w'
  | apply {w : World} {e : EntityId} {items : List Arguments} :
    OrderlyStep w (w.applyItems e [] [] items).world
  | reset {w : World} {id : InputId} : OrderlyStep w (w.updateInput id Input.reset)
  | setAttribute {w w' : World} {e : EntityId} {name : String} {r : Result} :
    w.setAttribute? e name r = .ok w' → OrderlyStep w w'
  | resetAttributes {w : World} {e : EntityId} : OrderlyStep w (w.resetAttributes e)
  | kill {w : World} {e : EntityId} : OrderlyStep w (w.kill e).world
  | rename {w w' : World} {e : EntityId} {name : String} :
    w.rename? e name = .ok w' → OrderlyStep w w'

/-- The world is reached from an empty one of the classes, without an input that takes a name that
the user has defined. -/
def OrderlyReached (p : Palette) (w : World) : Prop :=
  ∃ settings recordsEdits, Relation.ReflTransGen OrderlyStep
    { palette := p, settings := settings, recordsEdits := recordsEdits } w

/-- **Every step keeps outputs apart.** -/
theorem OrderlyStep.outputsApart (h : OrderlyStep w w') (hw : w.OutputsApart) :
    w'.OutputsApart := by
  cases h with
  | create hkeywords h => exact hw.create hkeywords h
  | addInput hfree h => exact hw.addInput hfree h
  | apply => exact hw.applyItems _ _ _ _
  | reset => exact hw.updateInput fun _ => rfl
  | setAttribute h =>
    unfold setAttribute? at h
    split at h
    · cases h
      exact hw.updateAttribute fun _ => rfl
    · cases h
  | resetAttributes => exact hw.resetAttributes _
  | kill => exact hw.kill _
  | rename h => exact hw.rename h

/-- **In every world that is reached outputs are apart.** -/
theorem OrderlyReached.outputsApart {p : Palette} (h : OrderlyReached p w) : w.OutputsApart := by
  obtain ⟨settings, recordsEdits, h⟩ := h
  induction h with
  | refl => exact nofun
  | tail _ hstep ih => exact hstep.outputsApart ih

end World

end ModelInputs
