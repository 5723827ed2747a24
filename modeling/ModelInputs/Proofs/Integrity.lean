import ModelInputs.Proofs.Reference.Registered
import ModelInputs.Proofs.Run.Inputs
import ModelInputs.Model.StandardPalette

/-!
# Referential integrity

However a model has come about, the inputs of its registered entities hold registered entities only,
each of the class or interface that the input asks for, and no entity twice in a list that is to be
without repetitions. This is kept by every step: what arguments give is looked up among the
registered entities, where the name of a group stands for what its own list holds; an entity that is
killed leaves all inputs; and a name is no part of what an input holds.

* `Palette.HasGroups`: groups have lists of entities;
* `World.Integral`: what holds at any time;
* **`World.Integral.groupsMeet`**: names of groups stand for registered entities;
* **`World.Step.integral`**, **`World.Reached.integral`**: every step keeps it;
* **`World.references_kept`**: what the inputs of registered entities hold.
-/

namespace ModelInputs

/-- The input is a list of entities, which may be groups. -/
def Palette.ListsGroups (p : Palette) (kind : InputKind) : Prop :=
  ∃ type unique counts, kind = .entities type unique counts ∧
    World.groupType.isSubtype p.ancestors type = true

/-- Every group has a list of entities, which may be groups. -/
def Palette.HasGroups (p : Palette) : Prop :=
  ∀ className, (TypeRef.named className).isSubtype p.ancestors World.groupType = true →
    ∃ i ∈ p.inputs className, i.keyword = "List" ∧ p.ListsGroups i.kind

theorem Palette.HasGroups.of_classes {p : Palette}
    (hgroup : (p.class? "EntityGroup").isSome = true)
    (h : ∀ c ∈ p.classes, (TypeRef.named c.name).isSubtype p.ancestors World.groupType = true →
      ∃ i ∈ p.inputs c.name, i.keyword = "List" ∧ p.ListsGroups i.kind) : p.HasGroups := by
  intro className hsub
  cases hc : p.class? className with
  | none =>
    -- a class that is not declared extends no other one
    have hself : ([className].contains "EntityGroup") = true := by
      rw [World.groupType, TypeRef.isSubtype, Palette.ancestors, hc] at hsub
      exact hsub
    rw [List.mem_singleton.1 (List.contains_iff_mem.1 hself)] at hgroup
    rw [hc] at hgroup
    cases hgroup
  | some c =>
    obtain ⟨hmem, rfl⟩ := Palette.class?_eq_some_mem hc
    exact h c hmem hsub

namespace World

/-- Registered groups have lists, and the inputs of registered entities are as they should be. -/
structure Integral (w : World) : Prop where
  wellFormed : w.WellFormed
  palette : w.palette.HasGroups
  groups : ∀ g ∈ w.registered, w.isInstance g groupType = true →
    ∃ i, w.input? ⟨g, "List"⟩ = some i ∧ w.palette.ListsGroups i.kind
  holds : ∀ id i, id.entity ∈ w.registered → w.input? id = some i → i.Holds w.Meets

variable {w w' : World} {e : EntityId}

theorem WellFormed.entity_of_registered (hw : w.WellFormed) (he : e ∈ w.registered) :
    ∃ x, w.entity? e = some x := by
  obtain ⟨name, hmem⟩ := mem_registered.1 he
  obtain ⟨x, hx, -⟩ := hw.registered name e hmem
  exact ⟨x, hx⟩

namespace Integral

/-- Entities that inputs of registered ones refer to are registered. -/
theorem mem_registered (hw : w.Integral) {id : InputId} {i : Input} (hid : id.entity ∈ w.registered)
    (hi : w.input? id = some i) {y : EntityId} (hy : y ∈ i.stored.mentions) : y ∈ w.registered := by
  rw [← i.kind.map_fst_held] at hy
  obtain ⟨x, hx, rfl⟩ := List.mem_map.1 hy
  exact ((hw.holds id i hid hi).value.held x hx).1

/-- **The members of registered groups are registered.** -/
theorem groupsMeet (hw : w.Integral) : w.GroupsMeet := by
  intro g hg hgroup vs hvs y hy
  obtain ⟨i, hi, type, unique, counts, hk, -⟩ := hw.groups g hg hgroup
  unfold members valueOf at hvs
  rw [target_eq_self hi (by rw [hk]; rfl), hi] at hvs
  obtain ⟨v, hv, hvs⟩ := bind_eq_ok.1 hvs
  have hstored : v = i.stored := by
    have hcurrent : i.current? = .ok v := hv
    rw [Input.current?, hk] at hcurrent
    exact (Except.ok.inj hcurrent).symm
  exact hw.mem_registered hg hi (hstored ▸ Value.mem_mentions_of_listed hvs hy)

/-- A step after which no other entities are registered, and inputs are of the kinds that they were
of. -/
theorem of_grows (hw : w.Integral) (hw' : w'.WellFormed) (hgrows : w.Grows w')
    (hregistered : ∀ y ∈ w'.registered, y ∈ w.registered)
    (hkind : ∀ id i, w.input? id = some i → ∃ i', w'.input? id = some i' ∧ i'.kind = i.kind)
    (hholds : ∀ id i', id.entity ∈ w'.registered → w'.input? id = some i' →
      i'.Holds fun y type => y ∈ w'.registered ∧ w.isInstance y type = true) : w'.Integral := by
  have hinstance {y : EntityId} (hy : y ∈ w'.registered) (type : TypeRef) :
      w'.isInstance y type = w.isInstance y type := by
    obtain ⟨x, hx⟩ := hw.wellFormed.entity_of_registered (hregistered y hy)
    exact hgrows.isInstance_eq hx type
  refine ⟨hw', hgrows.palette_eq ▸ hw.palette, ?_, ?_⟩
  · intro g hg hgroup
    rw [hinstance hg] at hgroup
    obtain ⟨i, hi, hk⟩ := hw.groups g (hregistered g hg) hgroup
    obtain ⟨i', hi', hk'⟩ := hkind _ i hi
    exact ⟨i', hi', by rwa [hk', hgrows.palette_eq]⟩
  · intro id i' hid hi'
    exact (hholds id i' hid hi').mono fun y type hy => ⟨hy.1, (hinstance hy.1 type).trans hy.2⟩

/-! ## Steps -/

/-- A new entity is as its class declares it, and so refers to no other one. -/
theorem create (hw : w.Integral) {className name : String} {loose : Bool}
    (h : w.create? className name loose = .ok (w', e)) : w'.Integral := by
  have hgrows : w.Grows w' := .create h
  have hmeets {y : EntityId} {type : TypeRef} (hy : w.Meets y type) : w'.Meets y type := by
    obtain ⟨x, hx⟩ := hw.wellFormed.entity_of_registered hy.1
    exact ⟨(mem_registered_create h).1 hy.1, (hgrows.isInstance_eq hx type).trans hy.2⟩
  refine ⟨hw.wellFormed.create h, hgrows.palette_eq ▸ hw.palette, ?_, ?_⟩
  · intro g hg hgroup
    by_cases hnew : g = e
    · subst hnew
      rw [isInstance, classOf_create h, hgrows.palette_eq] at hgroup
      obtain ⟨i, hi, hkeyword, hk⟩ := hw.palette className hgroup
      refine ⟨i, ?_, by rwa [hgrows.palette_eq]⟩
      rw [input?_create h, if_pos rfl]
      show (w.newEntity className name).input? "List" = some i
      rw [← hkeyword]
      exact (hw.wellFormed.newEntity className name).input?_eq_some hi
    · have hold := ((mem_registered_create h).2 hg).resolve_left hnew
      obtain ⟨x, hx⟩ := hw.wellFormed.entity_of_registered hold
      rw [hgrows.isInstance_eq hx] at hgroup
      obtain ⟨i, hi, hk⟩ := hw.groups g hold hgroup
      refine ⟨i, ?_, by rwa [hgrows.palette_eq]⟩
      rw [input?_create h, if_neg hnew]
      exact hi
  · intro id i' hid hi'
    rw [input?_create h] at hi'
    split at hi'
    · have hnew : i'.IsNew :=
        hw.wellFormed.palette.inputs className i' (List.mem_of_find?_eq_some hi')
      exact .of_mentions_eq_nil (hnew.reset_eq ▸ Input.mentions_reset hnew.namesNoEntity)
    · next hne =>
      have hold := ((mem_registered_create h).2 hid).resolve_left hne
      exact (hw.holds id i' hold hi').mono fun _ _ => hmeets

theorem addInput (hw : w.Integral) {i : Input} (hi : i.IsNew) (h : w.addInput? e i = .ok w') :
    w'.Integral := by
  have hregistered : w'.registered = w.registered := by
    rw [registered, registered, registry_addInput h]
  refine hw.of_grows (hw.wellFormed.addInput hi h) (.addInput h) ?_ ?_ ?_
  · rw [hregistered]
    exact fun _ => id
  · exact fun id j hj => ⟨j, input?_of_addInput h hj, rfl⟩
  · intro id i' hid hi'
    rw [hregistered] at hid ⊢
    obtain ⟨-, rfl⟩ | hold := input?_addInput h hi'
    · exact .of_mentions_eq_nil (hi.reset_eq ▸ Input.mentions_reset hi.namesNoEntity)
    · exact hw.holds id i' hid hold

theorem rename (hw : w.Integral) (he : e ∈ w.registered) {name : String}
    (h : w.rename? e name = .ok w') : w'.Integral := by
  have hregistered (y : EntityId) : y ∈ w'.registered ↔ y ∈ w.registered :=
    hw.wellFormed.mem_registered_rename he h
  refine hw.of_grows (hw.wellFormed.rename he h) (.rename h) (fun y => (hregistered y).1) ?_ ?_
  · exact fun id i hi => ⟨i, (input?_rename h id).trans hi, rfl⟩
  · intro id i' hid hi'
    rw [input?_rename h] at hi'
    exact (hw.holds id i' ((hregistered _).1 hid) hi').mono fun y _ hy =>
      ⟨(hregistered y).2 hy.1, hy.2⟩

theorem kill (hw : w.Integral) (he : e ∈ w.registered) : (w.kill e).world.Integral := by
  obtain ⟨hwell, changed, -, hkilled⟩ := hw.wellFormed.kill he
  refine hw.of_grows hwell (.kill w e) (fun y hy => (hkilled.mem_registered.1 hy).2) ?_ ?_
  · intro id i hi
    rw [hkilled.input?_eq, hi]
    split
    · exact ⟨i.letGo e, rfl, (i.letGo_sameDeclaration e).kind_eq⟩
    · exact ⟨i, rfl, rfl⟩
  · intro id i' hid hi'
    rw [hkilled.input?_eq, if_pos hid] at hi'
    obtain ⟨i, hi, rfl⟩ := Option.map_eq_some_iff.1 hi'
    have hholds := hw.holds id i (hkilled.mem_registered.1 hid).2 hi
    exact (hholds.letGo (hw.wellFormed.suited hi) e).mono fun y _ hy =>
      ⟨hkilled.mem_registered.2 ⟨hy.1, hy.2.1⟩, hy.2.2⟩

/-! ## Keywords -/

/-- A change of inputs, after which those of registered entities are as they should be. -/
theorem of_changesOnly (hw : w.Integral) (hw' : w'.WellFormed)
    {inputs : InputId → Prop} {attributesOf outputsOf : EntityId → Prop}
    (h : w.ChangesOnly inputs attributesOf outputsOf w')
    (hholds : ∀ id i', id.entity ∈ w.registered → inputs id → w'.input? id = some i' →
      i'.Holds w.Meets) : w'.Integral := by
  have hregistered : w'.registered = w.registered := by
    rw [registered, registered, h.registry_eq]
  refine hw.of_grows hw' (.of_changesOnly h) ?_ ?_ ?_
  · rw [hregistered]
    exact fun _ => id
  · intro id i hi
    have hkind := h.kind_eq id
    rw [hi, Option.map_some] at hkind
    exact Option.map_eq_some_iff.1 hkind
  · intro id i' hid hi'
    rw [hregistered] at hid ⊢
    by_cases hin : inputs id
    · exact hholds id i' hid hin hi'
    · exact hw.holds id i' hid ((h.input?_eq hin).symm.trans hi')

end Integral

/-- An input that is set by an assignment that is as it should be is so too. -/
theorem AssignmentHolds.assigned {i : Input} {assignment : Assignment}
    (ha : w.AssignmentHolds i.kind assignment) (hholds : i.Holds w.Meets) :
    (w.assigned assignment i).Holds w.Meets := by
  cases ha with
  | value hv => exact hholds.assign hv
  | @keyLists lists hv hkeyless hnodup =>
    exact ⟨(i.stored_assign lists.toValue).symm ▸ hv, hkeyless, hnodup⟩
  | attributes | customOutputs =>
    exact hholds.assign (.of_mentions_eq_nil (Value.mentions_list_map (fun _ => rfl) _))
  | nothing => exact hholds

namespace Integral

theorem parseInput (hw : w.Integral) {this : Option EntityId} {id : InputId} {a : Arguments}
    (h : (w.parseInput this id a).Gives w') : w'.Integral := by
  have hwell := hw.wellFormed.parseInput h
  obtain ⟨-, rfl⟩ | ⟨i, assignment, hi, hread, rfl⟩ := parseInput_gives h
  · exact hw
  have hchanges : w.ChangesOnly (· = w.target id) (fun _ => True) (fun _ => True)
      (w.store (w.target id) assignment) := by
    refine store_changesOnly ?_ (fun _ _ _ => trivial) fun _ _ _ => trivial
    rfl
  refine hw.of_changesOnly hwell hchanges fun id' i' hid hin hi' => ?_
  subst hin
  rw [input?_store, if_pos rfl, hi] at hi'
  cases hi'
  have hholds := hw.holds _ i hid hi
  exact (readKind_holds hw.groupsMeet (hw.wellFormed.suited hi) hholds hread).assigned hholds

/-- **A keyword leaves what inputs hold as it should be.** -/
theorem applyArguments (hw : w.Integral) {a : Arguments} {id : InputId}
    (h : (w.applyArguments e a).Gives (w', id)) : w'.Integral := by
  have hwell := hw.wellFormed.applyArguments h
  obtain ⟨-, -, changed, hparse, rfl⟩ := applyArguments_eq_of_gives h
  have hchanged := hw.parseInput hparse
  have hmarked : changed.ChangesOnly (· = w.receiver ⟨e, a.keyword⟩) (fun _ => False)
      (fun _ => False) (changed.updateInput (w.receiver ⟨e, a.keyword⟩) (w.markReceiver e a)) := by
    refine updateInput_changesOnly ?_ (w.markReceiver_sameDeclaration e a)
    rfl
  refine hchanged.of_changesOnly hwell hmarked fun id' i' hid hin hi' => ?_
  subst hin
  rw [input?_updateInput (fun i => (w.markReceiver_sameDeclaration e a i).keyword_eq), if_pos rfl]
    at hi'
  obtain ⟨i, hi, rfl⟩ := Option.map_eq_some_iff.1 hi'
  obtain ⟨edited, hmark⟩ := w.markReceiver_eq e a i
  rw [hmark]
  -- the tokens and the mark are no part of what an input holds
  obtain ⟨hvalue, hkeyless, hnodup⟩ := hchanged.holds _ i hid hi
  exact ⟨hvalue, hkeyless, hnodup⟩

theorem applyItems (hw : w.Integral) (e : EntityId) (log : List Warning) (done : List InputId)
    (items : List Arguments) : (w.applyItems e log done items).world.Integral :=
  applyItems_induction hw fun _ _ _ _ _ hw h => hw.applyArguments h

end Integral

/-! ## Runs -/

/-- **Every step keeps what inputs hold as it should be.** -/
theorem Step.integral (h : Step w w') (hw : w.Integral) : w'.Integral := by
  cases h with
  | create h => exact hw.create h
  | addInput hi h => exact hw.addInput hi h
  | apply => exact hw.applyItems _ _ _ _
  | kill he => exact hw.kill he
  | rename he h => exact hw.rename he h

/-- **In every world that is reached, inputs hold what they should.** -/
theorem Reached.integral {p : Palette} (hp : p.IsPlain) (hg : p.HasGroups) (h : Reached p w) :
    w.Integral := by
  obtain ⟨settings, recordsEdits, h⟩ := h
  induction h with
  | refl =>
    exact ⟨⟨hp, nofun, List.nodup_nil, nofun⟩, hg, fun _ hmem => absurd hmem List.not_mem_nil,
      fun _ _ hmem => absurd hmem List.not_mem_nil⟩
  | tail _ hstep ih => exact hstep.integral ih

/-- **References never dangle.** In every world that is reached, whatever an input of a registered
entity holds is registered under its own name and of the class, or a class of the interface, that
the input asks for, and no entity is twice in a list of an input that asks for distinct ones, in one
of its inner lists, or in a list of a key list. -/
theorem references_kept {p : Palette} (hp : p.IsPlain) (hg : p.HasGroups) {w : World}
    (hw : Reached p w) {id : InputId} (hid : id.entity ∈ w.registered) {i : Input}
    (hi : w.input? id = some i) :
    (∀ e type, (e, type) ∈ i.held →
      w.named? (w.nameOf e) = some e ∧ w.isInstance e type = true) ∧
    ∀ es ∈ i.uniqueLists, es.Nodup := by
  have hintegral := hw.integral hp hg
  have hholds := hintegral.holds id i hid hi
  refine ⟨fun e type he => ?_, hholds.unique⟩
  obtain ⟨hregistered, hinstance⟩ := hholds.held _ he
  obtain ⟨name, hmem⟩ := mem_registered.1 hregistered
  refine ⟨?_, hinstance⟩
  rw [hintegral.wellFormed.name_eq hmem]
  exact hintegral.wellFormed.named?_eq_some.2 hmem

/-- A palette of groups and of nodes, which have neighbours. -/
def groupsAndNodes : Palette where
  classes := [Palette.groupClass, {
    name := "Node"
    parents := ["Entity"]
    inputs := [.make "Neighbours" "Options" (.entities (.named "Node") true {})] }]

/-- A node. -/
def loneNode : World where
  palette := groupsAndNodes
  entities := [{
    name := "A"
    className := "Node"
    inNamespace := true
    inputs := groupsAndNodes.inputs "Node" }]
  registry := [("A", ⟨0⟩)]

/-- A node and a group without members. -/
def nodeAndGroup : World where
  palette := groupsAndNodes
  entities := [
    { name := "A"
      className := "Node"
      inNamespace := true
      inputs := groupsAndNodes.inputs "Node" },
    { name := "G"
      className := "EntityGroup"
      inNamespace := true
      inputs := groupsAndNodes.inputs "EntityGroup" }]
  registry := [("A", ⟨0⟩), ("G", ⟨1⟩)]

/-- The keyword that makes the node the only member of the group. -/
def listA : Arguments where
  keyword := "List"
  args := ["A"]
  balanced := by decide

/-- The keyword that makes the members of the group neighbours. -/
def neighboursG : Arguments where
  keyword := "Neighbours"
  args := ["G"]
  balanced := by decide

/-- A group of one node. -/
def groupedNode : World :=
  (nodeAndGroup.applyItems ⟨1⟩ [] [] [listA]).world

/-- A node that is its own neighbour, by the name of the group. -/
def neighbourOfGroup : World :=
  (groupedNode.applyItems ⟨0⟩ [] [] [neighboursG]).world

theorem groupsAndNodes_isPlain : groupsAndNodes.IsPlain := by
  refine .of_classes fun c hc => ?_
  obtain rfl | hc := List.mem_cons.1 hc
  · refine ⟨by decide, fun i hi => ?_⟩
    rw [List.mem_singleton.1 hi]
    exact ⟨rfl, rfl, rfl⟩
  · rw [List.mem_singleton.1 hc]
    refine ⟨by decide, fun i hi => ?_⟩
    rw [List.mem_singleton.1 hi]
    exact Input.isNew_make _ _ rfl rfl

theorem groupsAndNodes_hasGroups : groupsAndNodes.HasGroups := by
  refine .of_classes rfl fun c hc hsub => ?_
  obtain rfl | hc := List.mem_cons.1 hc
  · exact ⟨_, .head _, rfl, _, _, _, rfl, rfl⟩
  · rw [List.mem_singleton.1 hc] at hsub
    cases hsub

theorem groupedNode_reached : Reached groupsAndNodes groupedNode := by
  have hnode : Step { palette := groupsAndNodes } loneNode := by
    have h : create? { palette := groupsAndNodes } "Node" "A" = .ok (loneNode, ⟨0⟩) := rfl
    exact .create h
  have hgroup : Step loneNode nodeAndGroup := by
    have h : loneNode.create? "EntityGroup" "G" = .ok (nodeAndGroup, ⟨1⟩) := rfl
    exact .create h
  exact ⟨{}, false, .tail (.tail (.tail .refl hnode) hgroup) .apply⟩

theorem neighbourOfGroup_reached : Reached groupsAndNodes neighbourOfGroup := by
  obtain ⟨settings, recordsEdits, h⟩ := groupedNode_reached
  exact ⟨settings, recordsEdits, .tail h .apply⟩

theorem references_kept_neighbourOfGroup :
    ∃ i, neighbourOfGroup.input? ⟨⟨0⟩, "Neighbours"⟩ = some i ∧
      i.held = [(⟨0⟩, .named "Node")] ∧ i.uniqueLists = [[], [⟨0⟩]] ∧
      neighbourOfGroup.named? (neighbourOfGroup.nameOf ⟨0⟩) = some ⟨0⟩ ∧
      neighbourOfGroup.isInstance ⟨0⟩ (.named "Node") = true ∧ [(⟨0⟩ : EntityId)].Nodup := by
  have hregistered : neighbourOfGroup.registered = [⟨0⟩, ⟨1⟩] := rfl
  have hid : (InputId.mk ⟨0⟩ "Neighbours").entity ∈ neighbourOfGroup.registered :=
    hregistered ▸ .head _
  obtain ⟨hheld, hunique⟩ := references_kept groupsAndNodes_isPlain groupsAndNodes_hasGroups
    neighbourOfGroup_reached hid rfl
  obtain ⟨hname, hinstance⟩ := hheld ⟨0⟩ (.named "Node") (.head _)
  exact ⟨_, rfl, rfl, rfl, hname, hinstance, hunique _ (.tail _ (.head _))⟩

end World

end ModelInputs
