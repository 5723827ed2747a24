import ModelInputs.Proofs.Integrity

/-!
# Names of groups in lists

Where entities of a class are asked for, and groups are not of that class, the name of a group may be
written for the names of its members. What a name stands for is not looked up further: the members
are taken as they are, so that the name of a group can only be replaced where none of them is a group
itself. A member that is not of the class is refused under either name.

* `World.Replaces`: some occurrences of a name are replaced in a list;
* `World.addNamed_group`, `World.addNamed_replaced`: the name of a group, and those of its members;
* **`World.readEntities_replaced`**: both lists are read in the same way;
* **`World.not_forall_readEntities_replaced`**: with groups among the members they need not be.
-/

namespace ModelInputs

namespace World

variable {w : World} {this : Option EntityId} {type : TypeRef} {unique : Bool} {g m : EntityId}
  {ms : List EntityId} {name : String} {names names' members : List String}

/-- Some occurrences of a name in a list are replaced by the names of members. -/
inductive Replaces (name : String) (members : List String) : List String → List String → Prop where
  | nil : Replaces name members [] []
  | keep {n : String} {names names' : List String} :
    Replaces name members names names' → Replaces name members (n :: names) (n :: names')
  | replace {names names' : List String} :
    Replaces name members names names' →
      Replaces name members (name :: names) (members ++ names')

/-- Every occurrence of the name may be replaced. -/
theorem replaces_flatMap (name : String) (members : List String) (names : List String) :
    Replaces name members names (names.flatMap fun n => if n = name then members else [n]) := by
  induction names with
  | nil => exact .nil
  | cons n names ih =>
    rw [List.flatMap_cons]
    split
    · next hn =>
      subst hn
      exact .replace ih
    · exact .keep ih

/-! ## One name -/

/-- The name of a registered entity is read as what the entity stands for. -/
theorem addNamed_registered (hns : w.hasNamespace this = true) (hm : w.isRegistered m = true)
    (found : List EntityId) :
    w.addNamed this type unique found (w.nameOf m) =
      w.expand type m >>= fun vs => vs.foldlM (w.addMember type unique) found := by
  have hread : w.readNamed? this (w.nameOf m) = .ok m := readNamed?_eq_ok.2 ⟨hns, eq_of_beq hm⟩
  rw [addNamed, hread]
  rfl

/-- A group stands for its members, unless groups are asked for. -/
theorem expand_group (hgroup : w.isInstance g groupType = true)
    (htype : groupType.isSubtype w.palette.ancestors type = false) :
    w.expand type g = w.members g := by
  rw [expand, hgroup, htype]
  rfl

/-- The name of an entity that is no group stands for the entity. -/
theorem addNamed_single (hns : w.hasNamespace this = true) (hm : w.isRegistered m = true)
    (hgroup : w.isInstance m groupType = false) (found : List EntityId) :
    w.addNamed this type unique found (w.nameOf m) = w.addMember type unique found (.entity m) := by
  have hexpand : w.expand type m = .ok [.entity m] := by
    rw [expand, hgroup]
    rfl
  rw [addNamed_registered hns hm, hexpand]
  exact bind_pure (w.addMember type unique found (.entity m))

/-- The name of a group stands for its members. -/
theorem addNamed_group (hns : w.hasNamespace this = true) (hg : w.isRegistered g = true)
    (hgroup : w.isInstance g groupType = true)
    (htype : groupType.isSubtype w.palette.ancestors type = false)
    (hmembers : w.members g = .ok (ms.map .entity)) (found : List EntityId) :
    w.addNamed this type unique found (w.nameOf g) =
      (ms.map .entity).foldlM (w.addMember type unique) found := by
  rw [addNamed_registered hns hg, expand_group hgroup htype, hmembers]
  rfl

/-- The names of entities that are no groups add these, one after the other. -/
theorem addNamed_members (hns : w.hasNamespace this = true)
    (hms : ∀ m ∈ ms, w.isRegistered m = true ∧ w.isInstance m groupType = false)
    (found : List EntityId) :
    (ms.map w.nameOf).foldlM (w.addNamed this type unique) found =
      (ms.map .entity).foldlM (w.addMember type unique) found := by
  induction ms generalizing found with
  | nil => rfl
  | cons m ms ih =>
    obtain ⟨hm, hms⟩ := List.forall_mem_cons.1 hms
    rw [List.map_cons, List.map_cons, List.foldlM_cons, List.foldlM_cons,
      addNamed_single hns hm.1 hm.2]
    exact bind_congr (ih hms)

/-! ## Lists of names -/

/-- The name of a group is read as the names of its members, wherever it stands. -/
theorem addAllNamed_replaced (hns : w.hasNamespace this = true) (hg : w.isRegistered g = true)
    (hgroup : w.isInstance g groupType = true)
    (htype : groupType.isSubtype w.palette.ancestors type = false)
    (hmembers : w.members g = .ok (ms.map .entity))
    (hms : ∀ m ∈ ms, w.isRegistered m = true ∧ w.isInstance m groupType = false)
    (h : Replaces (w.nameOf g) (ms.map w.nameOf) names names') (found : List EntityId) :
    names.foldlM (w.addNamed this type unique) found =
      names'.foldlM (w.addNamed this type unique) found := by
  induction h generalizing found with
  | nil => rfl
  | keep _ ih =>
    rw [List.foldlM_cons, List.foldlM_cons]
    exact bind_congr ih
  | replace _ ih =>
    rw [List.foldlM_cons, List.foldlM_append, addNamed_group hns hg hgroup htype hmembers,
      addNamed_members hns hms]
    exact bind_congr ih

/-- The name of a group stands for nothing else than its members. -/
theorem StandsFor.eq_members {es : List EntityId} (h : w.StandsFor type (w.nameOf g) es)
    (hg : w.isRegistered g = true) (hgroup : w.isInstance g groupType = true)
    (htype : groupType.isSubtype w.palette.ancestors type = false)
    (hmembers : w.members g = .ok (ms.map .entity)) : es = ms := by
  obtain ⟨e, he, hexpand⟩ := h
  cases (eq_of_beq hg).symm.trans he
  rw [expand_group hgroup htype, hmembers] at hexpand
  injection hexpand with hexpand
  exact (List.map_injective_iff.2 (fun _ _ h => Value.entity.inj h) hexpand).symm

/-- **The names of a list are read in the same way if the name of a group is replaced** by those of
its members, at any places where it occurs, unless one of these is a group. Where a member is not of
the class, as a group is not if no group is, the name of the group is refused. -/
theorem readEntities_replaced (hg : w.isRegistered g = true)
    (hgroup : w.isInstance g groupType = true)
    (htype : groupType.isSubtype w.palette.ancestors type = false)
    (hmembers : w.members g = .ok (ms.map .entity))
    (hms : ∀ m ∈ ms, w.isRegistered m = true)
    (this : Option EntityId) (unique : Bool) (names : List String) :
    ((∀ m ∈ ms, w.isInstance m groupType = false) →
      ∀ names', Replaces (w.nameOf g) (ms.map w.nameOf) names names' →
        w.readEntities this type unique names = w.readEntities this type unique names') ∧
    (w.nameOf g ∈ names → (∃ m ∈ ms, w.isInstance m type = false) →
      ∃ f, w.readEntities this type unique names = .error f) := by
  constructor
  · intro hplain names' h
    unfold readEntities
    split
    · next hns =>
      exact addAllNamed_replaced hns hg hgroup htype hmembers
        (fun m hm => ⟨hms m hm, hplain m hm⟩) h []
    · rfl
  · rintro hname ⟨m, hm, hinstance⟩
    cases hread : w.readEntities this type unique names with
    | error f => exact ⟨f, rfl⟩
    | ok es =>
      obtain ⟨-, ⟨parts, hparts, rfl⟩, hinstances, -⟩ := readEntities_eq_ok.1 hread
      obtain ⟨part, hpart, hstands⟩ := exists_mem_of_forall₂ hparts hname
      rw [hstands.eq_members hg hgroup htype hmembers] at hpart
      have hm' := hinstances m (List.mem_flatten.2 ⟨ms, hpart, hm⟩)
      rw [hinstance] at hm'
      cases hm'

/-! ## A group of a group -/

/-- The node and its group, with an outer group that has no members yet. -/
def withOuterGroup : World where
  palette := groupsAndNodes
  entities := groupedNode.entities ++ [{
    name := "H"
    className := "EntityGroup"
    inNamespace := true
    inputs := groupsAndNodes.inputs "EntityGroup" }]
  registry := [("A", ⟨0⟩), ("G", ⟨1⟩), ("H", ⟨2⟩)]

theorem isBalanced_nameG : Record.isBalanced ["G"] = true := by decide

/-- The keyword that makes the group the only member of the outer one. -/
def listG : Arguments where
  keyword := "List"
  args := ["G"]
  balanced := isBalanced_nameG

/-- A group of a group of the node. -/
def nestedGroups : World :=
  (withOuterGroup.applyItems ⟨2⟩ [] [] [listG]).world

theorem nestedGroups_reached : Reached groupsAndNodes nestedGroups := by
  have hcreate : groupedNode.create? "EntityGroup" "H" = .ok (withOuterGroup, ⟨2⟩) := rfl
  obtain ⟨settings, recordsEdits, h⟩ := groupedNode_reached
  exact ⟨settings, recordsEdits, .tail (.tail h (.create hcreate)) .apply⟩

theorem members_inner : nestedGroups.members ⟨1⟩ = .ok ([⟨0⟩].map .entity) :=
  rfl

theorem members_outer : nestedGroups.members ⟨2⟩ = .ok ([⟨1⟩].map .entity) :=
  rfl

/-- The node may be named by its group, which also repeats it; the outer group is no node. -/
theorem readEntities_replaced_nestedGroups :
    nestedGroups.readEntities (some ⟨0⟩) (.named "Node") false ["G"] = .ok [⟨0⟩] ∧
      nestedGroups.readEntities (some ⟨0⟩) (.named "Node") true ["G", "A"] =
        nestedGroups.readEntities (some ⟨0⟩) (.named "Node") true ["A", "A"] ∧
      ∃ f, nestedGroups.readEntities (some ⟨0⟩) (.named "Node") false ["H"] = .error f := by
  have htype : groupType.isSubtype nestedGroups.palette.ancestors (.named "Node") = false := rfl
  have hinner := readEntities_replaced (g := ⟨1⟩) rfl rfl htype members_inner (by decide) (some ⟨0⟩)
  have houter := readEntities_replaced (g := ⟨2⟩) rfl rfl htype members_outer (by decide) (some ⟨0⟩)
  refine ⟨?_, ?_, ?_⟩
  · exact (hinner false _).1 (by decide) ["A"] (.replace .nil)
  · exact (hinner true _).1 (by decide) _ (replaces_flatMap "G" ["A"] ["G", "A"])
  · exact (houter false _).2 (.head _) ⟨⟨1⟩, .head _, rfl⟩

/-- The name of a group may not always be replaced: the node is named by its group, but not by a
group of this group. -/
theorem not_forall_readEntities_replaced :
    ¬ ∀ (p : Palette) (w : World) (type : TypeRef) (g : EntityId) (ms : List EntityId),
      Reached p w → w.isRegistered g = true → w.isInstance g groupType = true →
      groupType.isSubtype w.palette.ancestors type = false →
      w.members g = .ok (ms.map .entity) → (∀ m ∈ ms, w.isRegistered m = true) →
      ∀ this unique names names', Replaces (w.nameOf g) (ms.map w.nameOf) names names' →
        ∀ es, w.readEntities this type unique names = .ok es ↔
          w.readEntities this type unique names' = .ok es := by
  intro h
  have hsame := h groupsAndNodes nestedGroups (.named "Node") ⟨2⟩ [⟨1⟩] nestedGroups_reached rfl rfl
    rfl members_outer (by decide) (some ⟨0⟩) false ["H"] ["G"] (.replace .nil) [⟨0⟩]
  have houter : ∃ f, nestedGroups.readEntities (some ⟨0⟩) (.named "Node") false ["H"] = .error f :=
    ⟨_, rfl⟩
  obtain ⟨f, houter⟩ := houter
  cases houter.symm.trans (hsame.2 rfl)

end World

end ModelInputs
