import ModelInputs.Proofs.KeyLists
import ModelInputs.Proofs.Record.TopLevel
import ModelInputs.Proofs.Repeat.Values

/-!
# The groups of a key list, one by one

The groups of a keyword edit the lists of a key list one after the other, each of them the lists
that the ones before it leave, and what comes out is assigned once they are all accepted. What a
group is read as does not depend on the key list itself. So groups in one keyword do what they do in
keywords of their own, with the same warnings, and if one of them is refused then nothing changes.

* `World.store_keyLists_store`: the later of two assignments counts;
* `World.ChangesOnly.editGroup_eq`: a group is read as it was before an assignment;
* `World.parseInput_keyLists`, `World.parseInput_group`: what arguments do to a key list;
* **`World.foldlM_parseInput_stored`**: keywords with one group each;
* `World.HasKeyLists`, **`World.Parses.hasKeyLists`**: arguments leave distinct entities of the
  classes in the lists;
* **`World.keyGroups_oneByOne`**: groups in one keyword, and in keywords of their own.
-/

namespace ModelInputs

open Record

namespace World

variable {w w' : World} {this : Option EntityId} {id : InputId} {i : Input}
  {keyType valueType : TypeRef} {default : List EntityId} {keyword : String} {l : KeyLists}
  {a : Arguments} {lists : List (List String)}

/-! ## Assignments -/

/-- Two changes of an input in one. -/
theorem updateInput_updateInput {f g : Input → Input} (hf : ∀ i : Input, (f i).keyword = i.keyword)
    (w : World) (id : InputId) :
    (w.updateInput id f).updateInput id g = w.updateInput id (g ∘ f) := by
  have hentity : Entity.updateInput id.keyword g ∘ Entity.updateInput id.keyword f =
      Entity.updateInput id.keyword (g ∘ f) := by
    funext x
    refine congrArg (fun is => { x with inputs := is }) ?_
    refine List.map_map.trans (List.map_congr_left fun i _ => ?_)
    rw [Function.comp_apply]
    by_cases hk : (i.keyword == id.keyword) = true
    · rw [if_pos hk, if_pos hk, hf, if_pos hk]
      rfl
    · rw [if_neg hk, if_neg hk, if_neg hk]
  refine congrArg (fun es => { w with entities := es }) ?_
  exact (List.modify_modify_eq _ _ _ _).trans (congrArg _ hentity)

/-- Of two assignments to a key list the later counts. -/
theorem store_keyLists_store (w : World) (id : InputId) (l l' : KeyLists) :
    (w.store id (.keyLists l)).store id (.keyLists l') = w.store id (.keyLists l') :=
  updateInput_updateInput (f := fun i => { i.assign l.toValue with keyless := l.keyless })
    (fun _ => rfl) w id

/-- An assignment to a key list changes nothing else. -/
theorem stored_changesOnly (w : World) (id : InputId) (l : KeyLists) :
    w.ChangesOnly (· = id) (fun _ => False) (fun _ => False) (w.store id (.keyLists l)) := by
  refine store_changesOnly ?_ ?_ ?_
  · rfl
  · rintro _ _ ⟨⟩
  · rintro _ _ ⟨⟩

/-- A key list once it is set, which is one of the same kind. -/
theorem input?_stored (hi : w.input? id = some i) (l : KeyLists) :
    (w.store id (.keyLists l)).input? id = some (w.assigned (.keyLists l) i) := by
  rw [input?_store, if_pos rfl, hi]
  rfl

/-! ## One group -/

/-- Only the tokens of the groups count. -/
theorem foldlM_editGroup_congr {groups groups' : List Arguments}
    (h : groups.map (·.args) = groups'.map (·.args)) (l : KeyLists) :
    groups.foldlM (w.editGroup this keyword keyType valueType) l =
      groups'.foldlM (w.editGroup this keyword keyType valueType) l := by
  induction groups generalizing groups' l with
  | nil => rw [List.map_eq_nil_iff.1 h.symm]
  | cons group groups ih =>
    obtain ⟨group', groups', rfl, hgroup, hgroups⟩ := List.map_eq_cons_iff.1 h.symm
    have hedit : w.editGroup this keyword keyType valueType l group =
        w.editGroup this keyword keyType valueType l group' := by
      rw [editGroup, editGroup, hgroup]
    rw [List.foldlM_cons, List.foldlM_cons, hedit]
    exact bind_congr fun l => ih hgroups.symm l

section

variable {inputs : InputId → Prop} {attributesOf outputsOf : EntityId → Prop} {target : InputId}
  (h : w.ChangesOnly inputs attributesOf outputsOf w') (ha : ∀ e, ¬ attributesOf e)
  (hother : ∀ id, id ≠ target → (w'.input? id).map (·.stored) = (w.input? id).map (·.stored))
  (hgroups : ∀ g ∈ w.registered, w.isInstance g groupType = true → w.target ⟨g, "List"⟩ ≠ target)

include h ha hother hgroups

theorem ChangesOnly.editList_eq (before : Except Failure (List EntityId)) (tokens : List String) :
    w'.editList this keyword valueType before tokens =
      w.editList this keyword valueType before tokens := by
  have hread (names : List String) : w'.readEntities this valueType true names =
      w.readEntities this valueType true names :=
    h.readEntities_eq hother (fun g hmem hgroup htarget => absurd htarget (hgroups g hmem hgroup))
      ha names
  unfold editList addToList? takeFromList
  simp only [hread, h.nameOf_eq]

/-- **A group is read as it was before the change.** -/
theorem ChangesOnly.editGroup_eq (l : KeyLists) (group : Arguments) :
    w'.editGroup this keyword keyType valueType l group =
      w.editGroup this keyword keyType valueType l group := by
  have hkey (name : String) : w'.keyNamed? this keyType name = w.keyNamed? this keyType name := by
    unfold keyNamed?
    simp only [h.findNamed?_eq, h.isInstance_eq]
  unfold editGroup
  simp only [hkey, h.editList_eq ha hother hgroups]

end

/-! ## Keywords -/

/-- What arguments do to a key list. -/
theorem parseInput_keyLists (hi : w.input? id = some i)
    (hkind : i.kind = .keyLists keyType valueType default) (this : Option EntityId)
    (a : Arguments) :
    w.parseInput this id a = (do
      let l ← Logged.ofExcept (KeyLists.ofInput i)
      let l ← w.editKeyLists this i.keyword keyType valueType l a
      return w.store id (.keyLists l)) := by
  have htarget : i.kind.target? = none := by
    rw [hkind]
    rfl
  rw [parseInput_eq hi htarget, readKind_keyLists hkind]
  simp only [bind_assoc, pure_bind]

/-- The edits of groups that stand between braces. -/
theorem editKeyLists_grouped {groups : List Arguments}
    (ha : a.args = grouped (groups.map (·.args))) (l : KeyLists) :
    w.editKeyLists this keyword keyType valueType l a =
      groups.foldlM (w.editGroup this keyword keyType valueType) l := by
  have hmatched : ∀ args ∈ groups.map (·.args), Matched args := by
    rintro _ hmem
    obtain ⟨group, -, rfl⟩ := List.mem_map.1 hmem
    exact isBalanced_iff.1 group.balanced
  obtain ⟨found, hfound, hargs⟩ := Arguments.exists_subArguments? ha hmatched
  unfold editKeyLists
  rw [hfound]
  exact (pure_bind _ _).trans (foldlM_editGroup_congr hargs l)

theorem editKeyLists_group {group : Arguments} (ha : a.args = grouped [group.args])
    (l : KeyLists) :
    w.editKeyLists this keyword keyType valueType l a =
      w.editGroup this keyword keyType valueType l group := by
  have hsingle : a.args = grouped ([group].map (·.args)) := ha
  rw [editKeyLists_grouped hsingle, List.foldlM_cons]
  exact bind_pure _

section

variable (hgroups : ∀ g ∈ w.registered, w.isInstance g groupType = true →
  w.target ⟨g, "List"⟩ ≠ id)
include hgroups

/-- The lists of a key list make no difference to what a group is read as. -/
theorem editGroup_stored (l l' : KeyLists) (group : Arguments) :
    (w.store id (.keyLists l)).editGroup this keyword keyType valueType l' group =
      w.editGroup this keyword keyType valueType l' group := by
  have hchanges := stored_changesOnly w id l
  refine hchanges.editGroup_eq (fun _ => not_false) (fun id' hne => ?_) hgroups l' group
  rw [hchanges.input?_eq hne]

variable (hi : w.input? id = some i) (hkind : i.kind = .keyLists keyType valueType default)
include hi hkind

/-- What a keyword with one group does to a key list with some lists. -/
theorem parseInput_group (l : KeyLists) {group : Arguments} (ha : a.args = grouped [group.args]) :
    (w.store id (.keyLists l)).parseInput this id a = (do
      let l ← w.editGroup this i.keyword keyType valueType l group
      return w.store id (.keyLists l)) := by
  have hlists : KeyLists.ofInput (w.assigned (.keyLists l) i) = .ok l := rfl
  rw [parseInput_keyLists (input?_stored hi l) hkind, hlists]
  refine (pure_bind _ _).trans ?_
  rw [editKeyLists_group ha, editGroup_stored hgroups]
  simp only [store_keyLists_store]
  rfl

/-- **Keywords with one group each do what the groups do together**, once the key list has some
lists. -/
theorem foldlM_parseInput_stored {as groups : List Arguments}
    (has : as.map (·.args) = groups.map fun group => grouped [group.args]) (l : KeyLists) :
    as.foldlM (fun w a => w.parseInput this id a) (w.store id (.keyLists l)) = (do
      let l ← groups.foldlM (w.editGroup this i.keyword keyType valueType) l
      return w.store id (.keyLists l)) := by
  induction groups generalizing as l with
  | nil =>
    rw [List.map_eq_nil_iff.1 has]
    exact (pure_bind _ _).symm
  | cons group groups ih =>
    obtain ⟨a, as, rfl, ha, has⟩ := List.map_eq_cons_iff.1 has
    rw [List.foldlM_cons, List.foldlM_cons, parseInput_group hgroups hi hkind l ha, bind_assoc,
      bind_assoc]
    refine bind_congr fun l => ?_
    rw [pure_bind]
    exact ih has l

/-- Groups in one keyword do what they do in keywords of their own. -/
theorem parseInput_groups {as : List Arguments} (hne : lists ≠ [])
    (hmatched : ∀ args ∈ lists, Matched args) (ha : a.args = grouped lists)
    (has : as.map (·.args) = lists.map fun args => grouped [args]) :
    w.parseInput this id a = as.foldlM (fun w a => w.parseInput this id a) w := by
  obtain ⟨groups, -, rfl⟩ := Arguments.exists_subArguments? ha hmatched
  rw [List.map_map] at has
  cases groups with
  | nil => exact absurd rfl hne
  | cons group groups =>
    obtain ⟨first, as, rfl, hfirst, has⟩ := List.map_eq_cons_iff.1 has
    rw [List.foldlM_cons, parseInput_keyLists hi hkind, parseInput_keyLists hi hkind, bind_assoc]
    refine bind_congr fun l => ?_
    rw [editKeyLists_grouped ha, editKeyLists_group hfirst, List.foldlM_cons, bind_assoc,
      bind_assoc]
    refine bind_congr fun l => ?_
    rw [pure_bind]
    exact (foldlM_parseInput_stored hgroups hi hkind has l).symm

end

/-! ## What is read into a key list -/

/-- Some arguments are accepted by an input. -/
def Parses (id : InputId) (w w' : World) : Prop :=
  ∃ this a, (w.parseInput this id a).Gives w'

/-- The input is a key list. Its keys and the entities in its lists are of their classes, and no
list holds an entity twice. -/
def HasKeyLists (w : World) (id : InputId) (keyType valueType : TypeRef)
    (default : List EntityId) : Prop :=
  ∃ i l, w.input? id = some i ∧ i.kind = .keyLists keyType valueType default ∧
    KeyLists.ofInput i = .ok l ∧
    l.Hold (fun e type => w.isInstance e type = true) keyType valueType
      (fun e => w.isInstance e valueType = true) True

/-- **Arguments leave distinct entities of the classes** in the lists of a key list. -/
theorem Parses.hasKeyLists (h : Parses id w w')
    (hw : w.HasKeyLists id keyType valueType default) :
    w'.HasKeyLists id keyType valueType default := by
  obtain ⟨this, a, h⟩ := h
  obtain ⟨i, l, hi, hkind, hl, hold⟩ := hw
  rw [parseInput_keyLists hi hkind, hl] at h
  obtain ⟨_, hpure, h⟩ := h.of_bind
  cases hpure.of_pure
  obtain ⟨l', hedit, h⟩ := h.of_bind
  cases h.of_pure
  have hprovides : w.Provides fun e type => w.isInstance e type = true :=
    ⟨fun _ htype => htype, fun _ _ _ htype => htype⟩
  have hinstance (e : EntityId) (type : TypeRef) :
      (w.store id (.keyLists l')).isInstance e type = w.isInstance e type :=
    (stored_changesOnly w id l').isInstance_eq e type
  refine ⟨w.assigned (.keyLists l') i, l', input?_stored hi l', hkind, rfl, ?_⟩
  simp only [hinstance]
  exact hprovides.editKeyLists (fun _ h => h) hold hedit

/-- **Groups in one keyword do what they do in keywords of their own**, whatever the state of the
key list is: both are refused, with the same failure, or both are accepted, and leave the same
world. A keyword that is refused leaves the world as it was. As long as only arguments are read into
a key list whose default has distinct entities of the class of its values, the same is true of all
of its lists, and its keys are of the class of the keys. It is only asked that the key list is not itself
the list of a group, which is a list of entities (`GroupsListGroups.listsGroups`). -/
theorem keyGroups_oneByOne (hi : w.input? id = some i)
    (hkind : i.kind = .keyLists keyType valueType default)
    (hgroups : ∀ g ∈ w.registered, w.isInstance g groupType = true →
      w.target ⟨g, "List"⟩ ≠ id) :
    (∀ (this : Option EntityId) (lists : List (List String)) (a : Arguments)
        (as : List Arguments), lists ≠ [] → (∀ args ∈ lists, Matched args) →
      a.args = grouped lists → as.map (·.args) = lists.map (fun args => grouped [args]) →
      w.parseInput this id a = as.foldlM (fun w a => w.parseInput this id a) w) ∧
    (∀ (a : Arguments) (items : List Arguments) (log log' : List Warning) (done : List InputId)
        (failure : Failure), a.keyword = id.keyword →
      (w.parseInput (some id.entity) id a).run log = (.error failure, log') →
      (w.applyItems id.entity log done (a :: items)).world = w) ∧
    (KeyLists.ofInput i = .ok ⟨[], default⟩ → default.Nodup →
      (∀ e ∈ default, w.isInstance e valueType = true) →
      ∀ w', Relation.ReflTransGen (Parses id) w w' →
        w'.HasKeyLists id keyType valueType default) := by
  refine ⟨fun this lists a as hne hmatched ha has => ?_, ?_, ?_⟩
  · exact parseInput_groups hgroups hi hkind hne hmatched ha has
  · intro a items log log' done failure hkeyword hparse
    have happly : (w.applyArguments id.entity a).run log =
        (.error (w.inKeyword id.entity a failure), log') := by
      unfold applyArguments
      dsimp only
      rw [hkeyword, hi]
      exact Logged.run_bind (Logged.run_adapt hparse)
    rw [applyItems_of_error happly]
  · intro hl hnodup hdefault w' hrun
    have hstart : w.HasKeyLists id keyType valueType default := by
      refine ⟨i, _, hi, hkind, hl, ?_⟩
      exact ⟨⟨[], rfl, nofun⟩, hdefault, fun _ => hnodup⟩
    induction hrun with
    | refl => exact hstart
    | tail _ hstep ih => exact hstep.hasKeyLists ih

/-- A node with a key list of nodes by group, whose default is the node, and a group. -/
def keyedNode : World :=
  nodeAndGroup.updateEntity ⟨0⟩ fun x => { x with inputs := x.inputs ++ [nodesByGroup [⟨0⟩]] }

/-- The keyword of the key list with some groups. -/
def nodesKeyword (lists : List (List String)) (h : isBalanced (grouped lists) = true) :
    Arguments where
  keyword := "Nodes"
  args := grouped lists
  balanced := h

/-- The list of the group is another input. -/
theorem keyedNode_groups : ∀ g ∈ keyedNode.registered, keyedNode.isInstance g groupType = true →
    keyedNode.target ⟨g, "List"⟩ ≠ ⟨⟨0⟩, "Nodes"⟩ := by
  have hregistered : keyedNode.registered = [⟨0⟩, ⟨1⟩] := rfl
  have hlist : keyedNode.target ⟨⟨1⟩, "List"⟩ = ⟨⟨1⟩, "List"⟩ := rfl
  intro g hg hgroup
  rw [hregistered] at hg
  obtain rfl | hg := List.mem_cons.1 hg
  · cases hgroup
  · rw [List.mem_singleton.1 hg, hlist]
    exact nofun

theorem keyGroups_oneByOne_keyedNode :
    keyedNode.parseInput (some ⟨0⟩) ⟨⟨0⟩, "Nodes"⟩
        (nodesKeyword [["G", "A"], ["--", "A"], []] (by decide)) =
      [nodesKeyword [["G", "A"]] (by decide), nodesKeyword [["--", "A"]] (by decide),
        nodesKeyword [[]] (by decide)].foldlM
        (fun w a => w.parseInput (some ⟨0⟩) ⟨⟨0⟩, "Nodes"⟩ a) keyedNode ∧
    (keyedNode.applyItems ⟨0⟩ [] [] [nodesKeyword [["G", "A"], ["++", "A"]] (by decide)]).world =
      keyedNode ∧
    (keyedNode.store ⟨⟨0⟩, "Nodes"⟩ (.keyLists ⟨Value.keyEntries [(⟨1⟩, [⟨0⟩])], []⟩)).HasKeyLists
      ⟨⟨0⟩, "Nodes"⟩ (.named "EntityGroup") (.named "Node") [⟨0⟩] := by
  have hinput : keyedNode.input? ⟨⟨0⟩, "Nodes"⟩ = some (nodesByGroup [⟨0⟩]) := rfl
  obtain ⟨htogether, hrefused, hread⟩ := keyGroups_oneByOne hinput rfl keyedNode_groups
  have hrefuse : (keyedNode.parseInput (some ⟨0⟩) ⟨⟨0⟩, "Nodes"⟩
      (nodesKeyword [["G", "A"], ["++", "A"]] (by decide))).run [] =
      (.error (.input ⟨.common .notUnique ["A"], none⟩), []) := rfl
  have hparse : (keyedNode.parseInput (some ⟨0⟩) ⟨⟨0⟩, "Nodes"⟩
      (nodesKeyword [["G", "A"], ["--", "A"], []] (by decide))).Gives
      (keyedNode.store ⟨⟨0⟩, "Nodes"⟩ (.keyLists ⟨Value.keyEntries [(⟨1⟩, [⟨0⟩])], []⟩)) :=
    ⟨[], [], rfl⟩
  refine ⟨htogether (some ⟨0⟩) _ _ _ (List.cons_ne_nil _ _) (by decide) rfl rfl, ?_, ?_⟩
  · exact hrefused _ [] [] [] [] _ rfl hrefuse
  · exact hread rfl (List.nodup_singleton _) (List.forall_mem_singleton.2 rfl) _
      (.single ⟨some ⟨0⟩, _, hparse⟩)

end World

end ModelInputs
