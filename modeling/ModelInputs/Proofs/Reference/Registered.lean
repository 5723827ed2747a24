import ModelInputs.Proofs.Reference.Providing
import ModelInputs.Proofs.Run.WellFormed

/-!
# Entities that are read are registered

Arguments are read into entities that are registered and of the classes and interfaces that are
asked for, also where a name stands for the members of a group, and into lists without repetitions
where these are asked for.

* `World.Meets`: an entity is registered, and of a class;
* `World.GroupsMeet`: the members of groups are registered;
* **`World.readArguments_holds`**, **`World.editKeyLists_holds`**: what arguments give;
* **`World.readKind_holds`**: what they assign.
-/

namespace ModelInputs

namespace World

/-- The entity is registered, and of a class or of one that implements an interface. -/
def Meets (w : World) (e : EntityId) (type : TypeRef) : Prop :=
  e ∈ w.registered ∧ w.isInstance e type = true

/-- The members of groups that are registered are registered too. -/
def GroupsMeet (w : World) : Prop :=
  ∀ g ∈ w.registered, w.isInstance g groupType = true → ∀ vs, w.members g = .ok vs →
    ∀ e, Value.entity e ∈ vs → e ∈ w.registered

variable {w : World} {this : Option EntityId} {type : TypeRef} {name : String} {e : EntityId}

/-! ## Names -/

theorem mem_registered_of_named? (h : w.named? name = some e) : e ∈ w.registered :=
  mem_registered.2 ⟨name, mem_registry_of_named? h⟩

theorem StandsFor.mem_registered (hg : w.GroupsMeet) {es : List EntityId}
    (h : w.StandsFor type name es) : ∀ e ∈ es, e ∈ w.registered := by
  obtain ⟨g, hname, hexpand⟩ := h
  have hregistered := mem_registered_of_named? hname
  intro e he
  have hmem : Value.entity e ∈ es.map Value.entity := List.mem_map_of_mem he
  unfold expand at hexpand
  split at hexpand
  · next hgroup =>
    exact hg g hregistered (Bool.and_eq_true_iff.1 hgroup).1 _ hexpand e hmem
  · rw [← Except.ok.inj hexpand] at hmem
    rw [Value.entity.inj (List.mem_singleton.1 hmem)]
    exact hregistered

/-- What names stand for is registered. -/
theorem GroupsMeet.provides (hg : w.GroupsMeet) : w.Provides w.Meets where
  named hname htype := ⟨mem_registered_of_named? hname, htype⟩
  groups hstands e he htype := ⟨hstands.mem_registered hg e he, htype⟩

/-! ## Arguments -/

/-- **The entities that arguments give an input are registered and as it asks them to be.** -/
theorem readArguments_holds (hg : w.GroupsMeet) {i : Input} {a : Arguments} {v : Value}
    (h : (w.readArguments this i a).Gives v) : i.kind.Holds w.Meets v :=
  hg.provides.readArguments h

/-- The keys and the lists of a key list are as they should be. -/
structure KeyListsHold (w : World) (keyType valueType : TypeRef) (l : KeyLists) : Prop where
  entries : ∃ lists, l.entries = Value.keyEntries lists ∧ ∀ entry ∈ lists,
    w.Meets entry.1 keyType ∧ (∀ e ∈ entry.2, w.Meets e valueType) ∧ entry.2.Nodup
  keyless : ∀ e ∈ l.keyless, w.Meets e valueType
  nodup_keyless : l.keyless.Nodup

variable {keyType valueType : TypeRef} {l l' : KeyLists} {keyword : String}

/-- **Edits of a key list leave keys and lists as they should be.** -/
theorem editKeyLists_holds (hg : w.GroupsMeet) {a : Arguments}
    (hl : w.KeyListsHold keyType valueType l)
    (h : (w.editKeyLists this keyword keyType valueType l a).Gives l') :
    w.KeyListsHold keyType valueType l' := by
  have hold : l.Hold w.Meets keyType valueType (w.Meets · valueType) True :=
    ⟨hl.entries, hl.keyless, fun _ => hl.nodup_keyless⟩
  obtain ⟨hentries, hkeyless, hnodup⟩ := hg.provides.editKeyLists (fun _ => id) hold h
  exact ⟨hentries, hkeyless, hnodup trivial⟩

/-! ## Assignments -/

/-- What an assignment sets an input of a kind to is as it should be. -/
inductive AssignmentHolds (w : World) (kind : InputKind) : Assignment → Prop where
  | value {v : Value} : kind.Holds w.Meets v → AssignmentHolds w kind (.value v)
  | keyLists {lists : KeyLists} :
    kind.Holds w.Meets lists.toValue → (∀ e ∈ lists.keyless, w.Meets e kind.itemType) →
    lists.keyless.Nodup → AssignmentHolds w kind (.keyLists lists)
  | attributes {e : EntityId} {definitions : List Attribute} :
    AssignmentHolds w kind (.attributes e definitions)
  | customOutputs {e : EntityId} {outputs : List CustomOutput} :
    AssignmentHolds w kind (.customOutputs e outputs)
  | nothing : AssignmentHolds w kind .nothing

/-- **What arguments assign is as it should be**, where the input is so already. -/
theorem readKind_holds (hg : w.GroupsMeet) {i : Input} {a : Arguments} {assignment : Assignment}
    (hi : i.Suited) (hholds : i.Holds w.Meets) (h : (w.readKind this i a).Gives assignment) :
    w.AssignmentHolds i.kind assignment := by
  cases assigns_of_gives h with
  | value hread => exact .value (readArguments_holds hg hread)
  | @keyLists keyType valueType _ l _ hk hl hedited =>
    have hkeyList : i.kind.isKeyList = true := by rw [hk]; rfl
    obtain ⟨entries, hvalue⟩ := hi.keyLists hkeyList
    obtain ⟨hstored, hkeyless, hnodup⟩ := hholds
    rw [Input.stored_of_isKeyList hkeyList, hvalue, hk, InputKind.holds_keyEntries_iff] at hstored
    rw [hk] at hkeyless
    have hstart : w.KeyListsHold keyType valueType l := by
      rw [KeyLists.ofInput, hvalue, Value.asEntries_map] at hl
      cases hl
      exact ⟨⟨entries, rfl, hstored⟩, hkeyless, hnodup⟩
    obtain ⟨⟨entries', hentries', hall⟩, hkeyless', hnodup'⟩ := editKeyLists_holds hg hstart hedited
    rw [hk]
    refine .keyLists ?_ hkeyless' hnodup'
    rw [KeyLists.toValue, hentries', InputKind.holds_keyEntries_iff]
    exact hall
  | attributes => exact .attributes
  | customOutputs => exact .customOutputs
  | nothing => exact .nothing

end World

end ModelInputs
