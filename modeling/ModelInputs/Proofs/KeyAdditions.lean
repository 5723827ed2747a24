import ModelInputs.Proofs.KeyGroups

/-!
# Additions to the list of a key

A plus sign behind a key, written twice, adds entities to the list that the key has of its own, and
a minus sign takes entities out of it. The list that is found for a key is another one as long as it
has none of its own, since then it is the list for keys without an entry. So an addition to such a
key replaces the list that was found for it, and a removal leaves nothing.

* `World.parseInput_keyGroup`: a group that starts with a key changes the list of this key only;
* `World.editList_plus`, `World.editList_minus`: what the two signs do to a list;
* **`World.keyEdits_listFor`**: the list that is found for a key after the edit, and when it is the
  one that was found before with the entities added to it, or taken out of it;
* **`World.not_forall_additions_kept`**: it is not for a key without a list of its own.
-/

namespace ModelInputs

open Record

namespace KeyLists

variable {l : KeyLists} {k : EntityId}

/-- The list that is found for a key is the one of its own, if there is one. -/
theorem get_of_own (h : (l.own? k).isSome = true) : l.get k = l.ownList k := by
  obtain ⟨v, hv⟩ := Option.isSome_iff_exists.1 h
  rw [get, ownList, hv]

/-- Else it is the list for keys without an entry. -/
theorem get_of_not_own (h : (l.own? k).isSome = false) :
    l.get k = .ok l.keyless ∧ l.ownList k = .ok [] := by
  have hnone := Option.isSome_eq_false_iff.1 h
  rw [get, ownList, Option.isNone_iff_eq_none.1 hnone]
  exact ⟨rfl, rfl⟩

end KeyLists

namespace World

variable {w w' : World} {this : Option EntityId} {id : InputId} {i i' : Input}
  {keyType valueType : TypeRef} {default : List EntityId} {keyword name : String} {k : EntityId}
  {a : Arguments} {names tokens : List String} {l : KeyLists} {es : List EntityId}

/-! ## Edits of one list -/

/-- A plus sign adds what the names stand for. -/
theorem editList_plus {list : Except Failure (List EntityId)}
    (h : (w.editList this keyword valueType list ("++" :: names)).Gives es) :
    ∃ own added, list = .ok own ∧ w.readEntities this valueType true names = .ok added ∧
      es = own ++ added := by
  obtain ⟨own, hown, h⟩ := Logged.gives_ofExcept_bind.1 h
  obtain ⟨added, hadded, h⟩ := Logged.gives_ofExcept_bind.1 h
  exact ⟨own, added, hown, hadded, addToList?_eq_ok h.of_ofInput⟩

/-- A minus sign takes out what the names stand for. -/
theorem editList_minus {list : Except Failure (List EntityId)}
    (h : (w.editList this keyword valueType list ("--" :: names)).Gives es) :
    ∃ own removed, list = .ok own ∧ w.readEntities this valueType true names = .ok removed ∧
      es = own.diff removed := by
  obtain ⟨own, hown, h⟩ := Logged.gives_ofExcept_bind.1 h
  obtain ⟨removed, hremoved, h⟩ := Logged.gives_ofExcept_bind.1 h
  exact ⟨own, removed, hown, hremoved, foldlM_takeFromList_gives h⟩

/-- Nothing is left of a list exactly if all of it is taken out. -/
theorem diff_eq_nil_iff {list removed : List EntityId} :
    list.diff removed = [] ↔ list.Subperm removed := by
  induction removed generalizing list with
  | nil => rw [List.diff_nil, List.subperm_nil]
  | cons e removed ih =>
    rw [List.diff_cons, ih]
    constructor
    · intro h
      exact (List.subperm_cons_erase e list).trans ((List.subperm_cons e).2 h)
    · intro h
      have herase := h.erase e
      rwa [List.erase_cons_head] at herase

/-! ## Edits of the list of a key -/

section

variable (hvalue : i.value = l.toValue) (hkeyless : i.keyless = l.keyless)
include hvalue hkeyless

theorem listFor_eq_get (k : EntityId) : i.listFor k = l.get k := by
  rw [Input.listFor, hvalue, hkeyless]
  rfl

/-- An edit of the list that a key has of its own is one of the list that is found for it, if there
is such a list, or if the list for keys without an entry is edited to what an empty list is. -/
theorem listFor_edited {f : List EntityId → List EntityId} {own : List EntityId}
    (hown : l.ownList k = .ok own) (hedited : i'.listFor k = .ok (f own)) :
    ∃ before, i.listFor k = .ok before ∧
      i'.listFor k = .ok (f (if (l.own? k).isSome then before else [])) ∧
      (i'.listFor k = .ok (f before) ↔ (l.own? k).isSome = true ∨ f l.keyless = f []) := by
  rw [listFor_eq_get hvalue hkeyless, hedited]
  cases h : (l.own? k).isSome with
  | true => exact ⟨own, (KeyLists.get_of_own h).trans hown, rfl, iff_of_true rfl (.inl rfl)⟩
  | false =>
    obtain ⟨hget, hnil⟩ := KeyLists.get_of_not_own h
    cases hown.symm.trans hnil
    refine ⟨l.keyless, hget, rfl, ?_⟩
    rw [or_iff_right Bool.false_ne_true, Except.ok.injEq]
    exact eq_comm

variable (hi : w.input? id = some i) (hkind : i.kind = .keyLists keyType valueType default)
  (hkey : w.keyNamed? this keyType name = some k)
include hi hkind hkey

/-- **A group that starts with a key edits the list that this key has of its own**, and no other
one. -/
theorem parseInput_keyGroup (hmatched : Matched (name :: tokens))
    (ha : a.args = grouped [name :: tokens]) (h : (w.parseInput this id a).Gives w') :
    ∃ es i', (w.editList this i.keyword valueType (l.ownList k) tokens).Gives es ∧
      w'.input? id = some i' ∧ i'.listFor k = .ok es ∧
      ∀ k', k' ≠ k → i'.listFor k' = i.listFor k' := by
  have hlists : KeyLists.ofInput i = .ok l := by
    rw [KeyLists.ofInput, hvalue, hkeyless]
    rfl
  let group : Arguments := ⟨a.keyword, name :: tokens, a.origin, isBalanced_iff.2 hmatched⟩
  have hsingle : w.editKeyLists this i.keyword keyType valueType l a =
      w.editGroup this i.keyword keyType valueType l group :=
    editKeyLists_group ha l
  rw [parseInput_keyLists hi hkind, hlists] at h
  obtain ⟨_, hl, h⟩ := h.of_bind
  cases hl.of_pure
  rw [hsingle, editGroup_of_key hkey rfl, bind_assoc] at h
  obtain ⟨es, hes, h⟩ := h.of_bind
  rw [pure_bind] at h
  cases h.of_pure
  refine ⟨es, _, hes, input?_stored hi _, ?_, fun k' hne => ?_⟩
  · exact (KeyLists.get_put k k es l).trans (if_pos rfl)
  · rw [listFor_eq_get hvalue hkeyless]
    exact (KeyLists.get_put k k' es l).trans (if_neg hne)

/-- **An addition is one to the list that was found for the key** exactly if the key has a list of
its own, or the list for keys without an entry is empty. Else the entities that are added replace
what was found. Likewise a removal leaves the list that was found without the entities exactly if
the key has a list of its own, or these entities are all that was found, and else it leaves nothing.
The lists of all other keys stay. -/
theorem keyEdits_listFor :
    (∀ (a : Arguments) (names : List String) (w' : World), Matched (name :: "++" :: names) →
      a.args = grouped [name :: "++" :: names] → (w.parseInput this id a).Gives w' →
      ∃ i' before added, w'.input? id = some i' ∧ i.listFor k = .ok before ∧
        w.readEntities this valueType true names = .ok added ∧
        (∀ k', k' ≠ k → i'.listFor k' = i.listFor k') ∧
        i'.listFor k = .ok ((if (l.own? k).isSome then before else []) ++ added) ∧
        (i'.listFor k = .ok (before ++ added) ↔ (l.own? k).isSome = true ∨ l.keyless = [])) ∧
    (∀ (a : Arguments) (names : List String) (w' : World), Matched (name :: "--" :: names) →
      a.args = grouped [name :: "--" :: names] → (w.parseInput this id a).Gives w' →
      ∃ i' before removed, w'.input? id = some i' ∧ i.listFor k = .ok before ∧
        w.readEntities this valueType true names = .ok removed ∧
        (∀ k', k' ≠ k → i'.listFor k' = i.listFor k') ∧
        i'.listFor k = .ok ((if (l.own? k).isSome then before else []).diff removed) ∧
        (i'.listFor k = .ok (before.diff removed) ↔
          (l.own? k).isSome = true ∨ l.keyless.Subperm removed)) := by
  constructor
  · intro a names w' hmatched ha h
    obtain ⟨es, i', hes, hi', hlist, hothers⟩ :=
      parseInput_keyGroup hvalue hkeyless hi hkind hkey hmatched ha h
    obtain ⟨own, added, hown, hadded, rfl⟩ := editList_plus hes
    obtain ⟨before, hbefore, hafter, hiff⟩ :=
      listFor_edited (f := (· ++ added)) hvalue hkeyless hown hlist
    rw [List.nil_append, List.append_left_eq_self] at hiff
    exact ⟨i', before, added, hi', hbefore, hadded, hothers, hafter, hiff⟩
  · intro a names w' hmatched ha h
    obtain ⟨es, i', hes, hi', hlist, hothers⟩ :=
      parseInput_keyGroup hvalue hkeyless hi hkind hkey hmatched ha h
    obtain ⟨own, removed, hown, hremoved, rfl⟩ := editList_minus hes
    obtain ⟨before, hbefore, hafter, hiff⟩ :=
      listFor_edited (f := (·.diff removed)) hvalue hkeyless hown hlist
    rw [List.nil_diff, diff_eq_nil_iff] at hiff
    exact ⟨i', before, removed, hi', hbefore, hremoved, hothers, hafter, hiff⟩

end

/-! ## A group with two nodes -/

/-- The node with the key list, the group and one more node. -/
def keyedNodes : World :=
  { keyedNode with
    entities := keyedNode.entities ++
      [{ name := "B"
         className := "Node"
         inNamespace := true
         inputs := groupsAndNodes.inputs "Node" }]
    registry := keyedNode.registry ++ [("B", ⟨2⟩)] }

/-- Lists of the first node, for the group and for all other keys. -/
def groupLists : KeyLists where
  entries := Value.keyEntries [(⟨1⟩, [⟨0⟩])]
  keyless := [⟨0⟩]

/-- The nodes with the key list set to these lists. -/
def nodesListed : World :=
  keyedNodes.store ⟨⟨0⟩, "Nodes"⟩ (.keyLists groupLists)

/-- The keyword that adds the second node to the list of the group. -/
def plusB : Arguments :=
  nodesKeyword [["G", "++", "B"]] (by decide)

/-- The keyword that takes the first node out of it. -/
def minusA : Arguments :=
  nodesKeyword [["G", "--", "A"]] (by decide)

theorem keyEdits_listFor_nodesListed :
    (∃ w' i', (nodesListed.parseInput (some ⟨0⟩) ⟨⟨0⟩, "Nodes"⟩ plusB).Gives w' ∧
      w'.input? ⟨⟨0⟩, "Nodes"⟩ = some i' ∧ i'.listFor ⟨1⟩ = .ok [⟨0⟩, ⟨2⟩]) ∧
    ∃ w' i', (nodesListed.parseInput (some ⟨0⟩) ⟨⟨0⟩, "Nodes"⟩ minusA).Gives w' ∧
      w'.input? ⟨⟨0⟩, "Nodes"⟩ = some i' ∧ i'.listFor ⟨1⟩ = .ok [] := by
  have hi : nodesListed.input? ⟨⟨0⟩, "Nodes"⟩ =
      some (keyedNodes.assigned (.keyLists groupLists) (nodesByGroup [⟨0⟩])) :=
    input?_stored rfl groupLists
  have hkey : nodesListed.keyNamed? (some ⟨0⟩) (.named "EntityGroup") "G" = some ⟨1⟩ := rfl
  have hplus : (nodesListed.parseInput (some ⟨0⟩) ⟨⟨0⟩, "Nodes"⟩ plusB).Gives
      (nodesListed.store ⟨⟨0⟩, "Nodes"⟩ (.keyLists (groupLists.put ⟨1⟩ [⟨0⟩, ⟨2⟩]))) :=
    ⟨[], [], rfl⟩
  have hminus : (nodesListed.parseInput (some ⟨0⟩) ⟨⟨0⟩, "Nodes"⟩ minusA).Gives
      (nodesListed.store ⟨⟨0⟩, "Nodes"⟩ (.keyLists (groupLists.put ⟨1⟩ []))) :=
    ⟨[], [], rfl⟩
  obtain ⟨hadd, hremove⟩ := keyEdits_listFor (l := groupLists) rfl rfl hi rfl hkey
  constructor
  · obtain ⟨i', _, _, hi', hbefore, hadded, -, -, hiff⟩ := hadd plusB _ _ (by decide) rfl hplus
    cases hbefore
    cases hadded
    exact ⟨_, i', hplus, hi', hiff.2 (.inl rfl)⟩
  · obtain ⟨i', _, _, hi', hbefore, hremoved, -, -, hiff⟩ :=
      hremove minusA _ _ (by decide) rfl hminus
    cases hbefore
    cases hremoved
    exact ⟨_, i', hminus, hi', hiff.2 (.inl rfl)⟩

/-- What is added to the list of a key does not always follow what was found for it before. -/
theorem not_forall_additions_kept :
    ¬ ∀ (w w' : World) (this : Option EntityId) (id : InputId) (i i' : Input)
      (keyType valueType : TypeRef) (default : List EntityId) (name : String) (k : EntityId)
      (a : Arguments) (names : List String) (before added : List EntityId),
      w.input? id = some i → i.kind = .keyLists keyType valueType default →
      w.keyNamed? this keyType name = some k → Matched (name :: "++" :: names) →
      a.args = grouped [name :: "++" :: names] → (w.parseInput this id a).Gives w' →
      w'.input? id = some i' → i.listFor k = .ok before →
      w.readEntities this valueType true names = .ok added →
      i'.listFor k = .ok (before ++ added) := by
  intro h
  have hparse : (keyedNodes.parseInput (some ⟨0⟩) ⟨⟨0⟩, "Nodes"⟩ plusB).Gives
      (keyedNodes.store ⟨⟨0⟩, "Nodes"⟩
        (.keyLists ⟨Value.keyEntries [(⟨1⟩, [⟨2⟩])], [⟨0⟩]⟩)) :=
    ⟨[], [], rfl⟩
  have hkept := h keyedNodes _ (some ⟨0⟩) _ _ _ _ _ _ "G" ⟨1⟩ plusB ["B"] [⟨0⟩] [⟨2⟩] rfl rfl rfl
    (by decide) rfl hparse rfl rfl rfl
  cases hkept

end World

end ModelInputs
