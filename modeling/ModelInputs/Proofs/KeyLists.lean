import Mathlib.Data.Fintype.EquivFin
import ModelInputs.Proofs.Change.Frame
import ModelInputs.Proofs.Integrity
import ModelInputs.Proofs.Reading.Warnings
import ModelInputs.Proofs.Reference.KeyTexts

/-!
# Key lists come back from their text

A key list is edited by groups of names, and loses the entities to which references are removed.
Whatever has happened to it, its keys are different ones, and the list of each is one that it would
accept. So the text of a key list gives the lists of all its keys to a new input of the same
definition. The list for keys without an entry may be lost: a list that has been emptied is not
written, so the default of the new input applies again; nothing at all is written of a key list that
is not set, even if its default has lost an entity; and a list that starts with an entity of the
class of the keys is read as the list of that key.

* **`World.Keyed.editKeyLists`**: edits leave the lists of different keys, each of them accepted;
* `World.KeyListStep`, `World.KeyListState`: accepted arguments and removals of references, and the
  states that they lead to, **`World.KeyListStep.state`**;
* `World.ListsComeBack`: the text is accepted by a new input, whose lists are the same;
* `World.KeylessComesBack`, `World.comeBack_iff`: what the text says of the keys without an entry;
* **`World.keyLists_comeBack_iff`**: when all lists come back;
* **`World.not_forall_lists_comeBack`**: they do not where the default has been taken out.
-/

namespace ModelInputs

namespace Value

/-- Putting in a list leaves the keys, and adds its key where it is a new one. -/
theorem map_fst_put (key : EntityId) (v : Value) (entries : List (Value × Value)) :
    (put (entity key) v entries).map (·.1) = entries.map (·.1) ∨
      entity key ∉ entries.map (·.1) ∧
        (put (entity key) v entries).map (·.1) = entries.map (·.1) ++ [entity key] := by
  induction entries with
  | nil => exact .inr ⟨List.not_mem_nil, rfl⟩
  | cons entry entries ih =>
    obtain ⟨k, old⟩ := entry
    rw [put, sameLeaf_entity, List.map_cons]
    by_cases hk : k = entity key
    · rw [if_pos (isEntity_iff.2 hk)]
      exact .inl rfl
    · rw [if_neg fun h => hk (isEntity_iff.1 h), List.map_cons]
      obtain hsame | ⟨hnew, hadded⟩ := ih
      · exact .inl (congrArg (k :: ·) hsame)
      · refine .inr ⟨fun hmem => ?_, congrArg (k :: ·) hadded⟩
        exact hnew ((List.mem_cons.1 hmem).resolve_left (Ne.symm hk))

theorem map_fst_keyEntries (lists : List (EntityId × List EntityId)) :
    (keyEntries lists).map (·.1) = (lists.map (·.1)).map entity := by
  rw [keyEntries, List.map_map, List.map_map]
  rfl

/-- Different keys stay different when a list is put in. -/
theorem nodup_keys_put {key : EntityId} {es : List EntityId}
    {lists lists' : List (EntityId × List EntityId)} (hlists : (lists.map (·.1)).Nodup)
    (h : put (entity key) (ofEntities es) (keyEntries lists) = keyEntries lists') :
    (lists'.map (·.1)).Nodup := by
  have hkeys (ks : List EntityId) : (ks.map entity).Nodup ↔ ks.Nodup :=
    List.nodup_map_iff fun _ _ => entity.inj
  rw [← hkeys, ← map_fst_keyEntries] at hlists ⊢
  rw [← h]
  obtain hsame | ⟨hnew, hadded⟩ := map_fst_put key (ofEntities es) (keyEntries lists)
  · rwa [hsame]
  · rw [hadded, ← List.concat_eq_append]
    exact hlists.concat hnew

end Value

namespace World

variable {w : World} {this : Option EntityId} {keyType valueType : TypeRef} {keyword : String}
  {default : List EntityId} {lists : List (EntityId × List EntityId)} {l l' : KeyLists}
  {fresh i i' : Input}

/-! ## Edits -/

/-- What an edit of a list leaves is a list that is accepted. -/
theorem takesList_editList (hns : w.hasNamespace this = true)
    {before : Except Failure (List EntityId)} {tokens : List String} {es : List EntityId}
    (hbefore : ∀ list, before = .ok list →
      (∀ e ∈ list, w.isInstance e valueType = true) ∧ list.Nodup)
    (h : (w.editList this keyword valueType before tokens).Gives es) :
    w.TakesList this valueType es := by
  have hprovides : w.Provides fun e type => w.isInstance e type = true :=
    ⟨fun _ htype => htype, fun _ _ _ htype => htype⟩
  have hdistinct : ∀ list, before = .ok list →
      (∀ e ∈ list, w.isInstance e valueType = true) ∧ (True → list.Nodup) :=
    fun list hlist => (hbefore list hlist).imp_right fun hnodup _ => hnodup
  obtain ⟨hinstances, hnodup⟩ := hprovides.editList (fun _ => id) hdistinct h
  exact ⟨hns, hinstances, hnodup trivial⟩

/-- The list that a key has of its own is one that is accepted. -/
theorem Keyed.ownList (hl : w.Keyed this keyType valueType lists) {key : EntityId}
    {keyless list : List EntityId}
    (h : KeyLists.ownList ⟨Value.keyEntries lists, keyless⟩ key = .ok list) :
    (∀ e ∈ list, w.isInstance e valueType = true) ∧ list.Nodup := by
  rw [KeyLists.ownList, KeyLists.own?_keyEntries] at h
  cases hfind : lists.find? (·.1 == key) with
  | none =>
    rw [hfind] at h
    cases h
    exact ⟨nofun, List.nodup_nil⟩
  | some entry =>
    rw [hfind] at h
    have htakes := hl.takes entry (List.mem_of_find?_eq_some hfind)
    cases (KeyLists.entitiesOf_ofEntities entry.2).symm.trans h
    exact ⟨htakes.instances, htakes.nodup⟩

/-- Lists by key after the edit of one group. -/
theorem Keyed.editGroup (hw : w.Faithful) (hl : w.Keyed this keyType valueType lists)
    {keyless : List EntityId} {group : Arguments}
    (h : (w.editGroup this keyword keyType valueType ⟨Value.keyEntries lists, keyless⟩ group).Gives
      l') :
    ∃ lists', l'.entries = Value.keyEntries lists' ∧ w.Keyed this keyType valueType lists' := by
  unfold World.editGroup at h
  split at h
  · cases h.of_pure
    exact ⟨lists, rfl, hl⟩
  split at h
  · next name _ _ key hkey =>
    obtain ⟨es, hes, h⟩ := h.of_bind
    cases h.of_pure
    obtain ⟨hns, hnamed, hinstance⟩ := keyNamed?_eq_some.1 hkey
    have hfound : w.keyNamed? this keyType (w.nameOf key) = some key := by
      refine keyNamed?_eq_some.2 ⟨hns, ?_, hinstance⟩
      exact hw.named?_nameOf (mem_registered_of_named? hnamed)
    have htakes := takesList_editList hns (fun _ => hl.ownList) hes
    obtain ⟨lists', hput, hmem⟩ := Value.put_keyEntries key es lists
    refine ⟨lists', hput, Value.nodup_keys_put hl.nodup hput, fun entry hentry => ?_,
      fun entry hentry => ?_⟩
    · obtain rfl | hold := hmem entry hentry
      · exact hfound
      · exact hl.found entry hold
    · obtain rfl | hold := hmem entry hentry
      · exact htakes
      · exact hl.takes entry hold
  · obtain ⟨es, -, h⟩ := h.of_bind
    cases h.of_pure
    exact ⟨lists, rfl, hl⟩

/-- **Edits leave the lists of different keys**, each of which is accepted. -/
theorem Keyed.editKeyLists (hw : w.Faithful) (hl : w.Keyed this keyType valueType lists)
    {keyless : List EntityId} {a : Arguments}
    (h : (w.editKeyLists this keyword keyType valueType ⟨Value.keyEntries lists, keyless⟩ a).Gives
      l') :
    ∃ lists', l'.entries = Value.keyEntries lists' ∧ w.Keyed this keyType valueType lists' := by
  obtain ⟨groups, -, h⟩ := h.of_bind
  refine h.foldlM_induction (P := fun l => ∃ lists, l.entries = Value.keyEntries lists ∧
    w.Keyed this keyType valueType lists) ⟨lists, rfl, hl⟩ ?_
  rintro ⟨_, _⟩ group l' ⟨lists, rfl, hl⟩ h
  exact hl.editGroup hw h

/-- What arguments assign to a key list. -/
theorem readKind_keyLists (hkind : i.kind = .keyLists keyType valueType default)
    (a : Arguments) :
    w.readKind this i a = (do
      let l ← Logged.ofExcept (KeyLists.ofInput i)
      return .keyLists (← w.editKeyLists this i.keyword keyType valueType l a)) := by
  unfold readKind
  rw [hkind]

/-! ## Steps -/

/-- What can happen to a key list of an entity: arguments are accepted, or references to some entity
are removed. -/
inductive KeyListStep (w : World) (this : Option EntityId) (i : Input) : Input → Prop where
  | parse {a : Arguments} {assignment : Assignment} :
    (w.readKind this i a).Gives assignment → KeyListStep w this i (w.assigned assignment i)
  | remove {e : EntityId} {i' : Input} {changed : Bool} :
    i.removeReferences e = .ok (i', changed) → KeyListStep w this i i'

/-- The state of a key list: its lists by key are as edits leave them, and there are none while it
is not set. -/
structure KeyListState (w : World) (this : Option EntityId) (keyType valueType : TypeRef)
    (default : List EntityId) (i : Input) (lists : List (EntityId × List EntityId)) : Prop where
  kind : i.kind = .keyLists keyType valueType default
  value : i.value = .map (Value.keyEntries lists)
  keyed : w.Keyed this keyType valueType lists
  unset : i.isDefault = true → lists = []

/-- A key list that is not set. -/
theorem keyListState_reset (hkind : i.kind = .keyLists keyType valueType default)
    (hreset : i.reset = i) : w.KeyListState this keyType valueType default i [] where
  kind := hkind
  value := by
    rw [← hreset]
    change Input.unsetValue i.kind = _
    rw [hkind]
    rfl
  keyed := ⟨List.nodup_nil, nofun, nofun⟩
  unset _ := rfl

/-- The lists by key without an entity are as edits leave them. -/
theorem Keyed.listsWithout (hl : w.Keyed this keyType valueType lists) (e : EntityId) :
    w.Keyed this keyType valueType (Value.listsWithout e lists) := by
  have hkeys : (Value.listsWithout e lists).map (·.1) = (lists.filter (·.1 != e)).map (·.1) := by
    rw [Value.listsWithout, List.map_map]
    rfl
  have hmem : ∀ entry ∈ Value.listsWithout e lists,
      ∃ old ∈ lists, entry = (old.1, old.2.filter (· != e)) := by
    intro entry hentry
    obtain ⟨old, hold, rfl⟩ := List.mem_map.1 hentry
    exact ⟨old, (List.mem_filter.1 hold).1, rfl⟩
  refine ⟨?_, fun entry hentry => ?_, fun entry hentry => ?_⟩
  · rw [hkeys]
    exact hl.nodup.sublist (List.filter_sublist.map _)
  · obtain ⟨old, hold, rfl⟩ := hmem entry hentry
    exact hl.found old hold
  · obtain ⟨old, hold, rfl⟩ := hmem entry hentry
    have htakes := hl.takes old hold
    exact ⟨htakes.hasNamespace, fun y hy => htakes.instances y (List.mem_filter.1 hy).1,
      htakes.nodup.filter _⟩

/-- **Every step leaves the lists of different keys**, each of them accepted. -/
theorem KeyListStep.state (hw : w.Faithful)
    (hi : w.KeyListState this keyType valueType default i lists) (h : w.KeyListStep this i i') :
    ∃ lists', w.KeyListState this keyType valueType default i' lists' := by
  cases h with
  | @parse a assignment h =>
    rw [readKind_keyLists hi.kind] at h
    obtain ⟨l, hl, h⟩ := Logged.gives_ofExcept_bind.1 h
    have hentries : l = ⟨Value.keyEntries lists, i.keyless⟩ := by
      rw [KeyLists.ofInput, hi.value] at hl
      exact (Except.ok.inj hl).symm
    obtain ⟨l', hl', h⟩ := h.of_bind
    cases h.of_pure
    subst hentries
    obtain ⟨lists', hlists', hkeyed⟩ := hi.keyed.editKeyLists hw hl'
    refine ⟨lists', hi.kind, congrArg Value.map hlists', hkeyed, fun hdefault => ?_⟩
    exact absurd hdefault Bool.false_ne_true
  | @remove e _ _ h =>
    unfold Input.removeReferences at h
    rw [hi.kind, hi.value] at h
    dsimp only [Value.asEntries] at h
    rw [ok_bind, Input.dropEntries_keyEntries, ok_bind] at h
    cases h
    refine ⟨Value.listsWithout e lists, rfl, rfl, hi.keyed.listsWithout e, fun hdefault => ?_⟩
    rw [hi.unset hdefault]
    rfl

/-- **Whatever happens to a key list**, its lists by key are as edits leave them. -/
theorem keyListState_of_run (hw : w.Faithful)
    (hkind : fresh.kind = .keyLists keyType valueType default) (hreset : fresh.reset = fresh)
    (h : Relation.ReflTransGen (w.KeyListStep this) fresh i) :
    ∃ lists, w.KeyListState this keyType valueType default i lists := by
  induction h with
  | refl => exact ⟨[], keyListState_reset hkind hreset⟩
  | tail _ hstep ih =>
    obtain ⟨lists, hi⟩ := ih
    exact hstep.state hw hi

/-! ## The lists again -/

/-- The text of a key list is accepted by a new input of its definition, and then all keys have the
lists that they have in the key list. -/
def ListsComeBack (w : World) (this : Option EntityId) (fresh i : Input) : Prop :=
  ∃ text a l, w.valueText i = .ok text ∧
    Arguments.make? fresh.keyword (Record.tokenize text) = .ok a ∧
    (w.readKind this fresh a).Gives (.keyLists l) ∧
    ∀ k, ∃ list, i.listFor k = .ok list ∧ (w.assigned (.keyLists l) fresh).listFor k = .ok list

/-- The list for keys without an entry comes back: one that is empty if the default is, and any
other one if the input accepts it, unless it starts with an entity that may be a key. That is taken
for the key of the other entities, which goes unnoticed only if the key has a list of its own, and
the list is the default that applies anyway. -/
def KeylessComesBack (w : World) (this : Option EntityId) (keyType valueType : TypeRef)
    (default : List EntityId) (l : KeyLists) : Prop :=
  match l.keyless with
  | [] => default = []
  | first :: others =>
    if w.isInstance first keyType then
      default = first :: others ∧ (l.own? first).isSome = true ∧ w.TakesList this valueType others
    else w.TakesList this valueType (first :: others)

theorem exists_key_not_mem (keys : List EntityId) : ∃ k, k ∉ keys := by
  have hinfinite : Infinite EntityId :=
    .of_injective EntityId.mk fun _ _ h => congrArg EntityId.index h
  obtain ⟨k, hk⟩ := Infinite.exists_notMem_finset keys.toFinset
  exact ⟨k, fun hmem => hk (List.mem_toFinset.2 hmem)⟩

/-- Lists for keys without an entry are the same if no key sees a difference. -/
theorem forall_ownOr_eq_iff {other other' : List EntityId} :
    (∀ k, KeyLists.ownOr lists other k = KeyLists.ownOr lists other' k) ↔ other = other' := by
  constructor
  · intro h
    obtain ⟨k, hk⟩ := exists_key_not_mem (lists.map (·.1))
    rw [← KeyLists.ownOr_of_not_mem hk other, h k, KeyLists.ownOr_of_not_mem hk]
  · rintro rfl _
    rfl

/-- A list that is taken for that of its first entity goes unnoticed only if that entity has a list
anyway, and the default is the whole list. -/
theorem forall_ownOr_ite_iff {first : EntityId} {others : List EntityId} :
    (∀ k, KeyLists.ownOr lists (if k = first then others else default) k =
      KeyLists.ownOr lists (first :: others) k) ↔
      default = first :: others ∧ first ∈ lists.map (·.1) := by
  constructor
  · intro h
    obtain ⟨k, hk⟩ := exists_key_not_mem (first :: lists.map (·.1))
    obtain ⟨hne, hk⟩ := not_or.1 (mt List.mem_cons.2 hk)
    refine ⟨?_, Classical.byContradiction fun hfirst => ?_⟩
    · have hsame := h k
      rwa [if_neg hne, KeyLists.ownOr_of_not_mem hk, KeyLists.ownOr_of_not_mem hk] at hsame
    · have hsame := h first
      rw [if_pos rfl, KeyLists.ownOr_of_not_mem hfirst, KeyLists.ownOr_of_not_mem hfirst] at hsame
      exact absurd (congrArg List.length hsame) (by simp)
  · rintro ⟨rfl, hfirst⟩ k
    by_cases hk : k = first
    · subst hk
      exact KeyLists.ownOr_of_mem hfirst _ _
    · rw [if_neg hk]

section

variable {keyless others : List EntityId} {first : EntityId} {a : Arguments}

/-- An empty list is not written, so it comes back if the default is empty. -/
theorem comeBack_nil (hw : w.Faithful) (hkeyed : w.Keyed this keyType valueType lists)
    (hmean : w.ListsMean valueType [] lists)
    (hargs : a.args = Record.grouped (w.keyGroups [] lists)) :
    (∃ l, (w.editKeyLists this keyword keyType valueType ⟨[], default⟩ a).Gives l ∧
      ∀ k, l.get k = .ok (KeyLists.ownOr lists [] k)) ↔ default = [] := by
  simp only [gives_editKeyLists_nil hw hkeyed hmean hargs, exists_eq_left]
  rw [KeyLists.forall_get_putAll_iff hkeyed.nodup fun _ => rfl, forall_ownOr_eq_iff]

/-- A list that starts with a key becomes the list of that key, and the default stays. -/
theorem comeBack_keyed (hw : w.Faithful) (hkeyed : w.Keyed this keyType valueType lists)
    (hmean : w.ListsMean valueType (first :: others) lists)
    (hargs : a.args = Record.grouped (w.keyGroups (first :: others) lists))
    (hkey : w.keyNamed? this keyType (w.nameOf first) = some first) :
    (∃ l, (w.editKeyLists this keyword keyType valueType ⟨[], default⟩ a).Gives l ∧
      ∀ k, l.get k = .ok (KeyLists.ownOr lists (first :: others) k)) ↔
      default = first :: others ∧ first ∈ lists.map (·.1) ∧ w.TakesList this valueType others := by
  have hput (k : EntityId) : (KeyLists.put first others ⟨[], default⟩).get k =
      .ok (if k = first then others else default) := by
    rw [KeyLists.get_put]
    split <;> rfl
  simp only [gives_editKeyLists_keyed hw hkeyed hmean hargs hkey, and_assoc, exists_and_left,
    exists_eq_left]
  rw [KeyLists.forall_get_putAll_iff hkeyed.nodup hput, forall_ownOr_ite_iff, and_comm, and_assoc]

/-- Any other list comes back if it is accepted. -/
theorem comeBack_keyless (hw : w.Faithful) (hkeyed : w.Keyed this keyType valueType lists)
    (hmean : w.ListsMean valueType (first :: others) lists)
    (hargs : a.args = Record.grouped (w.keyGroups (first :: others) lists))
    (hkey : w.keyNamed? this keyType (w.nameOf first) = none) :
    (∃ l, (w.editKeyLists this keyword keyType valueType ⟨[], default⟩ a).Gives l ∧
      ∀ k, l.get k = .ok (KeyLists.ownOr lists (first :: others) k)) ↔
      w.TakesList this valueType (first :: others) := by
  simp only [gives_editKeyLists_keyless hw hkeyed hmean hargs hkey, and_assoc, exists_and_left,
    exists_eq_left]
  rw [KeyLists.forall_get_putAll_iff hkeyed.nodup fun _ => rfl]
  exact and_iff_left fun _ => rfl

/-- **The text gives the lists again** exactly if the list for keys without an entry comes back. -/
theorem comeBack_iff (hw : w.Faithful) (hkeyed : w.Keyed this keyType valueType lists)
    (hmean : w.ListsMean valueType keyless lists)
    (hargs : a.args = Record.grouped (w.keyGroups keyless lists)) :
    (∃ l, (w.editKeyLists this keyword keyType valueType ⟨[], default⟩ a).Gives l ∧
      ∀ k, l.get k = .ok (KeyLists.ownOr lists keyless k)) ↔
      w.KeylessComesBack this keyType valueType default ⟨Value.keyEntries lists, keyless⟩ := by
  cases keyless with
  | nil => exact comeBack_nil hw hkeyed hmean hargs
  | cons first others =>
    have hnamed := hw.named?_nameOf (hmean.keyless first (.head _)).registered
    rw [KeylessComesBack]
    dsimp only
    rw [KeyLists.isSome_own?_keyEntries]
    cases hkey : w.keyNamed? this keyType (w.nameOf first) with
    | some key =>
      obtain ⟨-, hkeyNamed, hinstance⟩ := keyNamed?_eq_some.1 hkey
      cases hnamed.symm.trans hkeyNamed
      rw [if_pos hinstance]
      exact comeBack_keyed hw hkeyed hmean hargs hkey
    | none =>
      rw [comeBack_keyless hw hkeyed hmean hargs hkey]
      split
      · next hinstance =>
        -- the first entity would be a key if names were found at all
        have hns : ¬ w.hasNamespace this = true := fun hns => by
          rw [keyNamed?_eq_some.2 ⟨hns, hnamed, hinstance⟩] at hkey
          cases hkey
        exact iff_of_false (fun h => hns h.hasNamespace) fun h => hns h.2.2.hasNamespace
      · rfl

end

section

variable (hi : w.KeyListState this keyType valueType default i lists)
include hi

theorem KeyListState.listFor (k : EntityId) :
    i.listFor k = .ok (KeyLists.ownOr lists i.keyless k) := by
  rw [Input.listFor, hi.value]
  exact KeyLists.get_keyEntries k

/-- What all entities in lists of keys are, those of the list of each key and those of the list for
keys without an entry are. -/
theorem KeyListState.listsMean
    (hmean : ∀ k list, i.listFor k = .ok list → ∀ e ∈ list, w.MeansItself valueType e) :
    w.ListsMean valueType i.keyless lists := by
  constructor
  · obtain ⟨k, hk⟩ := exists_key_not_mem (lists.map (·.1))
    exact hmean k i.keyless ((hi.listFor k).trans (by rw [KeyLists.ownOr_of_not_mem hk]))
  · intro entry hentry
    refine hmean entry.1 entry.2 ((hi.listFor entry.1).trans ?_)
    rw [KeyLists.ownOr_of_entry hi.keyed.nodup hentry]

/-- A new input of the definition starts without lists by key, and with the default. -/
theorem listsComeBack_iff {fresh : Input}
    (hkind : fresh.kind = .keyLists keyType valueType default) (hreset : fresh.reset = fresh)
    {text : String} (htext : w.valueText i = .ok text) {a : Arguments}
    (ha : Arguments.make? fresh.keyword (Record.tokenize text) = .ok a) :
    w.ListsComeBack this fresh i ↔
      ∃ l, (w.editKeyLists this fresh.keyword keyType valueType ⟨[], default⟩ a).Gives l ∧
        ∀ k, l.get k = .ok (KeyLists.ownOr lists i.keyless k) := by
  have hofInput : KeyLists.ofInput fresh = .ok ⟨[], default⟩ := by
    rw [← hreset, KeyLists.ofInput, Input.reset, hkind]
    rfl
  have hread (l : KeyLists) : (w.readKind this fresh a).Gives (.keyLists l) ↔
      (w.editKeyLists this fresh.keyword keyType valueType ⟨[], default⟩ a).Gives l := by
    rw [readKind_keyLists hkind, hofInput, Logged.gives_ofExcept_bind]
    constructor
    · rintro ⟨_, ⟨⟩, h⟩
      obtain ⟨l', hl', h⟩ := h.of_bind
      cases h.of_pure
      exact hl'
    · intro h
      refine ⟨_, rfl, (Logged.Steady.gives_bind fun _ => Logged.steady_pure _).2 ⟨l, h, ?_⟩⟩
      exact Logged.gives_pure.2 rfl
  have hlists (l : KeyLists) :
      (∀ k, ∃ list, i.listFor k = .ok list ∧
        (w.assigned (.keyLists l) fresh).listFor k = .ok list) ↔
      ∀ k, l.get k = .ok (KeyLists.ownOr lists i.keyless k) := by
    refine forall_congr' fun k => ?_
    rw [hi.listFor]
    constructor
    · rintro ⟨_, ⟨⟩, h⟩
      exact h
    · intro h
      exact ⟨_, rfl, h⟩
  constructor
  · rintro ⟨_, _, l, htext', ha', hgives, hsame⟩
    cases htext.symm.trans htext'
    cases ha.symm.trans ha'
    exact ⟨l, (hread l).1 hgives, (hlists l).1 hsame⟩
  · rintro ⟨l, hgives, hsame⟩
    exact ⟨text, a, l, htext, ha, (hread l).2 hgives, (hlists l).2 hsame⟩

/-- While a key list is not set, its default comes back if it has kept it. -/
theorem KeyListState.comeBack_unset {fresh : Input}
    (hkind : fresh.kind = .keyLists keyType valueType default) (hreset : fresh.reset = fresh)
    (hdefault : i.isDefault = true) :
    w.ListsComeBack this fresh i ↔ i.keyless = default := by
  have htext : w.valueText i = .ok "" := if_pos hdefault
  have hnil : lists = [] := hi.unset hdefault
  subst hnil
  have ha : Arguments.make? fresh.keyword (Record.tokenize "") =
      .ok { keyword := fresh.keyword, args := [], balanced := rfl } :=
    Arguments.make?_eq rfl _ none
  have hedit : w.editKeyLists this fresh.keyword keyType valueType ⟨[], default⟩
      { keyword := fresh.keyword, args := [], balanced := rfl } = pure ⟨[], default⟩ :=
    rfl
  rw [listsComeBack_iff hi hkind hreset htext ha, hedit]
  simp only [Logged.gives_pure, exists_eq_left]
  constructor
  · intro h
    exact (Except.ok.inj (h ⟨0⟩)).symm
  · rintro rfl _
    rfl

/-- Once a key list is set, its text is the arguments that a new input is to accept. -/
theorem KeyListState.exists_arguments (hw : w.Faithful)
    (hmean : w.ListsMean valueType i.keyless lists) {fresh : Input}
    (hkind : fresh.kind = .keyLists keyType valueType default) (hreset : fresh.reset = fresh)
    (hset : i.isDefault = false) :
    ∃ a : Arguments, a.args = Record.grouped (w.keyGroups i.keyless lists) ∧
      (w.ListsComeBack this fresh i ↔
        ∃ l, (w.editKeyLists this fresh.keyword keyType valueType ⟨[], default⟩ a).Gives l ∧
          ∀ k, l.get k = .ok (KeyLists.ownOr lists i.keyless k)) := by
  obtain ⟨text, hkeyText, htokens⟩ := tokenize_keyListsText hw hi.keyed hmean
  have htext : w.valueText i = .ok text := by
    rw [valueText, if_neg (Bool.eq_false_iff.1 hset)]
    simp only [hi.kind, textOf, hi.value, hkeyText]
  have hbalanced : Record.isBalanced (Record.tokenize text) = true := by
    rw [htokens]
    exact Record.isBalanced_grouped fun names hnames name hname =>
      (isWord_keyGroups hw hi.keyed hmean names hnames name hname).not_isBrace
  have ha := Arguments.make?_eq hbalanced fresh.keyword none
  exact ⟨_, htokens, listsComeBack_iff hi hkind hreset htext ha⟩

end

/-- **Key lists come back from their text** exactly if the list for keys without an entry does.
Arguments have been accepted, and references to entities been removed, in any order. As long as the
key list is not set it has no text, so it must still hold its whole default. Once it is set, and the
names of all entities in its lists mean these, it is only the list for the keys without one of their
own that decides. -/
theorem keyLists_comeBack_iff (hw : w.Faithful)
    (hkind : fresh.kind = .keyLists keyType valueType default) (hreset : fresh.reset = fresh)
    (hrun : Relation.ReflTransGen (w.KeyListStep this) fresh i)
    (hmean : i.isDefault = false →
      ∀ k list, i.listFor k = .ok list → ∀ e ∈ list, w.MeansItself valueType e) :
    ∃ l, KeyLists.ofInput i = .ok l ∧
      (w.ListsComeBack this fresh i ↔
        if i.isDefault then l.keyless = default
        else w.KeylessComesBack this keyType valueType default l) := by
  obtain ⟨lists, hi⟩ := keyListState_of_run hw hkind hreset hrun
  refine ⟨⟨Value.keyEntries lists, i.keyless⟩, ?_, ?_⟩
  · rw [KeyLists.ofInput, hi.value]
    rfl
  · split
    · next hdefault => exact hi.comeBack_unset hkind hreset hdefault
    · next hset =>
      have hset := Bool.eq_false_iff.2 hset
      have hmean := hi.listsMean (hmean hset)
      obtain ⟨a, hargs, hiff⟩ := hi.exists_arguments hw hmean hkind hreset hset
      rw [hiff, comeBack_iff hw hi.keyed hmean hargs]

/-! ## Lists of a group and a node -/

theorem nodeAndGroup_faithful : nodeAndGroup.Faithful := by
  have hnode : RegistryStep { palette := groupsAndNodes } loneNode :=
    @RegistryStep.perform _ (.create "Node" "A" false) trivial
  have hgroup : RegistryStep loneNode nodeAndGroup :=
    @RegistryStep.perform _ (.create "EntityGroup" "G" false) trivial
  have hreached : RegistryReached groupsAndNodes nodeAndGroup :=
    ⟨{}, false, .tail (.tail .refl hnode) hgroup⟩
  exact hreached.faithful groupsAndNodes_isPlain.isUnset

theorem meansItself_node : nodeAndGroup.MeansItself (.named "Node") ⟨0⟩ where
  registered := .head _
  alone := rfl
  noPlus := by decide
  noMinus := by decide

/-- A key list of nodes by group, which is not set. -/
def nodesByGroup (default : List EntityId) : Input :=
  .make "Nodes" "Options" (.keyLists (.named "EntityGroup") (.named "Node") default)

/-- The arguments that give the group a list, and also all other keys. -/
def listsOfNode : Arguments where
  keyword := "Nodes"
  args := ["\x7b", "G", "A", "\x7d", "\x7b", "A", "\x7d"]
  balanced := by decide

/-- The lists that they set. -/
def nodeLists : KeyLists where
  entries := Value.keyEntries [(⟨1⟩, [⟨0⟩])]
  keyless := [⟨0⟩]

/-- The key list that is set by them. -/
def nodesSet : Input :=
  nodeAndGroup.assigned (.keyLists nodeLists) (nodesByGroup [])

theorem keyLists_comeBack_nodesSet :
    nodeAndGroup.valueText nodesSet = .ok "\x7b A \x7d \x7b G A \x7d" ∧
      nodeAndGroup.ListsComeBack (some ⟨0⟩) (nodesByGroup []) nodesSet := by
  have hparse : (nodeAndGroup.readKind (some ⟨0⟩) (nodesByGroup []) listsOfNode).Gives
      (.keyLists nodeLists) :=
    ⟨[], [], rfl⟩
  have hmean : ∀ k list, nodesSet.listFor k = .ok list →
      ∀ e ∈ list, nodeAndGroup.MeansItself (.named "Node") e := by
    intro k list hlist e he
    cases (KeyLists.get_keyEntries k).symm.trans hlist
    rw [KeyLists.ownOr_cons, KeyLists.ownOr_nil] at he
    split at he
    · rw [List.mem_singleton.1 he]
      exact meansItself_node
    · rw [List.mem_singleton.1 he]
      exact meansItself_node
  obtain ⟨l, hl, hiff⟩ := keyLists_comeBack_iff nodeAndGroup_faithful rfl rfl
    (.single (.parse hparse)) fun _ => hmean
  cases hl
  refine ⟨rfl, hiff.2 ?_⟩
  exact ⟨rfl, List.forall_mem_singleton.2 rfl, List.nodup_singleton _⟩

/-- The key list whose default, the node, has been taken out. -/
def nodesEmptied : Input :=
  nodeAndGroup.assigned (.keyLists ⟨[], []⟩) (nodesByGroup [⟨0⟩])

/-- Key lists do not always come back from their text. A default that has been taken out, by a minus
sign, is the default of a new input, and the text, which is empty, does not take it out again. -/
theorem not_forall_lists_comeBack :
    ¬ ∀ (w : World) (this : Option EntityId) (keyType valueType : TypeRef)
      (default : List EntityId) (fresh i : Input), w.Faithful →
      fresh.kind = .keyLists keyType valueType default → fresh.reset = fresh →
      Relation.ReflTransGen (w.KeyListStep this) fresh i → w.ListsComeBack this fresh i := by
  intro h
  have hparse : (nodeAndGroup.readKind (some ⟨0⟩) (nodesByGroup [⟨0⟩])
      { keyword := "Nodes", args := ["\x7b", "--", "A", "\x7d"], balanced := by decide }).Gives
      (.keyLists ⟨[], []⟩) :=
    ⟨[], [], rfl⟩
  have hi : nodeAndGroup.KeyListState (some ⟨0⟩) (.named "EntityGroup") (.named "Node") [⟨0⟩]
      nodesEmptied [] :=
    ⟨rfl, rfl, ⟨List.nodup_nil, nofun, nofun⟩, nofun⟩
  have hreset : (nodesByGroup [⟨0⟩]).reset = nodesByGroup [⟨0⟩] := rfl
  have hback := h nodeAndGroup (some ⟨0⟩) _ _ _ (nodesByGroup [⟨0⟩]) nodesEmptied
    nodeAndGroup_faithful rfl hreset (.single (.parse hparse))
  obtain ⟨a, hargs, hiff⟩ :=
    hi.exists_arguments nodeAndGroup_faithful ⟨nofun, nofun⟩ rfl hreset rfl
  have hdefault : [(⟨0⟩ : EntityId)] = [] :=
    (comeBack_nil nodeAndGroup_faithful hi.keyed ⟨nofun, nofun⟩ hargs).1 (hiff.1 hback)
  cases hdefault

end World

end ModelInputs
