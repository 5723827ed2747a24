import ModelInputs.Proofs.Reference.Held

/-!
# What arguments refer to

Arguments refer to entities by their names, directly or as members of groups, and ask of each that
it is of a class or implements an interface. So a relation of entities and classes that holds of
what names stand for holds of all entities that are read, whatever the kind of the input, and lists
that are to be without repetitions are read as such.

* `World.Provides`: the relation holds of what names stand for;
* **`World.Provides.readArguments`**: it holds of what arguments give;
* `KeyLists.Hold`, **`World.Provides.editKeyLists`**: it is kept by the edits of key lists.
-/

namespace ModelInputs

variable {R : EntityId → TypeRef → Prop}

namespace World

/-- The relation holds of an entity and a class that it is of, if a name stands for the entity or
for a group with that entity. -/
structure Provides (w : World) (R : EntityId → TypeRef → Prop) : Prop where
  named : ∀ {name e type}, w.named? name = some e → w.isInstance e type = true → R e type
  groups : ∀ {type name es}, w.StandsFor type name es → ∀ e ∈ es, w.isInstance e type = true →
    R e type

variable {w : World} {this : Option EntityId} {type : TypeRef} {name : String} {e : EntityId}

theorem sized_eq_ok {α : Type} {a : Arguments} {counts : CountRange} {xs ys : List α} :
    a.sized counts xs = .ok ys ↔
      ys = xs ∧ counts.least ≤ xs.length ∧ xs.length ≤ counts.most := by
  unfold Arguments.sized Arguments.checkElements
  split
  · next h =>
    constructor
    · rintro ⟨⟩
      exact ⟨rfl, h⟩
    · rintro ⟨rfl, -⟩
      rfl
  · next h =>
    refine iff_of_false ?_ fun h' => h h'.2
    split
    · exact nofun
    · exact nofun

namespace Provides

/-! ## Single references -/

theorem readEntity? (hR : w.Provides R) (h : w.readEntity? this type name = .ok e) : R e type := by
  obtain ⟨-, hname, htype⟩ := readEntity?_eq_ok.1 h
  exact hR.named hname htype

theorem readInterface? (hR : w.Provides R) (h : w.readInterface? this type name = .ok e) :
    R e type := by
  obtain ⟨-, hname, htype⟩ := readInterface?_eq_ok.1 h
  exact hR.named hname htype

theorem readEntities (hR : w.Provides R) {unique : Bool} {names : List String}
    {es : List EntityId} (h : w.readEntities this type unique names = .ok es) :
    (∀ e ∈ es, R e type) ∧ (unique = true → es.Nodup) := by
  obtain ⟨-, ⟨parts, hparts, rfl⟩, hinstance, hnodup⟩ := readEntities_eq_ok.1 h
  refine ⟨fun e he => ?_, hnodup⟩
  obtain ⟨part, hpart, hmem⟩ := List.mem_flatten.1 he
  exact forall_mem_of_forall₂ hparts (fun _ _ hstands e he => hR.groups hstands e he) part hpart e
    hmem (hinstance e he)

theorem readChain? (hR : w.Provides R) {a : Arguments} {c : OutputChain}
    (h : w.readChain? this a = .ok c) : R c.root entityType := by
  obtain ⟨_, -, -, hroot, -⟩ := readChain?_eq_ok.1 h
  exact hR.readEntity? hroot

theorem readRelative (hR : w.Provides R) {keyword : String}
    (h : w.readRelative this keyword type name = .ok e) : R e type :=
  hR.readEntity? (readRelative_eq_ok.1 h).1

theorem readSample (hR : w.Provides R) {unit : UnitType} {range : NumberRange} {a : Arguments}
    {v : Value} (h : (w.readSample this unit range a).Gives v) :
    (InputKind.sample unit range).Holds R v := by
  have hconstant (h : (w.constantSample unit range a).Gives v) :
      (InputKind.sample unit range).Holds R v := by
    obtain ⟨x, rfl⟩ := constantSample_gives h
    exact .of_mentions_eq_nil rfl
  obtain ⟨_, -, h⟩ := h.of_bind
  split at h
  · unfold shortSample at h
    split at h
    · next e hfound =>
      obtain ⟨_, -, h⟩ := h.of_bind
      obtain ⟨hname, hsampler⟩ := Option.filter_eq_some_iff.1 hfound
      rw [h.of_pure]
      exact .of_held_eq rfl rfl (hR.named (findNamed?_eq_some.1 hname).2 hsampler)
    split at h
    · exact hconstant h
    · obtain ⟨exp, -, h⟩ := h.of_bind
      rw [h.of_pure]
      exact .of_mentions_eq_nil rfl
  · unfold longSample at h
    split at h
    · next c hc =>
      rw [chainSample_eq_ok h.of_ofExcept]
      exact .of_held_eq rfl rfl (hR.readChain? hc)
    split at h
    · exact absurd h Logged.not_gives_throw
    · exact hconstant h

theorem readProvider (hR : w.Provides R) {type : TypeRef} {invalid : List TypeRef} {token : String}
    {v : Value} (h : w.readProvider this type invalid token = .ok v) :
    (InputKind.provider type invalid).Holds R v := by
  unfold World.readProvider at h
  split at h
  · next e hname =>
    split at h
    · next htype =>
      cases h
      exact .of_held_eq rfl rfl
        (hR.named (findNamed?_eq_some.1 hname).2 (Bool.and_eq_true_iff.1 htype).1)
    · cases h
  · obtain ⟨exp, -, h⟩ := bind_eq_ok.1 h
    cases h
    exact .of_mentions_eq_nil rfl

/-! ## Arguments -/

/-- **The relation holds of the entities that arguments give an input.** -/
theorem readArguments (hR : w.Provides R) {i : Input} {a : Arguments} {v : Value}
    (h : (w.readArguments this i a).Gives v) : i.kind.Holds R v := by
  have hfits := readArguments_fits h
  cases hk : i.kind with
  | entity type =>
    simp only [World.readArguments, hk] at h
    obtain ⟨name, -, h⟩ := bind_eq_ok.1 h.of_ofInput
    obtain ⟨e, he, h⟩ := bind_eq_ok.1 h
    cases h
    exact .of_held_eq rfl rfl (hR.readEntity? he)
  | interfaceEntity type =>
    simp only [World.readArguments, hk] at h
    obtain ⟨name, -, h⟩ := bind_eq_ok.1 h.of_ofInput
    obtain ⟨e, he, h⟩ := bind_eq_ok.1 h
    cases h
    exact .of_held_eq rfl rfl (hR.readInterface? he)
  | relativeEntity type =>
    simp only [World.readArguments, hk] at h
    obtain ⟨name, -, h⟩ := h.of_bind
    obtain ⟨e, he, h⟩ := h.of_bind
    rw [h.of_pure]
    exact .of_held_eq rfl rfl (hR.readRelative he.of_ofExcept)
  | entities type unique counts =>
    simp only [World.readArguments, hk] at h
    obtain ⟨es, hes, h⟩ := h.of_bind
    obtain ⟨sized, hsized, h⟩ := h.of_bind
    rw [h.of_pure, (sized_eq_ok.1 hsized.of_ofInput).1]
    exact (InputKind.holds_ofEntities_iff (InputKind.uniqueLists_ofEntities es)).2
      (hR.readEntities hes.of_ofExcept)
  | interfaceEntities type unique counts =>
    simp only [World.readArguments, hk] at h
    obtain ⟨_, -, h⟩ := bind_eq_ok.1 h.of_ofInput
    obtain ⟨es, hes, h⟩ := bind_eq_ok.1 h
    cases h
    obtain ⟨hes, hnodup⟩ := readInterfaces?_eq_ok.1 hes
    exact (InputKind.holds_ofEntities_iff (InputKind.uniqueLists_ofInterfaceEntities es)).2
      ⟨forall_mem_of_forall₂ hes fun _ _ he => hR.readInterface? he, hnodup⟩
  | entityLists type unique counts =>
    simp only [World.readArguments, hk] at h
    obtain ⟨lists, hlists, h⟩ := h.of_bind
    obtain ⟨sized, hsized, h⟩ := h.of_bind
    rw [h.of_pure, (sized_eq_ok.1 hsized.of_ofInput).1]
    obtain ⟨groups, -, hlists⟩ := readGroups_gives hlists
    exact InputKind.holds_ofEntityLists_iff.2
      (forall_mem_of_forall₂ hlists fun _ _ hes => hR.readEntities hes)
  | keyword =>
    simp only [World.readArguments, hk] at h
    obtain ⟨_, _, e, -, he, -, rfl⟩ := readKeyword?_eq_ok.1 h.of_ofInput
    exact .of_held_eq rfl rfl (hR.readEntity? he)
  | output unit =>
    simp only [World.readArguments, hk] at h
    obtain ⟨c, rfl, hc, -⟩ := readOutput?_eq_ok.1 h.of_ofExcept
    exact .of_held_eq rfl rfl (hR.readChain? hc)
  | sample unit range =>
    simp only [World.readArguments, hk] at h
    exact hR.readSample h
  | provider type invalid =>
    simp only [World.readArguments, hk] at h
    obtain ⟨token, -, h⟩ := h.of_bind
    exact hR.readProvider h.of_ofExcept
  | keyLists =>
    simp only [World.readArguments, hk] at h
    exact absurd h Logged.not_gives_throw
  | _ =>
    -- all other values refer to no entity
    rw [hk] at hfits
    refine .of_mentions_eq_nil ?_
    cases hfits
    all_goals first | rfl | exact Value.mentions_list_map (fun _ => rfl) _

end Provides

/-! ## Key lists -/

section

variable {list es r : List EntityId} {keyword : String}

/-- Entities that are added come last. -/
theorem addToList?_eq_ok (h : w.addToList? list es = .ok r) : r = list ++ es := by
  unfold addToList? at h
  induction es generalizing list with
  | nil =>
    cases h
    exact (List.append_nil _).symm
  | cons e es ih =>
    rw [List.foldlM_cons] at h
    obtain ⟨next, hnext, h⟩ := bind_eq_ok.1 h
    split at hnext
    · cases hnext
    · cases hnext
      rw [ih h, List.append_assoc, List.singleton_append]

theorem nodup_addToList? (h : w.addToList? list es = .ok r) (hlist : list.Nodup) : r.Nodup := by
  unfold addToList? at h
  induction es generalizing list with
  | nil =>
    cases h
    exact hlist
  | cons e es ih =>
    rw [List.foldlM_cons] at h
    obtain ⟨next, hnext, h⟩ := bind_eq_ok.1 h
    split at hnext
    · cases hnext
    · next hnew =>
      cases hnext
      refine ih h ?_
      rw [← List.concat_eq_append]
      exact List.Nodup.concat (fun hmem => hnew (List.contains_iff_mem.2 hmem)) hlist

theorem takeFromList_gives (h : (w.takeFromList keyword list e).Gives r) : r = list.erase e := by
  unfold takeFromList at h
  split at h
  · exact h.of_pure
  · next hnot =>
    obtain ⟨_, -, h⟩ := h.of_bind
    rw [h.of_pure, List.erase_of_not_mem fun hmem => hnot (List.contains_iff_mem.2 hmem)]

/-- Entities are taken away once each. -/
theorem foldlM_takeFromList_gives (h : (es.foldlM (w.takeFromList keyword) list).Gives r) :
    r = list.diff es := by
  induction es generalizing list with
  | nil => exact h.of_pure
  | cons e es ih =>
    rw [List.foldlM_cons] at h
    obtain ⟨next, hnext, h⟩ := h.of_bind
    rw [List.diff_cons, ← takeFromList_gives hnext]
    exact ih h

end

end World

/-- The entities of a key list are as they should be: the keys and the lists of the keys by a
relation, and the list for keys without an entry by properties of its own. -/
structure KeyLists.Hold (R : EntityId → TypeRef → Prop) (keyType valueType : TypeRef)
    (K : EntityId → Prop) (distinct : Prop) (l : KeyLists) : Prop where
  entries : ∃ lists, l.entries = Value.keyEntries lists ∧ ∀ entry ∈ lists,
    R entry.1 keyType ∧ (∀ e ∈ entry.2, R e valueType) ∧ entry.2.Nodup
  keyless : ∀ e ∈ l.keyless, K e
  nodup_keyless : distinct → l.keyless.Nodup

namespace World

variable {w : World} {this : Option EntityId} {keyType valueType : TypeRef} {K : EntityId → Prop}
  {distinct : Prop} {l l' : KeyLists} {keyword : String} {r : List EntityId}

/-- The entities of a list after an edit have a property that those of the list before it have, and
all that are read. -/
theorem Provides.editList (hR : w.Provides R) (hK : ∀ e, R e valueType → K e)
    {before : Except Failure (List EntityId)} {tokens : List String}
    (hbefore : ∀ list, before = .ok list → (∀ e ∈ list, K e) ∧ (distinct → list.Nodup))
    (h : (w.editList this keyword valueType before tokens).Gives r) :
    (∀ e ∈ r, K e) ∧ (distinct → r.Nodup) := by
  have hread {names : List String} {es : List EntityId}
      (h : (Logged.ofExcept (w.readEntities this valueType true names)).Gives es) :
      (∀ e ∈ es, K e) ∧ es.Nodup := by
    obtain ⟨hes, hnodup⟩ := hR.readEntities h.of_ofExcept
    exact ⟨fun e he => hK e (hes e he), hnodup rfl⟩
  unfold World.editList at h
  dsimp only at h
  split at h
  · obtain ⟨list, hlist, h⟩ := h.of_bind
    obtain ⟨es, hes, h⟩ := h.of_bind
    obtain ⟨hlistK, hnodup⟩ := hbefore list hlist.of_ofExcept
    have hadd := h.of_ofInput
    refine ⟨fun e he => ?_, fun hd => nodup_addToList? hadd (hnodup hd)⟩
    rw [addToList?_eq_ok hadd] at he
    exact (List.mem_append.1 he).elim (hlistK e) ((hread hes).1 e)
  · obtain ⟨list, hlist, h⟩ := h.of_bind
    obtain ⟨es, -, h⟩ := h.of_bind
    obtain ⟨hlistK, hnodup⟩ := hbefore list hlist.of_ofExcept
    have hsub : r.Sublist list := by
      rw [foldlM_takeFromList_gives h]
      exact List.diff_sublist list es
    exact ⟨fun e he => hlistK e (hsub.subset he), fun hd => (hnodup hd).sublist hsub⟩
  · obtain ⟨hes, hnodup⟩ := hread h
    exact ⟨hes, fun _ => hnodup⟩

theorem ownList_hold (hl : l.Hold R keyType valueType K distinct) {key : EntityId}
    {list : List EntityId} (h : l.ownList key = .ok list) :
    (∀ e ∈ list, R e valueType) ∧ list.Nodup := by
  obtain ⟨lists, hlists, hall⟩ := hl.entries
  unfold KeyLists.ownList KeyLists.own? at h
  rw [hlists] at h
  cases hfound : (Value.keyEntries lists).find? (·.1.isEntity key) with
  | none =>
    rw [hfound] at h
    cases h
    exact ⟨nofun, List.nodup_nil⟩
  | some entry =>
    obtain ⟨⟨k, es⟩, hentry, rfl⟩ := List.mem_map.1 (List.mem_of_find?_eq_some hfound)
    rw [hfound, Option.map_some] at h
    have heq : KeyLists.entitiesOf (.ofEntities es) = .ok list := h
    rw [KeyLists.entitiesOf_ofEntities] at heq
    cases heq
    exact (hall _ hentry).2

theorem Provides.editGroup (hR : w.Provides R) (hK : ∀ e, R e valueType → K e) {group : Arguments}
    (hl : l.Hold R keyType valueType K distinct)
    (h : (w.editGroup this keyword keyType valueType l group).Gives l') :
    l'.Hold R keyType valueType K distinct := by
  unfold World.editGroup at h
  split at h
  · rw [h.of_pure]
    exact hl
  split at h
  · next key hkey =>
    obtain ⟨es, hes, h⟩ := h.of_bind
    have hown (list : List EntityId) (hlist : l.ownList key = .ok list) :
        (∀ e ∈ list, R e valueType) ∧ (True → list.Nodup) :=
      (ownList_hold hl hlist).imp_right fun hnodup _ => hnodup
    obtain ⟨hes, hnodup⟩ := hR.editList (fun _ => id) hown hes
    obtain ⟨hname, htype⟩ := Option.filter_eq_some_iff.1 hkey
    have hkeyR : R key keyType := hR.named (findNamed?_eq_some.1 hname).2 htype
    obtain ⟨lists, hlists, hall⟩ := hl.entries
    obtain ⟨lists', hlists', hold⟩ := Value.put_keyEntries key es lists
    rw [h.of_pure]
    refine ⟨⟨lists', by rw [KeyLists.put, hlists, hlists'], fun entry hentry => ?_⟩, hl.keyless,
      hl.nodup_keyless⟩
    obtain rfl | hentry := hold entry hentry
    · exact ⟨hkeyR, hes, hnodup trivial⟩
    · exact hall entry hentry
  · obtain ⟨es, hes, h⟩ := h.of_bind
    have hkeyless : ∀ list, (.ok l.keyless : Except Failure (List EntityId)) = .ok list →
        (∀ e ∈ list, K e) ∧ (distinct → list.Nodup) := by
      rintro _ ⟨⟩
      exact ⟨hl.keyless, hl.nodup_keyless⟩
    obtain ⟨hes, hnodup⟩ := hR.editList hK hkeyless hes
    rw [h.of_pure]
    exact ⟨hl.entries, hes, hnodup⟩

/-- **Edits of a key list leave keys and lists as they should be.** -/
theorem Provides.editKeyLists (hR : w.Provides R) (hK : ∀ e, R e valueType → K e) {a : Arguments}
    (hl : l.Hold R keyType valueType K distinct)
    (h : (w.editKeyLists this keyword keyType valueType l a).Gives l') :
    l'.Hold R keyType valueType K distinct := by
  obtain ⟨groups, -, h⟩ := h.of_bind
  exact h.foldlM_induction hl fun _ _ _ hc hstep => hR.editGroup hK hc hstep

end World

end ModelInputs
