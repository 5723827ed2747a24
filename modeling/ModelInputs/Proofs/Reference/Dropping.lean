import ModelInputs.Proofs.Outcome
import ModelInputs.Proofs.Reference.Reading

/-!
# Taking an entity out of an input

Where an input has a value of its kind and its default refers to no entity, searching it for an
entity never fails, and finds the entity exactly where the input refers to it. No reference is left,
and an input without one is unchanged.

* `Input.NamesNoEntity`: the default of an input refers to no entity;
* `Input.Suited`: an input of which this holds has a value of its kind, unless it is not set;
* **`Input.removeReferences_eq`**: the search succeeds and reports exactly the references;
* **`Input.Suited.letGo`**, **`Input.not_mem_mentions_letGo`**: what it leaves.
-/

namespace ModelInputs

namespace Input

/-- An input that has not been set refers to no entity. -/
structure NamesNoEntity (i : Input) : Prop where
  default_eq : i.default.mentions = []
  keyless_eq : unsetKeyless i.kind = []

/-- An input that is set has a value of its kind, and one that is not refers to no entity. -/
structure Suited (i : Input) : Prop where
  namesNoEntity : i.NamesNoEntity
  fits : i.kind.isKeyList = true ∨ i.isDefault = false → i.kind.Fits i.value
  keyless : i.kind.isKeyList = false → i.keyless = []

variable {i : Input} {e : EntityId}

/-! ## Lists -/

theorem dropEntity_entities (es : List EntityId) :
    dropEntity e (es.map .entity) = (es.filter (· != e)).map .entity := by
  rw [dropEntity, List.filter_map]
  rfl

theorem any_isEntity_entities (es : List EntityId) :
    (es.map Value.entity).any (·.isEntity e) = es.contains e := by
  rw [List.any_map, Bool.eq_iff_iff, List.any_eq_true, List.contains_iff_mem]
  constructor
  · rintro ⟨e', hmem, he⟩
    rwa [← (beq_iff_eq.1 he : e' = e)]
  · intro hmem
    exact ⟨e, hmem, beq_self_eq_true e⟩

theorem filter_ne_eq_self {es : List EntityId} (h : e ∉ es) : es.filter (· != e) = es :=
  List.filter_eq_self.2 fun _ he' => bne_iff_ne.2 fun heq => h (heq ▸ he')

theorem dropMember_ofEntities (es : List EntityId) :
    dropMember e (.ofEntities es) = .ok (.ofEntities (es.filter (· != e)), es.contains e) := by
  have hholds : (Value.ofEntities es).holds e = .ok (es.contains e) := by
    rw [Value.ofEntities, Value.holds_list, any_isEntity_entities]
  rw [dropMember, hholds, ok_bind]
  cases hc : es.contains e with
  | true =>
    rw [if_pos rfl, Value.ofEntities, Value.members_list, ok_bind, dropEntity_entities]
    rfl
  | false =>
    have he : e ∉ es := fun h => Bool.false_ne_true (hc.symm.trans (List.contains_iff_mem.2 h))
    rw [if_neg Bool.false_ne_true, filter_ne_eq_self he]
    rfl

theorem dropMembers_ofEntities (lists : List (List EntityId)) :
    dropMembers e (lists.map .ofEntities) =
      .ok ((lists.map (·.filter (· != e))).map .ofEntities, lists.any (·.contains e)) := by
  have hmap : (lists.map Value.ofEntities).mapM (dropMember e) =
      .ok (lists.map fun es => (Value.ofEntities (es.filter (· != e)), es.contains e)) :=
    mapM_map_eq_ok dropMember_ofEntities lists
  rw [dropMembers, hmap, ok_bind, List.map_map, List.any_map, List.map_map]
  rfl

/-- An entity in one of the lists that remain, or a key, is an entity that is mentioned. -/
theorem any_key_or_list (lists : List (EntityId × List EntityId)) :
    (((lists.filter (·.1 != e)).map (·.2)).any (·.contains e) || lists.any (·.1 == e)) =
      decide (e ∈ lists.flatMap fun (key, es) => key :: es) := by
  rw [Bool.eq_iff_iff, decide_eq_true_iff, Bool.or_eq_true, List.any_map, List.any_eq_true,
    List.any_eq_true, List.mem_flatMap]
  constructor
  · rintro (⟨entry, hentry, he⟩ | ⟨entry, hentry, he⟩)
    · exact ⟨entry, List.mem_of_mem_filter hentry, .tail _ (List.contains_iff_mem.1 he)⟩
    · exact ⟨entry, hentry, List.mem_cons.2 (.inl (beq_iff_eq.1 he).symm)⟩
  · rintro ⟨entry, hentry, he⟩
    by_cases hkey : entry.1 = e
    · exact .inr ⟨entry, hentry, beq_iff_eq.2 hkey⟩
    · obtain heq | hmem := List.mem_cons.1 he
      · exact absurd heq.symm hkey
      · exact .inl ⟨entry, List.mem_filter.2 ⟨hentry, bne_iff_ne.2 hkey⟩,
          List.contains_iff_mem.2 hmem⟩

theorem dropEntries_keyEntries (lists : List (EntityId × List EntityId)) :
    dropEntries e (Value.keyEntries lists) =
      .ok (Value.keyEntries (Value.listsWithout e lists),
        decide (e ∈ lists.flatMap fun (key, es) => key :: es)) := by
  have hkept : (Value.keyEntries lists).filter (fun entry => !entry.1.isEntity e) =
      Value.keyEntries (lists.filter (·.1 != e)) := by
    rw [Value.keyEntries, List.filter_map]
    rfl
  have hvalues : (Value.keyEntries (lists.filter (·.1 != e))).map (·.2) =
      ((lists.filter (·.1 != e)).map (·.2)).map .ofEntities := by
    rw [Value.keyEntries, List.map_map, List.map_map]
    rfl
  have hkeys : (Value.keyEntries lists).any (·.1.isEntity e) = lists.any (·.1 == e) := by
    rw [Value.keyEntries, List.any_map]
    rfl
  have hzip : ((Value.keyEntries (lists.filter (·.1 != e))).map (·.1)).zip
      ((((lists.filter (·.1 != e)).map (·.2)).map (·.filter (· != e))).map .ofEntities) =
      Value.keyEntries (Value.listsWithout e lists) := by
    rw [Value.keyEntries, Value.keyEntries, Value.listsWithout, List.map_map, List.map_map,
      List.map_map, List.map_map, List.zip_map']
    rfl
  rw [dropEntries]
  dsimp only
  rw [hkept, hvalues, dropMembers_ofEntities, ok_bind, ← any_key_or_list, ← hzip, ← hkeys]
  rfl

/-! ## References -/

theorem stored_of_isKeyList (hk : i.kind.isKeyList = true) : i.stored = i.value := by
  unfold stored
  split
  · rfl
  · next hkind =>
    unfold InputKind.isKeyList at hk
    split at hk
    · next hkind' => exact absurd hkind' (hkind _ _ _)
    · cases hk

theorem mentions_of_isKeyList (hk : i.kind.isKeyList = true) :
    i.mentions = i.value.mentions ++ i.keyless := by
  rw [mentions, stored_of_isKeyList hk]

theorem Suited.keyLists (h : i.Suited) (hk : i.kind.isKeyList = true) :
    ∃ lists, i.value = .map (Value.keyEntries lists) := by
  have hfits := h.fits (.inl hk)
  generalize i.kind = kind, i.value = v at hfits hk
  cases hfits with
  | @keyLists keyType valueType keyless lists => exact ⟨lists, rfl⟩
  | _ => cases hk

theorem Suited.mentions_eq (h : i.Suited) (hk : i.kind.isKeyList = false) :
    i.mentions = if i.isDefault then [] else i.value.mentions := by
  have hstored : i.stored = if i.isDefault then i.default else i.value := by
    unfold stored
    split
    · next hkind =>
      rw [hkind] at hk
      cases hk
    · rfl
  rw [mentions, hstored, h.keyless hk, List.append_nil]
  cases i.isDefault with
  | true => exact h.namesNoEntity.default_eq
  | false => rfl

/-- An entity that is mentioned is searched for by comparing it with the only one that can be. -/
theorem beq_eq_decide_mem (e' : EntityId) : (e' == e) = decide (e ∈ [e']) := by
  rw [Bool.eq_iff_iff, beq_iff_eq, decide_eq_true_iff, List.mem_singleton, eq_comm]

theorem refersTo_eq {kind : InputKind} {v : Value} (h : kind.Fits v)
    (hkeyList : kind.isKeyList = false) (hlist : kind.isEntityList = false) :
    refersTo e kind v = .ok (decide (e ∈ v.mentions)) := by
  have hsame (e' : EntityId) : (.ok (e' == e) : Except Failure Bool) = .ok (decide (e ∈ [e'])) :=
    congrArg Except.ok (beq_eq_decide_mem e')
  have hnone {α : Type} {f : α → Value} (hf : ∀ x, (f x).mentions = []) (xs : List α) :
      (.ok false : Except Failure Bool) = .ok (decide (e ∈ (Value.list (xs.map f)).mentions)) := by
    rw [Value.mentions_list_map hf]
    rfl
  cases h with
  | entity | interfaceEntity | relativeEntity | keyword | chain | sampleEntity => exact hsame _
  | @sampler unit range s =>
    cases s with
    | chain c unit => exact hsame c.root
    | constant | expression => rfl
  | @provider type invalid p =>
    cases p with
    | constant e' => exact hsame e'
    | expression => rfl
  | ints | floats | texts | colours | vectors | attributes | customOutputs =>
    exact hnone (fun _ => rfl) _
  | entities | interfaceEntities | entityLists => cases hlist
  | keyLists => cases hkeyList
  | _ => rfl

theorem search_ofEntities (es : List EntityId) :
    dropMember e (.ofEntities es) =
      .ok ((Value.ofEntities es).without e, decide (e ∈ (Value.ofEntities es).mentions)) := by
  rw [dropMember_ofEntities, Value.without_ofEntities, Value.mentions_ofEntities,
    List.contains_eq_mem]

/-- The search of a list of lists. -/
def searchLists (e : EntityId) (v : Value) : Except Failure (Value × Bool) := do
  let (lists, changed) ← dropMembers e (← v.members)
  return (.list lists, changed)

theorem search_ofEntityLists (lists : List (List EntityId)) :
    searchLists e (Value.ofEntityLists lists) =
      .ok ((Value.ofEntityLists lists).without e,
        decide (e ∈ (Value.ofEntityLists lists).mentions)) := by
  have hany : lists.any (·.contains e) = decide (e ∈ lists.flatten) := by
    rw [Bool.eq_iff_iff, decide_eq_true_iff, List.any_eq_true, List.mem_flatten]
    constructor
    · rintro ⟨es, hes, he⟩
      exact ⟨es, hes, List.contains_iff_mem.1 he⟩
    · rintro ⟨es, hes, he⟩
      exact ⟨es, hes, List.contains_iff_mem.2 he⟩
  rw [searchLists, Value.ofEntityLists, Value.members_list, ok_bind, dropMembers_ofEntities, ok_bind,
    ← Value.ofEntityLists, Value.without_ofEntityLists, Value.mentions_ofEntityLists, ← hany]
  rfl

/-- A key list without an entity is as it was if it does not refer to the entity. -/
theorem letGo_of_isKeyList (hk : i.kind.isKeyList = true) (e : EntityId) :
    i.letGo e = { i with value := i.value.without e, keyless := i.keyless.filter (· != e) } := by
  unfold letGo without
  rw [if_pos hk]
  split
  · rfl
  · next he =>
    rw [mentions_of_isKeyList hk, List.mem_append, not_or] at he
    rw [Value.without_eq_self _ he.1, filter_ne_eq_self he.2]

theorem unchanged_eq (h : e ∉ i.mentions) :
    (.ok (i, false) : Except Failure (Input × Bool)) = .ok (i.letGo e, decide (e ∈ i.mentions)) := by
  rw [letGo, if_neg h, decide_eq_false h]

theorem Suited.not_mem_of_isDefault (h : i.Suited) (hk : i.kind.isKeyList = false)
    (hd : i.isDefault = true) (e : EntityId) : e ∉ i.mentions := by
  rw [h.mentions_eq hk, if_pos hd]
  exact List.not_mem_nil

/-- What a search for an entity comes to where the value is of its kind. A key list is without the
entity, also while it has not been set. Another list that is set is without it, and what refers to
the entity alone is reset. -/
def searched (e : EntityId) (i : Input) : Input × Bool :=
  if i.kind.isKeyList then
    ({ i with value := i.value.without e, keyless := i.keyless.filter (· != e) },
      decide (e ∈ i.value.mentions) || i.keyless.contains e)
  else if i.isDefault then (i, false)
  else if i.kind.isEntityList then
    if i.value.truth then
      i.assignDropped (i.value.without e, decide (e ∈ i.value.mentions))
    else (i, false)
  else if e ∈ i.value.mentions then (i.reset, true) else (i, false)

/-- A list is searched unless it is not set or empty. -/
theorem searched_of_isEntityList (hk : i.kind.isKeyList = false) (hl : i.kind.isEntityList = true)
    {search : Except Failure (Value × Bool)} (hsearch : i.isDefault = false →
      search = .ok (i.value.without e, decide (e ∈ i.value.mentions))) :
    (if i.isDefault || !i.value.truth then .ok (i, false)
      else return i.assignDropped (← search) : Except Failure (Input × Bool)) =
      .ok (i.searched e) := by
  rw [searched, hk, hl]
  cases hd : i.isDefault with
  | true => rfl
  | false =>
    cases i.value.truth with
    | false => rfl
    | true =>
      rw [hsearch hd]
      rfl

/-- **Searching an input succeeds where its value is of its kind.** -/
theorem removeReferences_eq_searched
    (hfits : i.kind.isKeyList = true ∨ i.isDefault = false → i.kind.Fits i.value) (e : EntityId) :
    i.removeReferences e = .ok (i.searched e) := by
  unfold removeReferences
  split
  · next hkind =>
    have hk : i.kind.isKeyList = true := by rw [hkind]; rfl
    have hv := hfits (.inl hk)
    rw [hkind] at hv
    rw [searched, if_pos hk]
    generalize i.value = v at hv
    cases hv
    rw [Value.asEntries_map, ok_bind, dropEntries_keyEntries, ok_bind,
      Value.without_map_keyEntries, Value.mentions_map_keyEntries]
    rfl
  · next hkind =>
    refine searched_of_isEntityList (by rw [hkind]; rfl) (by rw [hkind]; rfl) fun hd => ?_
    have hv := hfits (.inr hd)
    rw [hkind] at hv
    generalize i.value = v at hv
    cases hv
    exact search_ofEntities _
  · next hkind =>
    refine searched_of_isEntityList (by rw [hkind]; rfl) (by rw [hkind]; rfl) fun hd => ?_
    have hv := hfits (.inr hd)
    rw [hkind] at hv
    generalize i.value = v at hv
    cases hv
    exact search_ofEntities _
  · next hkind =>
    have hsearch : i.isDefault = false →
        searchLists e i.value = .ok (i.value.without e, decide (e ∈ i.value.mentions)) := by
      intro hd
      have hv := hfits (.inr hd)
      rw [hkind] at hv
      generalize i.value = v at hv
      cases hv
      exact search_ofEntityLists _
    rw [← searched_of_isEntityList (by rw [hkind]; rfl) (by rw [hkind]; rfl) hsearch, searchLists]
    simp only [bind_assoc]
    rfl
  · next hkeyList hentities hinterface hlists =>
    have hk : i.kind.isKeyList = false := by
      unfold InputKind.isKeyList
      split
      · next hkind => exact absurd hkind (hkeyList _ _ _)
      · rfl
    have hl : i.kind.isEntityList = false := by
      unfold InputKind.isEntityList
      split
      · next hkind => exact absurd hkind (hentities _ _ _)
      · next hkind => exact absurd hkind (hinterface _ _ _)
      · next hkind => exact absurd hkind (hlists _ _ _)
      · rfl
    rw [searched, hk, hl]
    cases hd : i.isDefault with
    | true => rfl
    | false =>
      rw [if_neg Bool.false_ne_true, refersTo_eq (hfits (.inr hd)) hk hl, ok_bind]
      by_cases he : e ∈ i.value.mentions
      · rw [decide_eq_true he, if_neg Bool.false_ne_true, if_neg Bool.false_ne_true, if_pos he]
        rfl
      · rw [decide_eq_false he, if_neg Bool.false_ne_true, if_neg Bool.false_ne_true, if_neg he]
        rfl

/-- **Searching an input for an entity finds it if the input refers to it.** -/
theorem removeReferences_eq (h : i.Suited) (e : EntityId) :
    i.removeReferences e = .ok (i.letGo e, decide (e ∈ i.mentions)) := by
  rw [removeReferences_eq_searched h.fits, searched]
  cases hk : i.kind.isKeyList with
  | true =>
    have hfound : (decide (e ∈ i.value.mentions) || decide (e ∈ i.keyless)) =
        decide (e ∈ i.value.mentions ++ i.keyless) := by
      rw [← Bool.decide_or]
      exact decide_eq_decide.2 List.mem_append.symm
    rw [if_pos rfl, letGo_of_isKeyList hk, mentions_of_isKeyList hk, List.contains_eq_mem, hfound]
  | false =>
    rw [if_neg Bool.false_ne_true]
    cases hd : i.isDefault with
    | true => exact unchanged_eq (h.not_mem_of_isDefault hk hd e)
    | false =>
      have hmentions := h.mentions_eq hk
      rw [hd, if_neg Bool.false_ne_true] at hmentions
      rw [if_neg Bool.false_ne_true]
      by_cases he : e ∈ i.value.mentions
      · have hletGo : i.letGo e = i.without e := by
          rw [letGo, if_pos (hmentions ▸ he)]
        rw [hletGo, hmentions, without, hk, decide_eq_true he]
        cases i.kind.isEntityList with
        | true =>
          cases ht : i.value.truth with
          | false =>
            rw [Value.mentions_eq_nil_of_truth ht] at he
            cases he
          | true => rfl
        | false =>
          rw [if_pos he]
          rfl
      · rw [← unchanged_eq (hmentions ▸ he), if_neg he, decide_eq_false he]
        cases i.kind.isEntityList with
        | true =>
          cases i.value.truth with
          | false => rfl
          | true => rfl
        | false => rfl

/-! ## What is left -/

theorem filter_ne_not_mem (es : List EntityId) : e ∉ es.filter (· != e) := fun he =>
  bne_iff_ne.1 (List.mem_filter.1 he).2 rfl

/-- A list without an entity is one of the same kind, and does not refer to the entity. -/
theorem fits_without {kind : InputKind} {v : Value} (h : kind.Fits v)
    (hk : kind.isKeyList = true ∨ kind.isEntityList = true) (e : EntityId) :
    kind.Fits (v.without e) ∧ e ∉ (v.without e).mentions := by
  cases h with
  | entities =>
    rw [Value.without_ofEntities, Value.mentions_ofEntities]
    exact ⟨.entities, filter_ne_not_mem _⟩
  | interfaceEntities =>
    rw [Value.without_ofEntities, Value.mentions_ofEntities]
    exact ⟨.interfaceEntities, filter_ne_not_mem _⟩
  | entityLists =>
    rw [Value.without_ofEntityLists, Value.mentions_ofEntityLists]
    refine ⟨.entityLists, fun he => ?_⟩
    obtain ⟨es, hes, he⟩ := List.mem_flatten.1 he
    obtain ⟨es', -, rfl⟩ := List.mem_map.1 hes
    exact filter_ne_not_mem _ he
  | keyLists =>
    rw [Value.without_map_keyEntries, Value.mentions_map_keyEntries]
    refine ⟨.keyLists, fun he => ?_⟩
    obtain ⟨entry, hentry, he⟩ := List.mem_flatMap.1 he
    obtain ⟨entry', hentry', rfl⟩ := List.mem_map.1 hentry
    obtain rfl | he := List.mem_cons.1 he
    · exact bne_iff_ne.1 (List.mem_filter.1 hentry').2 rfl
    · exact filter_ne_not_mem _ he
  | _ => exact hk.elim nofun nofun

theorem fits_unsetValue {kind : InputKind} (hk : kind.isKeyList = true) :
    kind.Fits (unsetValue kind) := by
  cases kind with
  | keyLists keyType valueType keyless =>
    have hempty : (InputKind.keyLists keyType valueType keyless).Fits
      (.map (Value.keyEntries [])) := .keyLists
    exact hempty
  | _ => cases hk

/-- Only key lists are set to key lists. -/
theorem isKeyList_of_fits {kind : InputKind} {lists : KeyLists} (h : kind.Fits lists.toValue) :
    kind.isKeyList = true := by
  rw [KeyLists.toValue] at h
  generalize hmap : Value.map lists.entries = v at h
  cases h with
  | keyLists => rfl
  | _ => cases hmap

theorem Suited.of_reset (h : i.NamesNoEntity) : i.reset.Suited where
  namesNoEntity := ⟨h.default_eq, h.keyless_eq⟩
  fits := by
    rintro (hk | ⟨⟨⟩⟩)
    exact fits_unsetValue hk
  keyless _ := h.keyless_eq

theorem Suited.assign (h : i.Suited) {v : Value} (hv : i.kind.Fits v) : (i.assign v).Suited where
  namesNoEntity := ⟨h.namesNoEntity.default_eq, h.namesNoEntity.keyless_eq⟩
  fits _ := hv
  keyless := h.keyless

/-- A key list has a list for keys without an entry. -/
theorem Suited.assignKeyLists (h : i.Suited) {lists : KeyLists} (hv : i.kind.Fits lists.toValue) :
    ({ i.assign lists.toValue with keyless := lists.keyless } : Input).Suited where
  namesNoEntity := ⟨h.namesNoEntity.default_eq, h.namesNoEntity.keyless_eq⟩
  fits _ := hv
  keyless hk := absurd (hk.symm.trans (isKeyList_of_fits hv)) Bool.false_ne_true

/-- **An input that lets go of an entity has a value of its kind again**, and no reference to the
entity is left. -/
theorem Suited.letGo (h : i.Suited) (e : EntityId) :
    (i.letGo e).Suited ∧ e ∉ (i.letGo e).mentions := by
  cases hk : i.kind.isKeyList with
  | true =>
    obtain ⟨hfits, hmem⟩ := fits_without (h.fits (.inl hk)) (.inl hk) e
    rw [letGo_of_isKeyList hk]
    refine ⟨⟨⟨h.namesNoEntity.default_eq, h.namesNoEntity.keyless_eq⟩, fun _ => hfits, ?_⟩, ?_⟩
    · exact fun hk' => absurd (hk'.symm.trans hk) Bool.false_ne_true
    · intro he
      rw [mentions_of_isKeyList (by exact hk)] at he
      exact (List.mem_append.1 he).elim hmem (filter_ne_not_mem _)
  | false =>
    by_cases he : e ∈ i.mentions
    · rw [Input.letGo, if_pos he, without, hk, if_neg Bool.false_ne_true]
      cases hl : i.kind.isEntityList with
      | true =>
        have hd : i.isDefault = false :=
          Bool.eq_false_iff.2 fun hd => h.not_mem_of_isDefault hk hd e he
        obtain ⟨hfits, hmem⟩ := fits_without (h.fits (.inr hd)) (.inr hl) e
        have hsuited : (i.assign (i.value.without e)).Suited := h.assign hfits
        refine ⟨hsuited, ?_⟩
        rw [if_pos rfl, hsuited.mentions_eq hk]
        exact hmem
      | false =>
        have hsuited : i.reset.Suited := .of_reset h.namesNoEntity
        exact ⟨hsuited, hsuited.not_mem_of_isDefault hk rfl e⟩
    · rw [Input.letGo, if_neg he]
      exact ⟨h, he⟩

end Input

end ModelInputs
