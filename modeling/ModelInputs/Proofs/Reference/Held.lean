import ModelInputs.Proofs.Reference.Dropping

/-!
# What inputs hold

An input holds the entities that its value refers to, and asks of each that it is of some class or
implements some interface; a key list asks one thing of its keys and another of the entities in its
lists. Some lists must hold no entity twice.

* `InputKind.held`, `Input.held`: the entities, each with what is asked of it;
* `InputKind.uniqueLists`, `Input.uniqueLists`: the lists without repetitions;
* `InputKind.Holds`, `Input.Holds`: all entities are as they are asked to be, and those lists are
  without repetitions;
* **`Input.Holds.letGo`**: this is so for an input that lets go of an entity, and the entity is not
  held any more.
-/

namespace ModelInputs

/-! ## Kinds -/

namespace InputKind

/-- What an input asks of an entity that is its value, or stands in a list. -/
def itemType : InputKind → TypeRef
  | entity type | interfaceEntity type | relativeEntity type | provider type _ => type
  | entities type .. | interfaceEntities type .. | entityLists type .. => type
  | keyLists _ valueType _ => valueType
  | sample .. => .named "SampleProvider"
  | _ => World.entityType

/-- What a key list asks of a key. -/
def keyType : InputKind → TypeRef
  | keyLists keyType .. => keyType
  | _ => World.entityType

/-- The entities that a value refers to, each with what an input of the kind asks of it. The entity
of a keyword, and the one at which a chain starts, may be of any class. -/
def held (kind : InputKind) : Value → List (EntityId × TypeRef)
  | .keywordRef e _ => [(e, World.entityType)]
  | .chain c => [(c.root, World.entityType)]
  | .sampler (.chain c _) => [(c.root, World.entityType)]
  | .map entries => entries.flatMap fun (key, v) =>
    key.mentions.map (·, kind.keyType) ++ v.mentions.map (·, kind.itemType)
  | v => v.mentions.map (·, kind.itemType)

/-- The lists of a value in which an input of the kind allows no repetitions. -/
def uniqueLists : InputKind → Value → List (List EntityId)
  | entities _ true _, v => [v.mentions]
  | interfaceEntities _ true _, v => [v.mentions]
  | entityLists _ true _, .list vs => vs.map Value.mentions
  | keyLists .., .map entries => entries.map fun (_, v) => v.mentions
  | _, _ => []

variable {kind : InputKind}

/-- All entities that a value refers to are held. -/
theorem map_fst_held (kind : InputKind) (v : Value) : (kind.held v).map (·.1) = v.mentions := by
  have hself (type : TypeRef) (es : List EntityId) : (es.map (·, type)).map (·.1) = es := by
    rw [List.map_map]
    exact List.map_id es
  cases v with
  | map entries =>
    rw [Value.mentions, held, Value.mentionsOfEntries_eq, List.map_flatMap]
    refine List.flatMap_congr fun entry _ => ?_
    rw [List.map_append, hself, hself]
  | sampler s =>
    cases s with
    | chain => rfl
    | _ => rfl
  | keywordRef | chain => rfl
  | _ => exact hself _ _

theorem mem_mentions_of_held {v : Value} {h : EntityId × TypeRef} (hh : h ∈ kind.held v) :
    h.1 ∈ v.mentions := by
  rw [← kind.map_fst_held v]
  exact List.mem_map_of_mem hh

/-- Lists without repetitions are lists of entities that a value refers to. -/
theorem subset_of_mem_uniqueLists {v : Value} {es : List EntityId} (h : es ∈ kind.uniqueLists v) :
    es ⊆ v.mentions := by
  unfold uniqueLists at h
  split at h
  · rw [List.mem_singleton.1 h]
    exact List.Subset.refl _
  · rw [List.mem_singleton.1 h]
    exact List.Subset.refl _
  · obtain ⟨v, hv, rfl⟩ := List.mem_map.1 h
    rw [Value.mentions, Value.mentionsOfItems_eq]
    exact fun e he => List.mem_flatMap.2 ⟨v, hv, he⟩
  · obtain ⟨entry, hentry, rfl⟩ := List.mem_map.1 h
    rw [Value.mentions, Value.mentionsOfEntries_eq]
    exact fun e he => List.mem_flatMap.2 ⟨entry, hentry, List.mem_append_right _ he⟩
  · cases h

/-! ## Lists of entities -/

@[simp]
theorem held_ofEntities (es : List EntityId) :
    kind.held (.ofEntities es) = es.map (·, kind.itemType) := by
  have hheld : kind.held (.ofEntities es) =
      (Value.ofEntities es).mentions.map (·, kind.itemType) := rfl
  rw [hheld, Value.mentions_ofEntities]

@[simp]
theorem held_ofEntityLists (lists : List (List EntityId)) :
    kind.held (.ofEntityLists lists) = lists.flatten.map (·, kind.itemType) := by
  have hheld : kind.held (.ofEntityLists lists) =
      (Value.ofEntityLists lists).mentions.map (·, kind.itemType) := rfl
  rw [hheld, Value.mentions_ofEntityLists]

@[simp]
theorem held_map_keyEntries (lists : List (EntityId × List EntityId)) :
    kind.held (.map (Value.keyEntries lists)) =
      lists.flatMap fun (key, es) => (key, kind.keyType) :: es.map (·, kind.itemType) := by
  rw [held, Value.keyEntries, List.flatMap_map]
  refine List.flatMap_congr ?_
  rintro ⟨key, es⟩ -
  show [(key, kind.keyType)] ++ (Value.ofEntities es).mentions.map (·, kind.itemType) = _
  rw [Value.mentions_ofEntities]
  rfl

theorem uniqueLists_keyEntries {keyType valueType : TypeRef} {keyless : List EntityId}
    (lists : List (EntityId × List EntityId)) :
    (keyLists keyType valueType keyless).uniqueLists (.map (Value.keyEntries lists)) =
      lists.map (·.2) := by
  rw [uniqueLists, Value.keyEntries, List.map_map]
  refine List.map_congr_left ?_
  rintro ⟨key, es⟩ -
  exact Value.mentions_ofEntities es

theorem uniqueLists_ofEntities {type : TypeRef} {unique : Bool} {counts : CountRange}
    (es : List EntityId) :
    (entities type unique counts).uniqueLists (.ofEntities es) = if unique then [es] else [] := by
  cases unique with
  | false => rfl
  | true => rw [uniqueLists, Value.mentions_ofEntities, if_pos rfl]

theorem uniqueLists_ofInterfaceEntities {type : TypeRef} {unique : Bool} {counts : CountRange}
    (es : List EntityId) :
    (interfaceEntities type unique counts).uniqueLists (.ofEntities es) =
      if unique then [es] else [] := by
  cases unique with
  | false => rfl
  | true => rw [uniqueLists, Value.mentions_ofEntities, if_pos rfl]

theorem uniqueLists_ofEntityLists {type : TypeRef} {counts : CountRange}
    (lists : List (List EntityId)) :
    (entityLists type true counts).uniqueLists (.ofEntityLists lists) = lists := by
  rw [Value.ofEntityLists, uniqueLists, List.map_map]
  refine (List.map_congr_left fun es _ => ?_).trans (List.map_id lists)
  exact Value.mentions_ofEntities es

/-- A list without an entity holds no other entities than before. -/
theorem held_without_subset {v : Value} (h : kind.Fits v)
    (hk : kind.isKeyList = true ∨ kind.isEntityList = true) (e : EntityId) :
    kind.held (v.without e) ⊆ kind.held v := by
  cases h with
  | entities | interfaceEntities =>
    rw [Value.without_ofEntities, held_ofEntities, held_ofEntities]
    exact List.map_subset _ (List.filter_subset_self _)
  | @entityLists _ _ _ lists =>
    rw [Value.without_ofEntityLists, held_ofEntityLists, held_ofEntityLists]
    refine List.map_subset _ fun y hy => ?_
    obtain ⟨es, hes, hy⟩ := List.mem_flatten.1 hy
    obtain ⟨es', hes', rfl⟩ := List.mem_map.1 hes
    exact List.mem_flatten.2 ⟨es', hes', List.mem_of_mem_filter hy⟩
  | @keyLists _ _ _ lists =>
    rw [Value.without_map_keyEntries, held_map_keyEntries, held_map_keyEntries]
    intro y hy
    obtain ⟨entry, hentry, hy⟩ := List.mem_flatMap.1 hy
    obtain ⟨entry', hentry', rfl⟩ := List.mem_map.1 hentry
    refine List.mem_flatMap.2 ⟨entry', List.mem_of_mem_filter hentry', ?_⟩
    obtain rfl | hy := List.mem_cons.1 hy
    · exact .head _
    · exact .tail _ (List.map_subset _ (List.filter_subset_self _) hy)
  | _ => exact hk.elim nofun nofun

/-- What is left of a list without repetitions has none. -/
theorem mem_uniqueLists_without {v : Value} (h : kind.Fits v)
    (hk : kind.isKeyList = true ∨ kind.isEntityList = true) {e : EntityId} {es : List EntityId}
    (hes : es ∈ kind.uniqueLists (v.without e)) :
    ∃ es' ∈ kind.uniqueLists v, es = es'.filter (· != e) := by
  cases h with
  | @entities type unique counts es' =>
    rw [Value.without_ofEntities, uniqueLists_ofEntities] at hes
    rw [uniqueLists_ofEntities]
    cases unique with
    | false => cases hes
    | true => exact ⟨es', .head _, List.mem_singleton.1 hes⟩
  | @interfaceEntities type unique counts es' =>
    rw [Value.without_ofEntities, uniqueLists_ofInterfaceEntities] at hes
    rw [uniqueLists_ofInterfaceEntities]
    cases unique with
    | false => cases hes
    | true => exact ⟨es', .head _, List.mem_singleton.1 hes⟩
  | @entityLists type unique counts lists =>
    cases unique with
    | false => cases hes
    | true =>
      rw [Value.without_ofEntityLists, uniqueLists_ofEntityLists] at hes
      obtain ⟨es', hes', rfl⟩ := List.mem_map.1 hes
      exact ⟨es', by rwa [uniqueLists_ofEntityLists], rfl⟩
  | @keyLists _ _ _ lists =>
    rw [Value.without_map_keyEntries, uniqueLists_keyEntries] at hes
    obtain ⟨entry, hentry, rfl⟩ := List.mem_map.1 hes
    obtain ⟨entry', hentry', rfl⟩ := List.mem_map.1 hentry
    refine ⟨entry'.2, ?_, rfl⟩
    rw [uniqueLists_keyEntries]
    exact List.mem_map_of_mem (List.mem_of_mem_filter hentry')
  | _ => exact hk.elim nofun nofun

/-! ## Values -/

/-- The entities that a value holds are as an input of the kind asks them to be, and its lists are
without repetitions. -/
structure Holds (R : EntityId → TypeRef → Prop) (kind : InputKind) (v : Value) : Prop where
  held : ∀ h ∈ kind.held v, R h.1 h.2
  unique : ∀ es ∈ kind.uniqueLists v, es.Nodup

namespace Holds

variable {R R' : EntityId → TypeRef → Prop} {v : Value}

theorem mono (h : kind.Holds R v) (hR : ∀ e type, R e type → R' e type) : kind.Holds R' v :=
  ⟨fun x hx => hR x.1 x.2 (h.held x hx), h.unique⟩

/-- A value that refers to no entity is as it should be. -/
theorem of_mentions_eq_nil (h : v.mentions = []) : kind.Holds R v where
  held x hx := absurd (h ▸ mem_mentions_of_held hx) List.not_mem_nil
  unique es hes := by
    have hnil : es = [] := List.subset_nil.1 (h ▸ subset_of_mem_uniqueLists hes)
    rw [hnil]
    exact List.nodup_nil

/-- A value that is no list holds one entity. -/
theorem of_held_eq {e : EntityId} {type : TypeRef} (hheld : kind.held v = [(e, type)])
    (hlists : kind.uniqueLists v = []) (h : R e type) : kind.Holds R v where
  held x hx := by
    rw [hheld, List.mem_singleton] at hx
    rwa [hx]
  unique es hes := by
    rw [hlists] at hes
    cases hes

/-- Lists that lose an entity hold no other ones than before. -/
theorem without {e : EntityId} (h : kind.Holds R v) (hfits : kind.Fits v)
    (hlist : kind.isKeyList = true ∨ kind.isEntityList = true) :
    kind.Holds (fun y type => y ≠ e ∧ R y type) (v.without e) where
  held x hx := by
    refine ⟨?_, h.held x (held_without_subset hfits hlist e hx)⟩
    exact ne_of_mem_of_not_mem (mem_mentions_of_held hx) (Input.fits_without hfits hlist e).2
  unique es hes := by
    obtain ⟨es', hes', rfl⟩ := mem_uniqueLists_without hfits hlist hes
    exact (h.unique es' hes').filter _

end Holds

/-- A list is as it should be if each of its entities is, and no two are the same where they should
differ. -/
theorem holds_ofEntities_iff {R : EntityId → TypeRef → Prop} {es : List EntityId} {unique : Bool}
    (hlists : kind.uniqueLists (.ofEntities es) = if unique then [es] else []) :
    kind.Holds R (.ofEntities es) ↔
      (∀ e ∈ es, R e kind.itemType) ∧ (unique = true → es.Nodup) := by
  constructor
  · rintro ⟨hheld, hunique⟩
    rw [held_ofEntities] at hheld
    rw [hlists] at hunique
    refine ⟨fun e he => hheld _ (List.mem_map_of_mem he), ?_⟩
    rintro rfl
    exact hunique es (.head _)
  · rintro ⟨hheld, hunique⟩
    constructor
    · intro x hx
      rw [held_ofEntities] at hx
      obtain ⟨e, he, rfl⟩ := List.mem_map.1 hx
      exact hheld e he
    · intro es' hes
      rw [hlists] at hes
      cases unique with
      | false => cases hes
      | true =>
        rw [List.mem_singleton.1 hes]
        exact hunique rfl

/-- Lists are as they should be if each of them is. -/
theorem holds_ofEntityLists_iff {R : EntityId → TypeRef → Prop} {type : TypeRef} {unique : Bool}
    {counts : CountRange} {lists : List (List EntityId)} :
    (entityLists type unique counts).Holds R (.ofEntityLists lists) ↔
      ∀ es ∈ lists, (∀ e ∈ es, R e type) ∧ (unique = true → es.Nodup) := by
  constructor
  · rintro ⟨hheld, hunique⟩ es hes
    rw [held_ofEntityLists] at hheld
    refine ⟨fun e he => hheld _ (List.mem_map_of_mem (List.mem_flatten.2 ⟨es, hes, he⟩)), ?_⟩
    rintro rfl
    rw [uniqueLists_ofEntityLists] at hunique
    exact hunique es hes
  · intro h
    constructor
    · intro x hx
      rw [held_ofEntityLists] at hx
      obtain ⟨e, he, rfl⟩ := List.mem_map.1 hx
      obtain ⟨es, hes, he⟩ := List.mem_flatten.1 he
      exact (h es hes).1 e he
    · intro es hes
      cases unique with
      | false => cases hes
      | true =>
        rw [uniqueLists_ofEntityLists] at hes
        exact (h es hes).2 rfl

/-- A key list is as it should be if each of its entries is. -/
theorem holds_keyEntries_iff {R : EntityId → TypeRef → Prop} {keyType valueType : TypeRef}
    {keyless : List EntityId} {lists : List (EntityId × List EntityId)} :
    (keyLists keyType valueType keyless).Holds R (.map (Value.keyEntries lists)) ↔
      ∀ entry ∈ lists, R entry.1 keyType ∧ (∀ e ∈ entry.2, R e valueType) ∧ entry.2.Nodup := by
  constructor
  · rintro ⟨hheld, hunique⟩ entry hentry
    rw [held_map_keyEntries] at hheld
    rw [uniqueLists_keyEntries] at hunique
    refine ⟨hheld _ (List.mem_flatMap.2 ⟨entry, hentry, .head _⟩), fun e he => ?_,
      hunique _ (List.mem_map_of_mem hentry)⟩
    exact hheld _ (List.mem_flatMap.2 ⟨entry, hentry, .tail _ (List.mem_map_of_mem he)⟩)
  · intro h
    refine ⟨fun x hx => ?_, fun es hes => ?_⟩
    · rw [held_map_keyEntries] at hx
      obtain ⟨entry, hentry, hx⟩ := List.mem_flatMap.1 hx
      obtain rfl | hx := List.mem_cons.1 hx
      · exact (h entry hentry).1
      · obtain ⟨e, he, rfl⟩ := List.mem_map.1 hx
        exact (h entry hentry).2.1 e he
    · rw [uniqueLists_keyEntries] at hes
      obtain ⟨entry, hentry, rfl⟩ := List.mem_map.1 hes
      exact (h entry hentry).2.2

end InputKind

/-! ## Inputs -/

namespace Input

/-- The entities that an input holds, each with what it asks of it. -/
def held (i : Input) : List (EntityId × TypeRef) :=
  i.kind.held i.stored ++ i.keyless.map (·, i.kind.itemType)

/-- The lists of an input without repetitions. The list for keys without an entry is one. -/
def uniqueLists (i : Input) : List (List EntityId) :=
  i.keyless :: i.kind.uniqueLists i.stored

/-- The entities that an input holds are as it asks them to be, and its lists are without
repetitions. -/
structure Holds (R : EntityId → TypeRef → Prop) (i : Input) : Prop where
  value : i.kind.Holds R i.stored
  keyless : ∀ e ∈ i.keyless, R e i.kind.itemType
  nodup_keyless : i.keyless.Nodup

variable {R R' : EntityId → TypeRef → Prop} {i : Input} {e : EntityId}

theorem Holds.held (h : i.Holds R) : ∀ x ∈ i.held, R x.1 x.2 := by
  intro x hx
  obtain hx | hx := List.mem_append.1 hx
  · exact h.value.held x hx
  · obtain ⟨e, he, rfl⟩ := List.mem_map.1 hx
    exact h.keyless e he

theorem Holds.unique (h : i.Holds R) : ∀ es ∈ i.uniqueLists, es.Nodup :=
  List.forall_mem_cons.2 ⟨h.nodup_keyless, h.value.unique⟩

theorem Holds.mono (h : i.Holds R) (hR : ∀ e type, R e type → R' e type) : i.Holds R' :=
  ⟨h.value.mono hR, fun e he => hR e _ (h.keyless e he), h.nodup_keyless⟩

/-- An input that refers to no entity is as it should be. -/
theorem Holds.of_mentions_eq_nil (h : i.mentions = []) : i.Holds R := by
  obtain ⟨hstored, hkeyless⟩ := List.append_eq_nil_iff.1 h
  refine ⟨.of_mentions_eq_nil hstored, ?_, ?_⟩
  · rw [hkeyless]
    exact nofun
  · rw [hkeyless]
    exact List.nodup_nil

/-- An input that is not set refers to no entity. -/
theorem mentions_reset (h : i.NamesNoEntity) : i.reset.mentions = [] := by
  cases hk : i.kind.isKeyList with
  | true =>
    have hvalue : (unsetValue i.kind).mentions = [] := by
      generalize i.kind = kind at hk
      cases kind with
      | keyLists => rfl
      | _ => cases hk
    rw [mentions_of_isKeyList (by exact hk)]
    exact List.append_eq_nil_iff.2 ⟨hvalue, h.keyless_eq⟩
  | false =>
    rw [(Suited.of_reset h).mentions_eq hk]
    rfl

theorem stored_assign (v : Value) (i : Input) : (i.assign v).stored = v := by
  unfold stored
  split
  · rfl
  · rfl

/-- An input that is set to a value that is as it should be is so too. -/
theorem Holds.assign (h : i.Holds R) {v : Value} (hv : i.kind.Holds R v) : (i.assign v).Holds R :=
  ⟨by rw [stored_assign]; exact hv, h.keyless, h.nodup_keyless⟩

theorem stored_of_isSet (hd : i.isDefault = false) : i.stored = i.value := by
  unfold stored
  split
  · rfl
  · rw [hd]
    rfl

/-- Only lists are kept when an entity is gone, and any other value is given up. -/
theorem Suited.letGo_cases (hi : i.Suited) (e : EntityId) :
    (e ∉ i.mentions ∧ i.letGo e = i) ∨ (i.letGo e).mentions = [] ∨
      ((i.letGo e).kind = i.kind ∧ (i.letGo e).stored = i.stored.without e ∧
        (i.letGo e).keyless = i.keyless.filter (· != e) ∧ i.kind.Fits i.stored ∧
        (i.kind.isKeyList = true ∨ i.kind.isEntityList = true)) := by
  cases hk : i.kind.isKeyList with
  | true =>
    refine .inr (.inr ⟨?_, ?_, ?_, ?_, .inl rfl⟩)
    · rw [letGo_of_isKeyList hk]
    · rw [letGo_of_isKeyList hk, stored_of_isKeyList (by exact hk), stored_of_isKeyList hk]
    · rw [letGo_of_isKeyList hk]
    · rw [stored_of_isKeyList hk]
      exact hi.fits (.inl hk)
  | false =>
    by_cases he : e ∈ i.mentions
    · rw [Input.letGo, if_pos he, Input.without, hk, if_neg Bool.false_ne_true]
      cases hl : i.kind.isEntityList with
      | true =>
        have hd : i.isDefault = false :=
          Bool.eq_false_iff.2 fun hd => hi.not_mem_of_isDefault hk hd e he
        rw [if_pos rfl, stored_of_isSet hd]
        refine .inr (.inr ⟨rfl, stored_of_isSet rfl, ?_, hi.fits (.inr hd), .inr rfl⟩)
        show i.keyless = i.keyless.filter (· != e)
        rw [hi.keyless hk]
        rfl
      | false => exact .inr (.inl (mentions_reset hi.namesNoEntity))
    · exact .inl ⟨he, if_neg he⟩

/-- **An input that lets go of an entity holds no other ones than before**, and not that one. -/
theorem Holds.letGo (h : i.Holds R) (hi : i.Suited) (e : EntityId) :
    (i.letGo e).Holds fun y type => y ≠ e ∧ R y type := by
  obtain ⟨he, heq⟩ | hnil | ⟨hkind, hstored, hkeyless, hfits, hlist⟩ := hi.letGo_cases e
  · obtain ⟨hstored, hkeyless⟩ := not_or.1 (mt List.mem_append.2 he)
    rw [heq]
    refine ⟨⟨fun x hx => ⟨?_, h.value.held x hx⟩, h.value.unique⟩,
      fun y hy => ⟨ne_of_mem_of_not_mem hy hkeyless, h.keyless y hy⟩, h.nodup_keyless⟩
    exact ne_of_mem_of_not_mem (InputKind.mem_mentions_of_held hx) hstored
  · exact .of_mentions_eq_nil hnil
  · constructor
    · rw [hkind, hstored]
      exact h.value.without hfits hlist
    · rw [hkind, hkeyless]
      intro y hy
      obtain ⟨hy, hne⟩ := List.mem_filter.1 hy
      exact ⟨bne_iff_ne.1 hne, h.keyless y hy⟩
    · rw [hkeyless]
      exact h.nodup_keyless.filter _

end Input

end ModelInputs
