import Mathlib.Data.List.Basic
import ModelInputs.Input.KeyList

/-!
# What a value refers to

A value refers to an entity if it is that entity, a keyword of it, a chain of outputs that starts at
it, or a sampler or a provider of one of these; a list refers to what its items refer to, and a map
to what its keys and values refer to. Taking an entity out of a value takes it out of its lists and
maps, at every depth, and leaves all other items in their order.

* `Value.mentions`: the entities that a value refers to, in order;
* `Value.without`: the value without an entity;
* `Input.mentions`, `Input.letGo`: the same for an input, whose lists lose the entity while any
  other value is given up;
* **`Value.without_eq_self`**: nothing is taken out of a value that does not refer to the entity.
-/

namespace ModelInputs

namespace Value

/-! ## References -/

mutual

/-- The entities that a value refers to. -/
def mentions : Value → List EntityId
  | entity e => [e]
  | keywordRef e _ => [e]
  | chain c => [c.root]
  | sampler (.chain c _) => [c.root]
  | provider (.constant e) => [e]
  | list items => mentionsOfItems items
  | tuple items => mentionsOfItems items
  | map entries => mentionsOfEntries entries
  | _ => []

/-- The entities that some values refer to. -/
def mentionsOfItems : List Value → List EntityId
  | [] => []
  | v :: vs => v.mentions ++ mentionsOfItems vs

/-- The entities that the keys and the values of a map refer to. -/
def mentionsOfEntries : List (Value × Value) → List EntityId
  | [] => []
  | (k, v) :: entries => k.mentions ++ v.mentions ++ mentionsOfEntries entries

end

mutual

/-- The value with an entity taken out of its lists and maps. -/
def without (e : EntityId) : Value → Value
  | list items => list (itemsWithout e items)
  | map entries => map (entriesWithout e entries)
  | v => v

/-- The items without the entity, and each of the others without it. -/
def itemsWithout (e : EntityId) : List Value → List Value
  | [] => []
  | v :: vs => if v.isEntity e then itemsWithout e vs else v.without e :: itemsWithout e vs

/-- The entries of all keys but the entity, and the value of each without it. -/
def entriesWithout (e : EntityId) : List (Value × Value) → List (Value × Value)
  | [] => []
  | (k, v) :: entries =>
    if k.isEntity e then entriesWithout e entries
    else (k, v.without e) :: entriesWithout e entries

end

variable {e : EntityId} {v : Value}

theorem mentionsOfItems_eq (vs : List Value) : mentionsOfItems vs = vs.flatMap mentions := by
  induction vs with
  | nil => rfl
  | cons v vs ih => rw [mentionsOfItems, ih, List.flatMap_cons]

theorem mentionsOfEntries_eq (entries : List (Value × Value)) :
    mentionsOfEntries entries = entries.flatMap fun (k, v) => k.mentions ++ v.mentions := by
  induction entries with
  | nil => rfl
  | cons entry entries ih => rw [mentionsOfEntries, ih, List.flatMap_cons]

theorem isEntity_iff : v.isEntity e = true ↔ v = entity e := by
  cases v with
  | entity e' => rw [isEntity, beq_iff_eq, entity.injEq]
  | _ =>
    constructor
    · rintro ⟨⟩
    · rintro ⟨⟩

theorem not_isEntity (h : e ∉ v.mentions) : v.isEntity e = false := by
  refine Bool.eq_false_iff.2 fun hv => h ?_
  rw [isEntity_iff.1 hv, mentions]
  exact .head _

mutual

/-- **A value that does not refer to an entity is the same without it.** -/
theorem without_eq_self (v : Value) (h : e ∉ v.mentions) : v.without e = v := by
  cases v with
  | list items =>
    rw [mentions] at h
    rw [without, itemsWithout_eq_self items h]
  | map entries =>
    rw [mentions] at h
    rw [without, entriesWithout_eq_self entries h]
  | _ => rfl

theorem itemsWithout_eq_self (vs : List Value) (h : e ∉ mentionsOfItems vs) :
    itemsWithout e vs = vs := by
  cases vs with
  | nil => rfl
  | cons v vs =>
    rw [mentionsOfItems, List.mem_append, not_or] at h
    rw [itemsWithout, not_isEntity h.1, without_eq_self v h.1, itemsWithout_eq_self vs h.2]
    rfl

theorem entriesWithout_eq_self (entries : List (Value × Value))
    (h : e ∉ mentionsOfEntries entries) : entriesWithout e entries = entries := by
  match entries with
  | [] => rfl
  | (k, v) :: entries =>
    rw [mentionsOfEntries, List.mem_append, List.mem_append, not_or, not_or] at h
    rw [entriesWithout, not_isEntity h.1.1, without_eq_self v h.1.2,
      entriesWithout_eq_self entries h.2]
    rfl

end

/-- A value that counts as empty refers to nothing. -/
theorem mentions_eq_nil_of_truth (h : v.truth = false) : v.mentions = [] := by
  cases v with
  | list items | tuple items =>
    cases items with
    | nil => rfl
    | cons v vs => cases h
  | map entries =>
    cases entries with
    | nil => rfl
    | cons entry entries => cases h
  | none | bool | int | float | text => rfl
  | _ => cases h

/-- An entity that is among the members of a value is one that the value refers to. -/
theorem mem_mentions_of_listed {vs : List Value} (h : v.listed = .ok vs) (he : entity e ∈ vs) :
    e ∈ v.mentions := by
  have hself : e ∈ (entity e).mentions := .head _
  unfold listed at h
  split at h
  · cases v with
    | list | tuple =>
      cases h
      rw [mentions, mentionsOfItems_eq]
      exact List.mem_flatMap.2 ⟨_, he, hself⟩
    | map entries =>
      cases h
      obtain ⟨entry, hentry, hkey⟩ := List.mem_map.1 he
      rw [mentions, mentionsOfEntries_eq]
      exact List.mem_flatMap.2 ⟨entry, hentry, List.mem_append_left _ (hkey ▸ hself)⟩
    | keywordRef e' id =>
      cases h
      obtain heq | he := List.mem_cons.1 he
      · rw [entity.inj heq]
        exact .head _
      · cases List.mem_singleton.1 he
    | text | colour | vector =>
      cases h
      obtain ⟨_, -, ⟨⟩⟩ := List.mem_map.1 he
    | _ => cases h
  · cases h
    cases he

/-! ## Lists of entities -/

/-- Lists of entities. -/
def ofEntityLists (lists : List (List EntityId)) : Value :=
  list (lists.map ofEntities)

/-- The entries of a key list. -/
def keyEntries (lists : List (EntityId × List EntityId)) : List (Value × Value) :=
  lists.map fun (key, es) => (entity key, ofEntities es)

/-- The lists of some keys without an entity, be it a key or in a list. -/
def listsWithout (e : EntityId) (lists : List (EntityId × List EntityId)) :
    List (EntityId × List EntityId) :=
  (lists.filter (·.1 != e)).map fun (key, es) => (key, es.filter (· != e))

theorem listsWithout_cons (key : EntityId) (es : List EntityId)
    (lists : List (EntityId × List EntityId)) :
    listsWithout e ((key, es) :: lists) =
      if key == e then listsWithout e lists
      else (key, es.filter (· != e)) :: listsWithout e lists := by
  rw [listsWithout, List.filter_cons, bne]
  cases key == e with
  | true => rfl
  | false => rfl

theorem mentionsOfItems_entities (es : List EntityId) : mentionsOfItems (es.map entity) = es := by
  rw [mentionsOfItems_eq, List.flatMap_map]
  exact List.flatMap_singleton' es

theorem mentionsOfItems_eq_nil {vs : List Value} (h : ∀ v ∈ vs, v.mentions = []) :
    mentionsOfItems vs = [] := by
  rw [mentionsOfItems_eq]
  exact List.flatMap_eq_nil_iff.2 h

theorem mentions_list_map {α : Type} {f : α → Value} (hf : ∀ x, (f x).mentions = []) (xs : List α) :
    (list (xs.map f)).mentions = [] := by
  refine mentionsOfItems_eq_nil fun v hv => ?_
  obtain ⟨x, -, rfl⟩ := List.mem_map.1 hv
  exact hf x

@[simp]
theorem mentions_ofEntities (es : List EntityId) : (ofEntities es).mentions = es := by
  rw [ofEntities, mentions, mentionsOfItems_entities]

@[simp]
theorem mentions_ofEntityLists (lists : List (List EntityId)) :
    (ofEntityLists lists).mentions = lists.flatten := by
  rw [ofEntityLists, mentions, mentionsOfItems_eq, List.flatMap_map, ← List.flatMap_id]
  exact List.flatMap_congr fun es _ => mentions_ofEntities es

@[simp]
theorem mentions_map_keyEntries (lists : List (EntityId × List EntityId)) :
    (map (keyEntries lists)).mentions = lists.flatMap fun (key, es) => key :: es := by
  rw [mentions, mentionsOfEntries_eq, keyEntries, List.flatMap_map]
  refine List.flatMap_congr ?_
  rintro ⟨key, es⟩ -
  show mentions (entity key) ++ (ofEntities es).mentions = key :: es
  rw [mentions_ofEntities]
  rfl

@[simp]
theorem without_ofEntities (es : List EntityId) :
    (ofEntities es).without e = ofEntities (es.filter (· != e)) := by
  rw [ofEntities, without, ofEntities]
  congr 1
  induction es with
  | nil => rfl
  | cons e' es ih =>
    rw [List.map_cons, itemsWithout, ih, isEntity, List.filter_cons, bne]
    cases e' == e with
    | true => rfl
    | false => rfl

@[simp]
theorem without_ofEntityLists (lists : List (List EntityId)) :
    (ofEntityLists lists).without e = ofEntityLists (lists.map (·.filter (· != e))) := by
  rw [ofEntityLists, without, ofEntityLists]
  congr 1
  induction lists with
  | nil => rfl
  | cons es lists ih =>
    rw [List.map_cons, itemsWithout, ih, without_ofEntities]
    rfl

@[simp]
theorem without_map_keyEntries (lists : List (EntityId × List EntityId)) :
    (map (keyEntries lists)).without e = map (keyEntries (listsWithout e lists)) := by
  rw [without]
  congr 1
  induction lists with
  | nil => rfl
  | cons entry lists ih =>
    obtain ⟨key, es⟩ := entry
    rw [keyEntries, List.map_cons, entriesWithout, ← keyEntries, ih, isEntity, listsWithout_cons,
      without_ofEntities]
    split
    · rfl
    · rfl

/-! ## Keys -/

/-- A list that is put under a key leaves a key list, whose other entries were there before. -/
theorem put_keyEntries (key : EntityId) (es : List EntityId)
    (lists : List (EntityId × List EntityId)) :
    ∃ lists', put (entity key) (ofEntities es) (keyEntries lists) = keyEntries lists' ∧
      ∀ entry ∈ lists', entry = (key, es) ∨ entry ∈ lists := by
  induction lists with
  | nil => exact ⟨[(key, es)], rfl, fun entry hentry => .inl (List.mem_singleton.1 hentry)⟩
  | cons entry lists ih =>
    obtain ⟨k, old⟩ := entry
    obtain ⟨lists', h, hold⟩ := ih
    rw [keyEntries, List.map_cons, put, ← keyEntries, h]
    split
    · next hk =>
      rw [sameLeaf_entity, isEntity, beq_iff_eq] at hk
      refine ⟨(k, es) :: lists, rfl, List.forall_mem_cons.2 ⟨.inl (by rw [hk]), fun entry hentry => ?_⟩⟩
      exact .inr (.tail _ hentry)
    · refine ⟨(k, old) :: lists', rfl, List.forall_mem_cons.2 ⟨.inr (.head _), fun entry hentry => ?_⟩⟩
      exact (hold entry hentry).imp_right (.tail _)

end Value

/-! ## Inputs -/

namespace InputKind

/-- The kind holds lists of entities by key. -/
def isKeyList : InputKind → Bool
  | keyLists .. => true
  | _ => false

/-- The kind holds a list of entities, or of lists of entities. -/
def isEntityList : InputKind → Bool
  | entities .. | interfaceEntities .. | entityLists .. => true
  | _ => false

end InputKind

namespace Input

/-- The entities that an input refers to: those of the value that applies, and those of the list for
keys without an entry. -/
def mentions (i : Input) : List EntityId :=
  i.stored.mentions ++ i.keyless

/-- The input without an entity that it refers to: lists lose it, any other value is given up. -/
def without (e : EntityId) (i : Input) : Input :=
  if i.kind.isKeyList then
    { i with value := i.value.without e, keyless := i.keyless.filter (· != e) }
  else if i.kind.isEntityList then i.assign (i.value.without e)
  else i.reset

/-- The input after an entity is gone, unchanged unless it refers to it. -/
def letGo (e : EntityId) (i : Input) : Input :=
  if e ∈ i.mentions then i.without e else i

theorem reset_letGo (e : EntityId) (i : Input) : (i.letGo e).reset = i.reset := by
  unfold letGo without
  split
  · split
    · rfl
    split
    · rfl
    · rfl
  · rfl

end Input

end ModelInputs
