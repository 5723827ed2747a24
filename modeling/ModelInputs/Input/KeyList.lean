import ModelInputs.Input.Reference

/-!
# Key lists

A key list has a list of entities for each key, which is an entity too, and one for all keys without
an entry. A group of arguments replaces the list of its key, or the keyless one if it names no key
first; a leading plus sign, written twice, adds to the list, and a minus sign takes away from it.

* `KeyLists`, `KeyLists.own?`, `KeyLists.get`, `Input.listFor`: the list of a key;
* `KeyLists.ofInput`, `KeyLists.toValue`;
* `World.editKeyLists`: the lists after the edits of some groups;
* **`KeyLists.own?_put`**: a list that is put under a key is the list of that key and of no other.
-/

namespace ModelInputs

/-- Lists by key, and the list for all other keys. -/
structure KeyLists where
  entries : List (Value × Value)
  keyless : List EntityId

namespace KeyLists

/-- What a key has of its own. -/
def own? (l : KeyLists) (key : EntityId) : Option Value :=
  (l.entries.find? (·.1.isEntity key)).map (·.2)

/-- The lists with that of a key replaced; a new key comes last. -/
def put (key : EntityId) (es : List EntityId) (l : KeyLists) : KeyLists :=
  { l with entries := Value.put (.entity key) (.ofEntities es) l.entries }

/-- The entities of a list. -/
def entitiesOf (v : Value) : Except Failure (List EntityId) :=
  return (← v.members).filterMap Value.entity?

/-- The list of a key, or the keyless one. -/
def get (l : KeyLists) (key : EntityId) : Except Failure (List EntityId) :=
  match l.own? key with
  | some v => entitiesOf v
  | none => .ok l.keyless

/-- The list that additions to a key start from, empty for a new key. -/
def ownList (l : KeyLists) (key : EntityId) : Except Failure (List EntityId) :=
  match l.own? key with
  | some v => entitiesOf v
  | none => .ok []

/-- The lists of an input. -/
def ofInput (i : Input) : Except Failure KeyLists :=
  return ⟨← i.value.asEntries, i.keyless⟩

/-- The lists by key as a value. -/
def toValue (l : KeyLists) : Value :=
  .map l.entries

theorem find?_put (key k : EntityId) (v : Value) (entries : List (Value × Value)) :
    ((Value.put (.entity key) v entries).find? (·.1.isEntity k)).map (·.2)
      = if k = key then some v else (entries.find? (·.1.isEntity k)).map (·.2) := by
  have isKey (e : EntityId) : (Value.entity e).isEntity k = decide (k = e) := by
    by_cases h : e = k
    · simp [Value.isEntity, h]
    · simp [Value.isEntity, h, Ne.symm h]
  induction entries with
  | nil =>
    rw [Value.put, List.find?_cons, isKey]
    by_cases h : k = key <;> simp [h]
  | cons entry entries ih =>
    obtain ⟨k', old⟩ := entry
    by_cases h' : k'.isEntity key = true
    · have : k' = .entity key := by
        cases k' <;> simp_all [Value.isEntity]
      subst this
      rw [Value.put, Value.sameLeaf_entity, if_pos h', List.find?_cons, List.find?_cons, isKey]
      by_cases h : k = key <;> simp [h]
    · rw [Value.put, Value.sameLeaf_entity, if_neg h', List.find?_cons, List.find?_cons]
      by_cases h : k'.isEntity k = true
      · have hk : k ≠ key := fun e => h' (e ▸ h)
        simp [h, hk]
      · simpa [h] using ih

theorem own?_put (key k : EntityId) (es : List EntityId) (l : KeyLists) :
    (l.put key es).own? k = if k = key then some (.ofEntities es) else l.own? k :=
  find?_put key k _ l.entries

theorem entitiesOf_ofEntities (es : List EntityId) :
    entitiesOf (.ofEntities es) = .ok es := by
  have : (es.map Value.entity).filterMap Value.entity? = es := by
    induction es with
    | nil => rfl
    | cons e es ih => simp [Value.entity?, ih]
  simp [entitiesOf, Value.ofEntities, this, pure, Except.pure, bind, Except.bind]

end KeyLists

/-- The list of a key of an input. -/
def Input.listFor (i : Input) (key : EntityId) : Except Failure (List EntityId) :=
  match i.value with
  | .map entries => KeyLists.get ⟨entries, i.keyless⟩ key
  | _ => .error .noSuchPart

namespace World

/-- The key that a name means. -/
def keyNamed? (w : World) (this : Option EntityId) (keyType : TypeRef) (name : String) :
    Option EntityId :=
  (w.findNamed? this name).filter (w.isInstance · keyType)

/-- The list with some entities added, none of which may be in it. -/
def addToList? (w : World) (list : List EntityId) (es : List EntityId) :
    Except InputError (List EntityId) :=
  es.foldlM
    (fun list e =>
      if list.contains e then refuseCommon .notUnique [w.nameOf e] else .ok (list ++ [e]))
    list

/-- The list without an entity; one that it does not hold gives a warning. -/
def takeFromList (w : World) (keyword : String) (list : List EntityId) (e : EntityId) :
    Logged (List EntityId) := do
  if list.contains e then return list.erase e
  Logged.warn (.notRemoved (w.nameOf e) keyword)
  return list

/-- A list after the edit that some tokens describe; only additions and removals need the list as it
was. -/
def editList (w : World) (this : Option EntityId) (keyword : String) (valueType : TypeRef)
    (list : Except Failure (List EntityId)) (tokens : List String) : Logged (List EntityId) := do
  let read (names : List String) := Logged.ofExcept (w.readEntities this valueType true names)
  match tokens with
  | "++" :: names => do
    let list ← Logged.ofExcept list
    Logged.ofInput (w.addToList? list (← read names))
  | "--" :: names => do
    let list ← Logged.ofExcept list
    (← read names).foldlM (w.takeFromList keyword) list
  | names => read names

/-- The lists after the edit of one group. -/
def editGroup (w : World) (this : Option EntityId) (keyword : String) (keyType valueType : TypeRef)
    (l : KeyLists) (group : Arguments) : Logged KeyLists :=
  match group.args with
  | [] => pure l
  | first :: tokens =>
    match w.keyNamed? this keyType first with
    | some key => do
      return l.put key (← w.editList this keyword valueType (l.ownList key) tokens)
    | none => do
      let es ← w.editList this keyword valueType (.ok l.keyless) (first :: tokens)
      return { l with keyless := es }

/-- The lists after the edits of the groups. -/
def editKeyLists (w : World) (this : Option EntityId) (keyword : String)
    (keyType valueType : TypeRef) (l : KeyLists) (a : Arguments) : Logged KeyLists := do
  (← Logged.ofInput a.subArguments?).foldlM (w.editGroup this keyword keyType valueType) l

end World

end ModelInputs
