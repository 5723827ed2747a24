import ModelInputs.Value.Result
import ModelInputs.Value.Same

/-!
# Parts of values

An input can be set as another one is, whatever the kinds of the two are. So a value that is counted,
taken apart or read as a map may be of a type that does not allow this, and is then refused.

* `Value.truth`: the value as a truth value;
* `Value.members`, `Value.listed`, `Value.holds`: the members of a value, in order;
* `Value.put`, `Value.asEntries`: a value as the entries of a map;
* **`Value.members_list`**, **`Value.asEntries_map`**: lists and maps are never refused.
-/

namespace ModelInputs.Value

/-- The value is neither missing nor zero nor empty. -/
def truth : Value → Bool
  | none => false
  | bool b => b
  | int n => n != 0
  | float x => x != 0.0
  | text s => s != ""
  | list items => !items.isEmpty
  | tuple items => !items.isEmpty
  | map entries => !entries.isEmpty
  | _ => true

/-! ## Members -/

/-- The items of a list, the components of a colour or a vector, the keys of a map, or the
characters of a text. -/
def members : Value → Except Failure (List Value)
  | list items => .ok items
  | tuple items => .ok items
  | map entries => .ok (entries.map (·.1))
  | text s => .ok (s.toList.map fun c => text (String.singleton c))
  | colour c => .ok ([c.red, c.green, c.blue, c.alpha].map float)
  | vector v => .ok (v.toList.map float)
  | keywordRef e id => .ok [entity e, input id]
  | _ => .error .unsuitable

/-- The members of a value; one that is not true has none. -/
def listed (v : Value) : Except Failure (List Value) :=
  if v.truth then v.members else .ok []

/-- The entity is a member; the characters of a text can not be asked for one. -/
def holds (e : EntityId) : Value → Except Failure Bool
  | text _ => .error .unsuitable
  | v => return (← v.members).any (·.isEntity e)

@[simp]
theorem members_list (items : List Value) : (list items).members = .ok items := rfl

@[simp]
theorem listed_list (items : List Value) : (list items).listed = .ok items := by
  cases items <;> simp [listed, truth, members]

@[simp]
theorem holds_list (e : EntityId) (items : List Value) :
    (list items).holds e = .ok (items.any (·.isEntity e)) := rfl

/-! ## Entries -/

/-- The entries with the value of a key replaced; a new key comes last. -/
def put (key v : Value) : List (Value × Value) → List (Value × Value)
  | [] => [(key, v)]
  | (k, old) :: entries =>
    if k.sameLeaf key then (k, v) :: entries else (k, old) :: put key v entries

/-- An item of a list as a key with its value. -/
def asPair (index : Nat) (item : Value) : Except Failure (Value × Value) := do
  match ← item.members with
  | [key, v] => return (key, v)
  | parts => throw (.notAPair index parts.length)

/-- The entries of a map, or of a list of keys with their values, of which the last one of a key
counts. -/
def asEntries : Value → Except Failure (List (Value × Value))
  | map entries => .ok entries
  | v => do
    let pairs ← (← v.listed).zipIdx.mapM fun (item, index) => asPair index item
    return pairs.foldl (fun entries (key, v) => put key v entries) []

@[simp]
theorem asEntries_map (entries : List (Value × Value)) : (map entries).asEntries = .ok entries :=
  rfl

theorem sameLeaf_entity (k : Value) (e : EntityId) : k.sameLeaf (entity e) = k.isEntity e := by
  cases k <;> simp [sameLeaf, ofTruth, isEntity]

end ModelInputs.Value
