import ModelInputs.Input.Kind
import ModelInputs.Value.Parts

/-!
# Inputs

An input of an entity: its keyword and kind, the value that applies until it is set, and the value
and the tokens that it was last set to. Key lists hold one more list, for keys without an entry.

* `Input`, `Input.make`;
* `Input.stored`, `Input.current?`: the value that applies, synonyms aside;
* `Input.assign`, `Input.reset`, `Input.remember`;
* `Input.copyFrom`, `Input.checkCopy`: the input set as another one is;
* `Input.removeReferences`: the input without an entity that goes away.
-/

namespace ModelInputs

/-- A keyword of an entity. -/
structure Input where
  keyword : String
  category : String
  kind : InputKind
  default : Value
  value : Value
  isDefault : Bool := true
  /-- set since edits are recorded -/
  edited : Bool := false
  /-- the tokens last given, unless there were too many -/
  tokens : Option (List String) := none
  /-- the list for keys without an entry -/
  keyless : List EntityId := []
  hidden : Bool := false
  required : Bool := false
  /-- the value is an output of the entity too -/
  isOutput : Bool := false
  description : String := ""
  /-- the text shown for the default, in place of its own -/
  defaultText : Option String := none

namespace Input

/-- The value of an input that has not been set. -/
def unsetValue : InputKind → Value
  | .keyLists .. => .map []
  | _ => .none

/-- The list for keys without an entry, of an input that has not been set. -/
def unsetKeyless : InputKind → List EntityId
  | .keyLists _ _ keyless => keyless
  | _ => []

/-- A new input. -/
def make (keyword category : String) (kind : InputKind) (default : Value := .none) : Input where
  keyword := keyword
  category := category
  kind := kind
  default := default
  value := unsetValue kind
  keyless := unsetKeyless kind
  hidden := match kind with
    | .synonym _ => true
    | .deprecated .. => true
    | _ => false

/-- The value that applies; key lists are never at a default. -/
def stored (i : Input) : Value :=
  match i.kind with
  | .keyLists .. => i.value
  | _ => if i.isDefault then i.default else i.value

/-- The value that applies, if it can be read: a key list must have entries. -/
def current? (i : Input) : Except Failure Value :=
  match i.kind with
  | .keyLists .. => return .map (← i.value.asEntries)
  | _ => .ok i.stored

/-- The input set to a value. -/
def assign (v : Value) (i : Input) : Input :=
  { i with value := v, isDefault := false }

/-- The input as it was before it was set. -/
def reset (i : Input) : Input :=
  { i with
    value := unsetValue i.kind
    keyless := unsetKeyless i.kind
    isDefault := true
    edited := false
    tokens := none }

/-- The input with the tokens it was set by, unless there are more than are kept. -/
def remember (maxTokens : Int) (tokens : List String) (i : Input) : Input :=
  { i with tokens := if (tokens.length : Int) > maxTokens then none else some tokens }

/-! ## Copies -/

/-- The list for keys without an entry, set as that of another input is, if it has one. -/
def copiedKeyless (other i : Input) : List EntityId :=
  match other.kind with
  | .keyLists .. => other.keyless
  | _ => i.keyless

/-- The input set as another one is. A key list keeps a value without entries as it is, and can not
be read from then on. -/
def copyFrom (other i : Input) : Input :=
  let copy := { i with value := other.value, isDefault := other.isDefault, tokens := other.tokens }
  match i.kind, other.value.asEntries with
  | .keyLists .., .ok entries => { copy with value := .map entries, keyless := copiedKeyless other i }
  | _, _ => copy

/-- The value of the other input is one that the input can have. -/
def checkCopy (other i : Input) : Except Failure Unit :=
  match i.kind with
  | .keyLists .. => other.value.asEntries.map fun _ => ()
  | _ => .ok ()

/-! ## References -/

/-- The list without the entity. -/
def dropEntity (e : EntityId) (items : List Value) : List Value :=
  items.filter fun v => !v.isEntity e

/-- A value without the entity, and whether it was there. -/
def dropMember (e : EntityId) (v : Value) : Except Failure (Value × Bool) := do
  if ← v.holds e then return (.list (dropEntity e (← v.members)), true) else return (v, false)

/-- The values without the entity, and whether it was in one of them. -/
def dropMembers (e : EntityId) (vs : List Value) : Except Failure (List Value × Bool) := do
  let dropped ← vs.mapM (dropMember e)
  return (dropped.map (·.1), dropped.any (·.2))

/-- The entries of a key list without the entity, as key and as value, and whether it was there. -/
def dropEntries (e : EntityId) (entries : List (Value × Value)) :
    Except Failure (List (Value × Value) × Bool) := do
  let kept := entries.filter fun entry => !entry.1.isEntity e
  let (lists, changed) ← dropMembers e (kept.map (·.2))
  return ((kept.map (·.1)).zip lists, changed || entries.any (·.1.isEntity e))

/-- The value of an input that refers to one entity refers to this one. -/
def refersTo (e : EntityId) : InputKind → Value → Except Failure Bool
  | .entity _, v | .interfaceEntity _, v | .relativeEntity _, v => .ok (v.isEntity e)
  | .keyword, .none | .output _, .none => .ok false
  | .keyword, .keywordRef e' _ | .keyword, .provider (.constant e') => .ok (e' == e)
  | .keyword, _ => .error .noSuchPart
  | .output _, .chain c => .ok (c.root == e)
  | .output _, _ => .error .noSuchPart
  | .sample .., .entity e' | .provider .., .provider (.constant e') => .ok (e' == e)
  | .sample .., .sampler (.chain c _) => .ok (c.root == e)
  | _, _ => .ok false

/-- The input with a value of which something was dropped, or else as it was. -/
def assignDropped (i : Input) (dropped : Value × Bool) : Input × Bool :=
  if dropped.2 then (i.assign dropped.1, true) else (i, false)

/-- The input without an entity, and whether it changes. Inputs that refer to one entity are reset
and lists lose their items; a key list does so also while it has not been set. -/
def removeReferences (e : EntityId) (i : Input) : Except Failure (Input × Bool) :=
  match i.kind with
  | .keyLists .. => do
    let (entries, changed) ← dropEntries e (← i.value.asEntries)
    return ({ i with value := .map entries, keyless := i.keyless.filter (· != e) },
      changed || i.keyless.contains e)
  | .entities .. | .interfaceEntities .. =>
    if i.isDefault || !i.value.truth then .ok (i, false)
    else return i.assignDropped (← dropMember e i.value)
  | .entityLists .. =>
    if i.isDefault || !i.value.truth then .ok (i, false)
    else do
      let (lists, changed) ← dropMembers e (← i.value.members)
      return i.assignDropped (.list lists, changed)
  | kind =>
    if i.isDefault then .ok (i, false)
    else return if ← refersTo e kind i.value then (i.reset, true) else (i, false)

end Input

end ModelInputs
