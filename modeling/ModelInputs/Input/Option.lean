import ModelInputs.Input.Reference

/-!
# Options of inputs

Where the values that an input accepts can be listed, they are offered as options, and what it
accepts is described in words.

* `World.options?`, `World.summary`.
-/

namespace ModelInputs

namespace World

/-- The sorted names of registered entities. -/
def sortedNames (w : World) (es : List EntityId) : List String :=
  (es.map w.nameOf).mergeSort

/-- The values that a kind of input accepts, as arguments, for an input of an entity. -/
def kindOptions? (w : World) (this : Option EntityId) : InputKind → Option (List String)
  | .boolean => some ["TRUE", "FALSE"]
  | .choice choices _ => some choices
  | .member e => some e.names
  | .colour => some Colour.names
  | .texts choices _ => choices
  | .entity type | .interfaceEntity type | .relativeEntity type =>
    if w.hasNamespace this then
      some (w.sortedNames ((w.registeredOf type).filter fun e => some e != this))
    else some []
  | .entities type .. =>
    if w.hasNamespace this then some (w.sortedNames (w.registeredOf type)) else some []
  | .provider type invalid =>
    if w.hasNamespace this then
      some (w.sortedNames ((w.registeredOf type).filter fun e => !invalid.any (w.isInstance e)))
    else some []
  | _ => none

/-- The values that an input accepts, if they can be listed. -/
def options? (w : World) (this : Option EntityId) (i : Input) : Option (List String) :=
  w.kindOptions? this i.kind

/-- What an input accepts, in words; a synonym accepts what its target does. -/
def summary (w : World) (id : InputId) : String :=
  ((w.input? (w.target id)).map (·.kind.summary)).getD ""

end World

end ModelInputs
