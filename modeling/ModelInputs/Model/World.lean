import ModelInputs.Model.Palette
import ModelInputs.Model.Settings
import ModelInputs.Value.Text

/-!
# The world

A world holds the entities of a model, the attributes, and the registry, which knows entities by
their names in the order in which they were registered. Entities keep their identity when they are
renamed or removed from the registry.

* `World`;
* `World.entity?`, `World.named?`, `World.input?`, `World.handle?`: looking things up;
* `World.updateEntity`, `World.updateInput`: changing one entity or one input;
* `World.isInstance`, `World.target`, `World.valueOf`: classes, synonyms and values;
* **`World.entity?_updateEntity`**: a change of one entity leaves the others.
-/

namespace ModelInputs

/-- A model. -/
structure World where
  palette : Palette
  settings : Settings := {}
  entities : List Entity := []
  attributes : List Attribute := []
  registry : List (String × EntityId) := []
  recordsEdits : Bool := false

namespace World

/-! ## Entities and attributes -/

/-- The entity of an identity. -/
def entity? (w : World) (e : EntityId) : Option Entity :=
  w.entities[e.index]?

/-- The name of an entity. -/
def nameOf (w : World) (e : EntityId) : String :=
  ((w.entity? e).map (·.name)).getD ""

/-- The class of an entity. -/
def classOf (w : World) (e : EntityId) : String :=
  ((w.entity? e).map (·.className)).getD ""

/-- The world with one entity changed. -/
def updateEntity (w : World) (e : EntityId) (f : Entity → Entity) : World :=
  { w with entities := w.entities.modify e.index f }

/-- The entity registered under a name. -/
def named? (w : World) (name : String) : Option EntityId :=
  w.registry.lookup name

/-- The registered entities. -/
def registered (w : World) : List EntityId :=
  w.registry.map (·.2)

/-- An attribute. -/
def attribute? (w : World) (a : AttributeId) : Option Attribute :=
  w.attributes[a.index]?

/-- The world with one attribute changed. -/
def updateAttribute (w : World) (a : AttributeId) (f : Attribute → Attribute) : World :=
  { w with attributes := w.attributes.modify a.index f }

theorem entity?_updateEntity (w : World) (e e' : EntityId) (f : Entity → Entity) :
    (w.updateEntity e f).entity? e' = if e = e' then (w.entity? e').map f else w.entity? e' := by
  cases e; cases e'
  simp [entity?, updateEntity, List.getElem?_modify]
  split <;> simp_all

/-! ## Classes -/

/-- The class of an entity extends the given one. -/
def isInstance (w : World) (e : EntityId) (type : TypeRef) : Bool :=
  (TypeRef.named (w.classOf e)).isSubtype w.palette.ancestors type

/-- A value is of a type. -/
def hasType (w : World) (v : Value) (type : TypeRef) : Bool :=
  (v.typeOf w.classOf).isSubtype w.palette.ancestors type

/-- The registered entities of a class. -/
def registeredOf (w : World) (type : TypeRef) : List EntityId :=
  w.registered.filter (w.isInstance · type)

/-- The entity can find others by their names. -/
def hasNamespace (w : World) (this : Option EntityId) : Bool :=
  ((this.bind w.entity?).map (·.inNamespace)).getD false

/-! ## Inputs -/

/-- An input. -/
def input? (w : World) (id : InputId) : Option Input :=
  (w.entity? id.entity).bind (·.input? id.keyword)

/-- The world with one input changed. -/
def updateInput (w : World) (id : InputId) (f : Input → Input) : World :=
  w.updateEntity id.entity (Entity.updateInput id.keyword f)

/-- The number of inputs. -/
def inputCount (w : World) : Nat :=
  (w.entities.flatMap (·.inputs)).length

/-- The input that a chain of at most `n` synonyms ends at. -/
def targetWithin (w : World) : Nat → InputId → InputId
  | 0, id => id
  | n + 1, id =>
    match (w.input? id).bind (·.kind.target?) with
    | some target => w.targetWithin n target
    | none => id

/-- The input that a keyword stands for: itself, or for a synonym the end of the chain. -/
def target (w : World) (id : InputId) : InputId :=
  w.targetWithin w.inputCount id

/-- The value that applies to an input; a synonym has the value of its target. -/
def valueOf (w : World) (id : InputId) : Except Failure Value :=
  match w.input? (w.target id) with
  | some i => i.current?
  | none => .ok .none

/-! ## Outputs -/

/-- An output of the class of an entity. -/
def outputSpec? (w : World) (e : EntityId) (name : String) : Option OutputSpec :=
  w.palette.output? (w.classOf e) name

/-- The input of an entity that is an output under its keyword. -/
def inputOutput? (x : Entity) (name : String) : Option Input :=
  (x.input? name).filter (·.isOutput)

/-- Where an output of an entity is read: an attribute comes before a custom output, that before an
output of the class, and that before an input. -/
def handle? (w : World) (e : EntityId) (name : String) : Option Handle :=
  (w.entity? e).bind fun x =>
    ((x.attributes.lookup name).map Handle.attribute).or <|
    ((x.customOutputs.lookup name).map Handle.custom).or <|
    ((w.outputSpec? e name).map fun _ => Handle.output e name).or <|
    (inputOutput? x name).map fun _ => Handle.input ⟨e, name⟩

/-- The class of an entity or one of its inputs declares an output of that name. -/
def isDeclaredOutput (w : World) (e : EntityId) (name : String) : Bool :=
  (w.outputSpec? e name).isSome || ((w.entity? e).bind (inputOutput? · name)).isSome

/-- The user of an entity has defined an attribute of that name. -/
def hasAttribute (w : World) (e : EntityId) (name : String) : Bool :=
  ((w.entity? e).bind (·.attributes.lookup name)).isSome

/-- The user of an entity has defined a custom output of that name. -/
def hasCustomOutput (w : World) (e : EntityId) (name : String) : Bool :=
  ((w.entity? e).bind (·.customOutputs.lookup name)).isSome

/-- The entity has an output of that name. -/
def hasOutput (w : World) (e : EntityId) (name : String) : Bool :=
  w.hasAttribute e name || w.hasCustomOutput e name || w.isDeclaredOutput e name

/-- All outputs of an entity: those of its class, its inputs, attributes and custom outputs. -/
def handles (w : World) (e : EntityId) : List Handle :=
  match w.entity? e with
  | none => []
  | some x =>
    (w.palette.outputs x.className).map (Handle.output e ·.name)
      ++ (x.inputs.filter (·.isOutput)).map (Handle.input ⟨e, ·.keyword⟩)
      ++ x.attributes.map (Handle.attribute ·.2)
      ++ x.customOutputs.map (Handle.custom ·.2)

/-! ## Display -/

/-- An entity with its class. -/
def describe (w : World) (e : EntityId) : String :=
  w.classOf e ++ "(" ++ Text.literal (w.nameOf e) ++ ")"

/-- The name of the kind of an input. -/
def kindName (w : World) (id : InputId) : String :=
  ((w.input? id).map (·.kind.name)).getD ""

/-- An input with its kind. -/
def describeInput (w : World) (id : InputId) : String :=
  w.kindName id ++ "(" ++ Text.literal id.keyword ++ ")"

/-- The entity that a handle reads. -/
def handleEntity (w : World) : Handle → Option EntityId
  | .output e _ => some e
  | .attribute a => (w.attribute? a).map (·.entity)
  | .custom output => some output.entity
  | .input id => some id.entity

/-- The name of a handle. -/
def handleName (w : World) : Handle → String
  | .output _ name => name
  | .attribute a => ((w.attribute? a).map (·.name)).getD ""
  | .custom output => output.name
  | .input id => id.keyword

/-- The name of what a value is: an entity, a member of an enumeration or a user's output. -/
def nameIn (w : World) : Value → Except Failure String
  | .entity e => .ok (w.nameOf e)
  | .member m => .ok m.name
  | .handle (.attribute a) => .ok (w.handleName (.attribute a))
  | .handle (.custom output) => .ok output.name
  | _ => .error .noSuchPart

/-- A handle with its entity and name. -/
def describeHandle (w : World) (h : Handle) : String :=
  h.className ++ "(" ++ ((w.handleEntity h).map w.nameOf).getD "" ++ "." ++ w.handleName h ++ ")"

/-- How entities and inputs are shown. -/
def names (w : World) : Names where
  entity := w.nameOf
  describe := w.describe
  describeInput := w.describeInput
  inputKind := w.kindName
  describeHandle := w.describeHandle

end World

end ModelInputs
