import ModelInputs.Model.Change

/-!
# The registry

Entities are created, registered under their names, renamed and removed. An entity that is killed
leaves the registry, and all inputs of the registered entities let go of it.

* `World.create?`, `World.addInput?`;
* `World.register?`, `World.unregister`, `World.rename?`;
* `World.kill`: the inputs that changed, in the order of the registry.
-/

namespace ModelInputs

namespace World

/-! ## The names of entities -/

/-- The entity registered under its name. -/
def register? (w : World) (e : EntityId) : Except Failure World :=
  let name := w.nameOf e
  if (w.named? name).isSome then .error (.ofFault (.entityNameInUse name))
  else
    .ok ({ w with registry := w.registry ++ [(name, e)] }.updateEntity e fun x =>
      { x with inNamespace := true })

/-- The registry without a name. -/
def withoutName (w : World) (name : String) : List (String × EntityId) :=
  w.registry.filter (·.1 != name)

/-- The entity is registered under its name. -/
def isRegistered (w : World) (e : EntityId) : Bool :=
  w.named? (w.nameOf e) == some e

/-- The registry without an entity, if it was registered. -/
def unregister (w : World) (e : EntityId) : World :=
  if w.isRegistered e then { w with registry := w.withoutName (w.nameOf e) } else w

/-- The entity under a new name. What was registered under its old name no longer is. -/
def rename? (w : World) (e : EntityId) (name : String) : Except Failure World :=
  if !isValidName name then .error (.ofFault (.invalidEntityName name))
  else if (w.named? name).isSome then .error (.ofFault (.entityNameInUse name))
  else
    .ok ({ w with registry := w.withoutName (w.nameOf e) ++ [(name, e)] }.updateEntity e fun x =>
      { x with name := name })

/-! ## New entities and inputs -/

/-- A new entity of a class. -/
def newEntity (w : World) (className name : String) : Entity where
  name := name
  className := className
  inputs := w.palette.inputs className
  fields := w.palette.fields className

/-- The world with a new entity, which is registered unless it is to stay loose. -/
def create? (w : World) (className name : String) (loose : Bool := false) :
    Except Failure (World × EntityId) :=
  if !isValidName name then .error (.ofFault (.invalidEntityName name))
  else
    let e : EntityId := ⟨w.entities.length⟩
    let created := { w with entities := w.entities ++ [w.newEntity className name] }
    if loose then .ok (created, e) else (created.register? e).map (·, e)

/-- The entity with one more input, whose keyword must be new. -/
def addInput? (w : World) (e : EntityId) (i : Input) : Except Failure World :=
  if (w.input? ⟨e, i.keyword⟩).isSome then .error (.duplicateKeyword i.keyword (w.classOf e))
  else .ok (w.updateEntity e fun x => { x with inputs := x.inputs ++ [i] })

/-! ## The end of an entity -/

/-- One input without an entity, and whether it changed. -/
def dropFromInput (e : EntityId) (w : World) (id : InputId) : Except Failure (World × Bool) :=
  match w.input? id with
  | some i => do
    let (i, changed) ← i.removeReferences e
    return (w.updateInput id fun _ => i, changed)
  | none => .ok (w, false)

/-- What taking an entity out of some inputs leaves: the world, and the inputs that changed or the
failure of the first input whose value can not be searched. -/
structure Dropped where
  world : World
  result : Except Failure (List InputId)

/-- Some inputs without an entity, in order, behind those that changed before. -/
def dropFromInputs (e : EntityId) (w : World) (done : List InputId) : List InputId → Dropped
  | [] => ⟨w, .ok done⟩
  | id :: ids =>
    match w.dropFromInput e id with
    | .ok (w, changed) => dropFromInputs e w (if changed then done ++ [id] else done) ids
    | .error failure => ⟨w, .error failure⟩

/-- The inputs of the registered entities. -/
def registeredInputs (w : World) : List InputId :=
  w.registered.flatMap fun e =>
    match w.entity? e with
    | some x => x.inputs.map fun i => ⟨e, i.keyword⟩
    | none => []

/-- The world without an entity, and the inputs that referred to it. -/
def kill (w : World) (e : EntityId) : Dropped :=
  if w.hasNamespace (some e) then
    let w := w.unregister e
    w.dropFromInputs e [] w.registeredInputs
  else ⟨w, .ok []⟩

/-! ## Attributes -/

/-- An attribute of an entity with a value assigned. -/
def setAttribute? (w : World) (e : EntityId) (name : String) (r : Result) :
    Except Failure World :=
  match (w.entity? e).bind (·.attributes.lookup name) with
  | some a => .ok (w.updateAttribute a (Attribute.assign r))
  | none => .error (.exprAt 0 (.attributeUndefined name (w.nameOf e)))

/-- The attributes of an entity with the values that they started with. -/
def resetAttributes (w : World) (e : EntityId) : World :=
  match w.entity? e with
  | some x => x.attributes.foldl (fun w (_, a) => w.updateAttribute a Attribute.reset) w
  | none => w

/-- A required input has a value. -/
def validate (w : World) (id : InputId) : Except Failure Unit := do
  match w.input? id with
  | some i =>
    if i.required then
      if (← w.valueOf id).isNone then throw (.ofFault (.common .required [i.keyword]))
  | none => return ()

end World

end ModelInputs
