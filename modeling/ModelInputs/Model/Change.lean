import ModelInputs.Input.Assignment
import ModelInputs.Record.Item

/-!
# Applying keywords

The keywords of a record are applied to an entity one after another. Each is read first and only
then changes the world, so a keyword with an error changes nothing; the keywords before it stay
applied.

* `World.store`: the world after an assignment;
* `World.applyArguments`: one keyword;
* `World.applyRecord`: a record, with the world that it leaves in any case.
-/

namespace ModelInputs

namespace World

/-! ## Assignments -/

/-- The identities that the next attributes get. -/
def newAttributeIds (w : World) (count : Nat) : List AttributeId :=
  (List.range count).map fun k => ⟨w.attributes.length + k⟩

/-- The entity with all its attributes replaced. -/
def setAttributes (w : World) (e : EntityId) (attributes : List (String × AttributeId)) : World :=
  w.updateEntity e fun x => { x with attributes := distinctKeys attributes }

/-- The entity with all its custom outputs replaced. -/
def setCustomOutputs (w : World) (e : EntityId) (outputs : List CustomOutput) : World :=
  w.updateEntity e fun x =>
    { x with customOutputs := distinctKeys (outputs.map fun o => (o.name, o)) }

/-- The world with an attribute that is not yet one of an entity. -/
def addAttributes (w : World) (attributes : List Attribute) : World :=
  { w with attributes := w.attributes ++ attributes }

/-- The world after an assignment to an input. -/
def store (w : World) (id : InputId) : Assignment → World
  | .value v => w.updateInput id (Input.assign v)
  | .keyLists lists =>
    w.updateInput id fun i => { i.assign lists.toValue with keyless := lists.keyless }
  | .attributes e definitions =>
    let ids := w.newAttributeIds definitions.length
    ((w.addAttributes definitions).setAttributes e
        ((definitions.map (·.name)).zip ids)).updateInput id
      (Input.assign (.list (ids.map fun a => .handle (.attribute a))))
  | .customOutputs e outputs =>
    (w.setCustomOutputs e outputs).updateInput id
      (Input.assign (.list (outputs.map fun o => .handle (.custom o))))
  | .nothing => w

/-- The world after arguments are read into an input, for an entity. -/
def parseInput (w : World) (this : Option EntityId) (id : InputId) (a : Arguments) :
    Logged World := do
  let (target, assignment) ← w.readAssignment this id a
  return w.store target assignment

/-! ## Keywords -/

/-- The failure as one of a keyword of an entity. -/
def inKeyword (w : World) (e : EntityId) (a : Arguments) : Failure → Failure
  | .input error =>
    .input ⟨.inKeyword (w.nameOf e) a.keyword error.fault, error.origin.or a.origin⟩
  | failure => failure

/-- The input that is shown to have received the arguments of a keyword: that of the keyword, or for
a synonym its target. -/
def receiver (w : World) (id : InputId) : InputId :=
  ((w.input? id).bind (·.kind.target?)).getD id

/-- The input with its tokens, and marked as edited while edits are recorded. -/
def markReceiver (w : World) (e : EntityId) (a : Arguments) (i : Input) : Input :=
  let i := i.remember w.settings.maxStoredTokens a.args
  if w.recordsEdits && w.hasNamespace (some e) then { i with edited := true } else i

/-- The world after one keyword is applied to an entity, and the input that received it. -/
def applyArguments (w : World) (e : EntityId) (a : Arguments) : Logged (World × InputId) := do
  let id : InputId := ⟨e, a.keyword⟩
  if (w.input? id).isNone then
    throw (.input ⟨.keywordNotFound a.keyword (w.nameOf e), a.origin⟩)
  let changed ← ExceptT.adapt (w.inKeyword e a) (w.parseInput (some e) id a)
  let receiver := w.receiver id
  return (changed.updateInput receiver (w.markReceiver e a), receiver)

/-- What applying some keywords leaves: the world, the warnings, and the inputs that received a
value or the failure of the first keyword that was refused. -/
structure Applied where
  world : World
  warnings : List Warning
  result : Except Failure (List InputId)

/-- The keywords applied in order, behind those that received values before. -/
def applyItems (w : World) (e : EntityId) (log : List Warning) (done : List InputId) :
    List Arguments → Applied
  | [] => ⟨w, log, .ok done⟩
  | a :: items =>
    match (w.applyArguments e a).run log with
    | (.ok (w, id), log) => applyItems w e log (done ++ [id]) items
    | (.error failure, log) => ⟨w, log, .error failure⟩

/-- A record applied to an entity. -/
def applyRecord (w : World) (e : EntityId) (record : String) (origin : Option Origin := none) :
    Applied :=
  match Record.splitRecord? (Record.tokenize record) origin with
  | .ok items => w.applyItems e [] [] items
  | .error error => ⟨w, [], .error (.input error)⟩

end World

end ModelInputs
