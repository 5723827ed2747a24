import ModelInputs.Model.World

/-!
# Waiting entities and samples

The state of entities that changes while a model runs: the entities that wait in a queue, and the
sample of a generator.

* `World.waiting`, `World.enqueue`, `World.dequeue?`;
* `World.setSample`.
-/

namespace ModelInputs

namespace World

/-- The entities that wait in a queue, as values. -/
def waiting (w : World) (queue : EntityId) : List Value :=
  match w.entity? queue with
  | some x => (x.field "items").items
  | none => []

/-- The world with the waiting entities of a queue replaced. -/
def setWaiting (w : World) (queue : EntityId) (items : List Value) : World :=
  w.updateEntity queue (Entity.setField "items" (.list items))

/-- The world with an entity at the end of a queue. -/
def enqueue (w : World) (queue e : EntityId) : World :=
  w.setWaiting queue (w.waiting queue ++ [.entity e])

/-- The first entity of a queue, and the world without it there. -/
def dequeue? (w : World) (queue : EntityId) : Option (Value × World) :=
  match w.waiting queue with
  | first :: rest => some (first, w.setWaiting queue rest)
  | [] => none

/-- The world with the sample of a generator replaced. -/
def setSample (w : World) (generator : EntityId) (x : Float) (unit : UnitType) : World :=
  w.updateEntity generator (Entity.setField "sample" (.sampler (.constant x unit)))

end World

end ModelInputs
