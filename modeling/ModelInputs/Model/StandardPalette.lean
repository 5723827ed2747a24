import ModelInputs.Model.Palette

/-!
# The standard palette

The classes of entities that a model can be made of: plain entities and groups, queues and servers,
desks and counters that can be served, generators of samples, tables of constants, and calendars.

* `Palette.standard`.
-/

namespace ModelInputs

namespace Palette

/-! ## Inputs and outputs of all classes -/

/-- An input among the key inputs. -/
def keyInput (keyword : String) (kind : InputKind) (default : Value := .none)
    (isOutput : Bool := false) : Input :=
  { Input.make keyword "Key Inputs" kind default with isOutput := isOutput }

/-- The value of an input of an entity. -/
def storedInput (x : Entity) (keyword : String) : Except Failure Value :=
  ((x.input? keyword).map (·.current?)).getD (.ok .none)

/-- An output that always yields the same value. -/
def constantOutput (name : String) (v : Value) (type : TypeRef := .float)
    (unit : UnitType := .dimensionless) : OutputSpec where
  name := name
  type := type
  unitType := unit
  read _ _ _ := .ok v

/-- Entities. -/
def entityClass : EntityClass where
  name := "Entity"
  inputs := [
    keyInput "Description" .text (.text "") true,
    .make "AttributeDefinitionList" "Options" .attributes (.list []),
    .make "CustomOutputList" "Options" .customOutputs (.list [])]
  outputs := [
    { name := "Name"
      type := .text
      description := "The unique name of the entity."
      read := fun _ x _ => .ok (.text x.name) },
    { name := "ObjectType"
      type := .text
      description := "The class of the entity."
      sequence := 1
      read := fun _ x _ => .ok (.text x.className) }]

/-- Entities that stand for lists of others. -/
def groupClass : EntityClass where
  name := "EntityGroup"
  parents := ["Entity"]
  inputs := [keyInput "List" (.entities (.named "Entity") true {}) (.list [])]
  outputs := [
    { name := "NumberOfMembers"
      type := .int
      description := "Number of entities in the group."
      read := fun _ x _ => return .int (← (← storedInput x "List").listed).length }]

/-! ## Queues and servers -/

/-- Queues of entities. -/
def queueClass : EntityClass where
  name := "Queue"
  parents := ["Entity"]
  fields := [("items", .list [])]
  inputs := [keyInput "Capacity" (.integer { least := some 0 }) (.int 10)]
  outputs := [
    { name := "QueueLength"
      type := .int
      description := "Number of waiting entities"
      read := fun _ x _ => .ok (.int (x.field "items").items.length) },
    { name := "First"
      type := .named "Entity"
      description := "Entity at the head of the queue"
      read := fun _ x _ => .ok ((x.field "items").items.headD .none) }]

/-- Servers, which move and pass entities on. -/
def serverClass : EntityClass where
  name := "Server"
  parents := ["Entity"]
  inputs := [
    keyInput "ServiceTime" (.number .time { least := 0.0 }) (.float 1.0) true,
    keyInput "TravelDistance" (.number .distance {}) (.float 0.0),
    keyInput "NextComponent" (.entity (.named "Entity")),
    .make "RelativeEntity" "Graphics" (.relativeEntity (.named "Entity"))]
  outputs := [
    { constantOutput "Speed" (.float 2.0) .float .speed with
      description := "Travel speed"
      sequence := 2 },
    { name := "Elapsed"
      unitType := .time
      description := "Simulation time"
      isReportable := true
      sequence := 1
      read := fun _ _ t => .ok (.float t) },
    { name := "Next"
      type := .named "Entity"
      description := "Next component"
      read := fun _ x _ => storedInput x "NextComponent" }]

/-- Servers that move faster. -/
def fastServerClass : EntityClass where
  name := "FastServer"
  parents := ["Server", "Entity"]
  outputs := [
    { constantOutput "Speed" (.float 5.0) .float .speed with sequence := -1 },
    { name := "Boost"
      unitType := .speed
      read := fun _ _ t => .ok (.float (3.0 + t)) }]

/-! ## Tables and calendars -/

/-- Tables of constants. -/
def tableClass : EntityClass where
  name := "Table"
  parents := ["Entity"]
  outputs := [
    constantOutput "Values" (.list [.float 10.0, .float 20.0, .float 30.0]) .tuple,
    constantOutput "Lookup" (.map [(.text "a", .float 1.0), (.text "b", .float 2.0)]) .dict,
    { name := "Lengths"
      type := .tuple
      unitType := .distance
      read := fun _ _ t => .ok (.tuple [.float 1.0, .float 2.5, .float t]) },
    constantOutput "Matrix" (.list [.list [.int 1, .int 2], .list [.int 3, .int 4]]) .tuple,
    { name := "Nested"
      type := .dict
      read := fun e _ _ =>
        .ok (.map [
          (.text "n", .list [.int 1, .int 2, .map [(.text "x", .text "deep")]]),
          (.text "s", .entity e),
          (.int 7, .bool true)]) },
    constantOutput "Empty" (.list []) .tuple]

/-- The order in which a queue is served. -/
def discipline : Enumeration where
  name := "Discipline"
  members := [⟨"Discipline", "FIFO", 1⟩, ⟨"Discipline", "LIFO", 2⟩]
  aliases := [("QUEUE", "FIFO")]

/-- A time of work. -/
def shift : Enumeration where
  name := "Shift"
  members := [⟨"Shift", "DAY", 1⟩, ⟨"Shift", "NIGHT", 2⟩]

/-- Calendars, with outputs of all types. -/
def calendarClass : EntityClass where
  name := "Calendar"
  parents := ["Entity"]
  inputs := [
    keyInput "StartDate" .date (.date { year := 2024, month := 1, day := 31 }) true,
    keyInput "Shift" (.member shift) (.member ⟨"Shift", "NIGHT", 2⟩) true]
  outputs := [
    constantOutput "When"
      (.date { year := 2024, month := 1, day := 31, hour := 8, minute := 30 }) .datetime,
    constantOutput "Token" .object .object,
    { name := "Flag"
      type := .bool
      read := fun _ _ t => .ok (.bool (t > 0.0)) },
    { constantOutput "Days" (.int 86400) .int .time with sequence := 5 },
    { name := "Ready"
      unitType := .time
      read := fun _ _ t => .ok (.result (.number (t + 1.0) .distance)) },
    constantOutput "Limit" (.float Number.infinity),
    constantOutput "Undefined" (.float Number.notANumber),
    { name := "Broken"
      read := fun _ _ _ =>
        .error (.expression ⟨.stated "Calendar is broken", 3, some "some source"⟩) },
    { name := "Me"
      type := .object
      read := fun e _ _ => .ok (.entity e) }]

/-! ## The palette -/

/-- The standard classes and enumerations. -/
def standard : Palette where
  classes := [
    entityClass, groupClass, queueClass, serverClass, fastServerClass, tableClass, calendarClass,
    { name := "Desk", parents := ["Entity", "Servable"] },
    { name := "Counter", parents := ["Server", "Entity", "Servable"] },
    { name := "Generator"
      parents := ["Entity", "SampleProvider"]
      fields := [("sample", .sampler (.constant 7.0 .time))] },
    { name := "SampleConstant", parents := ["SampleProvider"] },
    { name := "SampleExpression", parents := ["SampleProvider"] },
    { name := "SampleOutput", parents := ["SampleProvider"] }]
  enumerations := [discipline, shift]

end Palette

end ModelInputs
