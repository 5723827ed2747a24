import ModelInputs.Input.Definition
import ModelInputs.Input.KeyList
import ModelInputs.Input.Sample

/-!
# From arguments to assignments

The arguments of a keyword are read, by the rules of the kind of its input, into an assignment: what
the input is set to, and for definitions the attributes or custom outputs that the entity gets.
Reading changes nothing, so arguments with an error leave the world as it was.

* `Assignment`;
* `World.readKind`: the assignment of some arguments, by kind;
* `World.readAssignment`: that of an input, or of the target of a synonym.
-/

namespace ModelInputs

/-- What arguments do to an input. -/
inductive Assignment where
  | value (v : Value)
  | keyLists (lists : KeyLists)
  | attributes (owner : EntityId) (definitions : List Attribute)
  | customOutputs (owner : EntityId) (outputs : List CustomOutput)
  /-- the arguments are ignored -/
  | nothing

/-! ## Single values -/

/-- The only argument. -/
def Arguments.single? (a : Arguments) : Except InputError String := do
  a.checkCount [1]
  return a.args.headD ""

/-- A text, which can hold no quote. -/
def readText? (a : Arguments) : Except InputError Value := do
  let s ← a.single?
  if s.toList.contains '\'' then refuseCommon .apostrophe [s] a.origin else return .text s

/-- The first of the choices that the token means. -/
def readChoice? (a : Arguments) (choices : List String) (caseSensitive : Bool) :
    Except InputError Value := do
  let token ← a.single?
  let means (choice : String) :=
    choice == token || (!caseSensitive && Text.upper choice == Text.upper token)
  match choices.find? means with
  | some choice => return .text choice
  | none => refuseCommon .badChoice [Text.literalList (choices.map Text.literal), token] a.origin

/-- A member of an enumeration. -/
def readMember? (a : Arguments) (e : Enumeration) : Except InputError Value := do
  let token ← a.single?
  match e.find? token with
  | some m => return .member m
  | none => refuseCommon .badChoice [Text.literalList (e.names.map Text.literal), token] a.origin

/-- A date, as one argument or as a date and a time. -/
def readDate? (a : Arguments) : Except InputError DateTime := do
  a.checkCountRange 1 (some 2)
  match DateTime.ofIso? ("T".intercalate a.args) with
  | some d => return d
  | none => refuseCommon .badDate [a.text]

/-! ## Lists -/

/-- The number of arguments lies between the bounds. -/
def Arguments.checkCounts (a : Arguments) (counts : CountRange) : Except InputError Unit :=
  a.checkCountRange counts.least (some counts.most)

/-- The list, if it has as many elements as are accepted. -/
def Arguments.sized {α : Type} (a : Arguments) (counts : CountRange) (xs : List α) :
    Except InputError (List α) := do
  a.checkElements xs.length counts.least counts.most
  return xs

/-- Texts, which can hold no quotes and must be among the choices. -/
def readTexts? (a : Arguments) (choices : Option (List String)) (counts : CountRange) :
    Except InputError Value := do
  a.checkCounts counts
  match a.args.find? (·.toList.contains '\'') with
  | some s => refuseCommon .apostrophe [s] a.origin
  | none =>
    match choices with
    | none => return .list (a.args.map .text)
    | some choices =>
      match a.args.find? (!choices.contains ·) with
      | some s =>
        refuseCommon .badChoice [Text.literalList (choices.map Text.literal), s] a.origin
      | none => return .list (a.args.map .text)

/-- The last argument, if it is the unit of all vectors, and the arguments before it. -/
def splitVectorUnit (a : Arguments) : List String × List String :=
  match a.args.getLast? with
  | some last =>
    if last ≠ "\x7d" ∧ (PhysicalUnit.find? last).isSome then (a.args.dropLast, [last])
    else (a.args, [])
  | none => (a.args, [])

/-- Vectors in groups, with a unit for all of them. -/
def readVectors (settings : Settings) (a : Arguments) (unit : UnitType) (counts : CountRange) :
    Logged Value := do
  let (args, shared) := splitVectorUnit a
  let groups ← Logged.ofInput (Arguments.make? a.keyword args a.origin)
  let vs ← readGroups groups fun _ group => do
    let a ← Logged.ofInput (Arguments.make? a.keyword (group.args ++ shared))
    readVector settings a unit {}
  return .list ((← Logged.ofInput (a.sized counts vs)).map .vector)

namespace World

/-! ## References -/

/-- The value of a keyword from which the same keyword must not lead back. -/
def relativeValue (w : World) (keyword : String) (e : EntityId) : Value :=
  match w.input? ⟨e, keyword⟩ with
  | some i =>
    match i.kind with
    | .relativeEntity _ => i.stored
    | _ => .none
  | none => .none

/-- Following a keyword from an entity leads to the goal, in at most `n` steps and without passing
the entities seen before. -/
def leadsTo (w : World) (keyword : String) (goal : Option EntityId) :
    Nat → List EntityId → EntityId → Except Failure Bool
  | 0, _, e => .ok (some e == goal)
  | n + 1, seen, e =>
    if some e == goal then .ok true
    else if seen.contains e then .ok false
    else
      match w.relativeValue keyword e with
      | .entity next => w.leadsTo keyword goal n (e :: seen) next
      | .none => .ok false
      | _ => .error .noSuchPart

/-- An entity from which the keyword does not lead back. -/
def readRelative (w : World) (this : Option EntityId) (keyword : String) (type : TypeRef)
    (name : String) : Except Failure EntityId := do
  let e ← (w.readEntity? this type name).mapError Failure.input
  if ← w.leadsTo keyword this w.entities.length [] e then
    throw (.ofFault (.common .circular [(this.map w.nameOf).getD ""]))
  return e

/-- Entities that implement an interface. -/
def readInterfaces? (w : World) (this : Option EntityId) (type : TypeRef) (unique : Bool)
    (a : Arguments) : Except InputError (List EntityId) :=
  a.args.foldlM
    (fun found name => do
      let e ← w.readInterface? this type name
      if unique && found.contains e then refuseCommon .notUnique [w.nameOf e] a.origin
      else return found ++ [e])
    []

/-- An input of an entity. -/
def readKeyword? (w : World) (this : Option EntityId) (a : Arguments) :
    Except InputError Value := do
  a.checkCount [2]
  let e ← w.readEntity? this entityType (a.args.headD "")
  let keyword := a.args.getD 1 ""
  if (w.input? ⟨e, keyword⟩).isSome then return .keywordRef e ⟨e, keyword⟩
  else throw ⟨.keywordNotFound keyword (w.nameOf e), none⟩

/-- A chain of outputs; where the unit type of its numbers is known, it must be the expected one. -/
def readOutput? (w : World) (this : Option EntityId) (unit : Option UnitType) (a : Arguments) :
    Except Failure Value := do
  let c ← (w.readChain? this a).mapError Failure.input
  match unit with
  | some u =>
    if c.remaining.isEmpty then
      let actual ← w.chainUnit w.readings c 0.0
      if actual ≠ u then throw (.ofFault (.common .units [u.name, actual.name]))
  | none => pure ()
  return .chain c

/-! ## By kind -/

/-- The value that arguments give to an input of a kind with values of its own. -/
def readArguments (w : World) (this : Option EntityId) (i : Input) (a : Arguments) : Logged Value :=
  match i.kind with
  | .boolean => Logged.ofInput do
    return .bool (← readBoolean? (← a.single?))
  | .integer range => Logged.ofInput do
    return .int (← readInteger? (← a.single?) range)
  | .number unit range => do
    Logged.ofInput (a.checkCountRange 1 (some 2))
    match ← readQuantities w.settings a unit range with
    | [x] => return .float x
    | _ => Logged.ofInput (refuseCommon .count ["1", a.text] a.origin)
  | .text => Logged.ofInput (readText? a)
  | .choice choices caseSensitive => Logged.ofInput (readChoice? a choices caseSensitive)
  | .member e => Logged.ofInput (readMember? a e)
  | .date => Logged.ofInput ((readDate? a).map .date)
  | .colour => Logged.ofInput ((Colour.read? a).map .colour)
  | .vector unit range => return .vector (← readVector w.settings a unit range)
  | .integers range counts => Logged.ofInput do
    a.checkCounts counts
    return .list ((← a.args.mapM (readInteger? · range)).map .int)
  | .numbers unit range counts => do
    let xs ← readQuantities w.settings a unit range
    return .list ((← Logged.ofInput (a.sized counts xs)).map .float)
  | .texts choices counts => Logged.ofInput (readTexts? a choices counts)
  | .colours counts => do
    let cs ← readGroups a fun _ group => Logged.ofInput (Colour.read? group)
    return .list ((← Logged.ofInput (a.sized counts cs)).map .colour)
  | .vectors unit counts => readVectors w.settings a unit counts
  | .entity type => Logged.ofInput do
    return .entity (← w.readEntity? this type (← a.single?))
  | .interfaceEntity type => Logged.ofInput do
    return .entity (← w.readInterface? this type (← a.single?))
  | .relativeEntity type => do
    let name ← Logged.ofInput a.single?
    return .entity (← Logged.ofExcept (w.readRelative this i.keyword type name))
  | .entities type unique counts => do
    let es ← Logged.ofExcept (w.readEntities this type unique a.args)
    return .ofEntities (← Logged.ofInput (a.sized counts es))
  | .interfaceEntities type unique counts => Logged.ofInput do
    a.checkCounts counts
    return .ofEntities (← w.readInterfaces? this type unique a)
  | .entityLists type unique counts => do
    let lists ← readGroups a fun _ group =>
      Logged.ofExcept (w.readEntities this type unique group.args)
    return .list ((← Logged.ofInput (a.sized counts lists)).map .ofEntities)
  | .keyword => Logged.ofInput (w.readKeyword? this a)
  | .output unit => Logged.ofExcept (w.readOutput? this unit a)
  | .sample unit range => w.readSample this unit range a
  | .provider type invalid => do
    let token ← Logged.ofInput a.single?
    Logged.ofExcept (w.readProvider this type invalid token)
  | kind => throw (.cannotParse kind.name)

/-- The entity that definitions are for. -/
def requireEntity (this : Option EntityId) (keyword : String) : Logged EntityId :=
  match this with
  | some e => pure e
  | none => Logged.refuse (.entityRequired keyword)

/-- The assignment that arguments make to an input that is no synonym. -/
def readKind (w : World) (this : Option EntityId) (i : Input) (a : Arguments) :
    Logged Assignment :=
  match i.kind with
  | .keyLists keyType valueType _ => do
    let lists ← Logged.ofExcept (KeyLists.ofInput i)
    return .keyLists (← w.editKeyLists this i.keyword keyType valueType lists a)
  | .attributes => do
    let e ← requireEntity this i.keyword
    return .attributes e (← w.readAttributes e a)
  | .customOutputs => do
    let e ← requireEntity this i.keyword
    return .customOutputs e (← w.readCustomOutputs e a)
  | .deprecated advice fatal =>
    if fatal then Logged.refuse (.retired i.keyword advice)
    else do
      Logged.warn (.ignoredKeyword ((this.map w.nameOf).getD "") i.keyword advice)
      return .nothing
  | _ => return .value (← w.readArguments this i a)

/-- The input that arguments of a keyword set, and the assignment. -/
def readAssignment (w : World) (this : Option EntityId) (id : InputId) (a : Arguments) :
    Logged (InputId × Assignment) :=
  let target := w.target id
  match w.input? target with
  | some i => return (target, ← w.readKind this i a)
  | none => return (target, .nothing)

end World

end ModelInputs
