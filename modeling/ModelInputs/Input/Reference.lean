import ModelInputs.Input.Quantity
import ModelInputs.Expression.Parser
import ModelInputs.Model.Reading
import ModelInputs.Text.Split

/-!
# References to entities and outputs

How names of entities, chains of outputs and expressions are read as arguments of an input of an
entity. Names are looked up among the registered entities; in a list the name of a group stands for
its members.

* `World.readEntity?`, `World.readInterface?`, `World.readEntities`;
* `World.readChain?`: a chain, as one token or as one token for each name;
* `World.readExpression`: an expression that passes the checks.
-/

namespace ModelInputs

namespace World

/-! ## Entities -/

/-- The type of all entities. -/
def entityType : TypeRef := .named "Entity"

/-- The type of groups of entities. -/
def groupType : TypeRef := .named "EntityGroup"

/-- The members of a group. -/
def members (w : World) (group : EntityId) : Except Failure (List Value) := do
  (← w.valueOf ⟨group, "List"⟩).listed

/-- The entity of a name, for an entity that can find others. -/
def findNamed? (w : World) (this : Option EntityId) (name : String) : Option EntityId :=
  if w.hasNamespace this then w.named? name else none

/-- The registered entity of a name. -/
def readNamed? (w : World) (this : Option EntityId) (name : String) :
    Except InputError EntityId :=
  if w.hasNamespace this then
    match w.named? name with
    | some e => .ok e
    | none => refuseCommon .entityName [name]
  else .error ⟨.namespaceRequired, none⟩

/-- The entity is not of the class that is asked for. -/
def refuseClass {α : Type} (w : World) (type : TypeRef) (e : EntityId) (shown : String) :
    Except InputError α :=
  refuseCommon .entityClass [type.name, shown, w.classOf e]

/-- The entity of a name, of a class. -/
def readEntity? (w : World) (this : Option EntityId) (type : TypeRef) (name : String) :
    Except InputError EntityId := do
  let e ← w.readNamed? this name
  if w.isInstance e type then return e else w.refuseClass type e name

/-- The entity of a name, which implements an interface. -/
def readInterface? (w : World) (this : Option EntityId) (type : TypeRef) (name : String) :
    Except InputError EntityId := do
  let e ← w.readNamed? this name
  if w.isInstance e type then return e else refuseCommon .interface [type.name, name]

/-- What a name in a list stands for: the members of a group, unless groups are asked for, or the
entity itself. -/
def expand (w : World) (type : TypeRef) (e : EntityId) : Except Failure (List Value) :=
  if w.isInstance e groupType && !groupType.isSubtype w.palette.ancestors type then w.members e
  else .ok [.entity e]

/-- The list with an entity of a class added, which must be new if entities must be unique. -/
def addEntity? (w : World) (type : TypeRef) (unique : Bool) (found : List EntityId)
    (e : EntityId) : Except InputError (List EntityId) :=
  if !w.isInstance e type then w.refuseClass type e (w.nameOf e)
  else if unique && found.contains e then refuseCommon .notUnique [w.nameOf e]
  else .ok (found ++ [e])

/-- The list with a member of a group added, which must be an entity. -/
def addMember (w : World) (type : TypeRef) (unique : Bool) (found : List EntityId) :
    Value → Except Failure (List EntityId)
  | .entity e => (w.addEntity? type unique found e).mapError Failure.input
  | v => do
    let shown ← w.nameIn v
    throw (.ofFault (.common .entityClass [type.name, shown, (v.typeOf w.classOf).name]))

/-- The list with the entities added that a name stands for. -/
def addNamed (w : World) (this : Option EntityId) (type : TypeRef) (unique : Bool)
    (found : List EntityId) (name : String) : Except Failure (List EntityId) := do
  let e ← (w.readNamed? this name).mapError Failure.input
  (← w.expand type e).foldlM (w.addMember type unique) found

/-- The entities of some names, of a class. -/
def readEntities (w : World) (this : Option EntityId) (type : TypeRef) (unique : Bool)
    (names : List String) : Except Failure (List EntityId) :=
  if w.hasNamespace this then names.foldlM (w.addNamed this type unique) []
  else .error (.ofFault .namespaceRequired)

/-! ## Chains of outputs -/

/-- The names of a chain that is written as one token. -/
def chainNames? (token : String) : Option (List String) := do
  match token.toList with
  | '[' :: cs =>
    let (name, rest) ← Text.cut? ']' cs
    let path ← match rest with
      | '.' :: path => some (dropLineBreak path)
      | _ => none
    guard (isUnbracketed name && !path.isEmpty && !path.contains '\n')
    return String.ofList name :: (Text.splitAt '.' path).map String.ofList
  | _ => none

/-- The names of a chain: one token that starts with a bracket, or at least two tokens. -/
def readChainNames? (a : Arguments) : Except InputError (List String) :=
  match a.args with
  | [token] =>
    if token.toList.head? == some '[' then
      match chainNames? token with
      | some names => .ok names
      | none => .error ⟨.chainExpected a.text, none⟩
    else (a.checkCountRange 2 none).map fun _ => [token]
  | args => (a.checkCountRange 2 none).map fun _ => args

/-- The outputs of a chain after the first one can only be outputs of an entity. -/
def checkFollowed (w : World) (root : EntityId) (first : String) (h : Handle)
    (remaining : List String) : Except InputError Unit :=
  let type := w.typeOfHandle h
  if remaining.isEmpty || type = .object || type.isSubtype w.palette.ancestors entityType then
    .ok ()
  else .error ⟨.noEntityOutput first (w.nameOf root) (".".intercalate remaining), none⟩

/-- A chain of outputs. -/
def readChain? (w : World) (this : Option EntityId) (a : Arguments) :
    Except InputError OutputChain := do
  let names ← readChainNames? a
  if names.contains "" then throw ⟨.emptyChainName a.text, none⟩
  match names with
  | rootName :: first :: remaining =>
    let root ← w.readEntity? this entityType rootName
    match w.handle? root first with
    | none => throw ⟨.outputNotFound first (w.nameOf root), none⟩
    | some h =>
      w.checkFollowed root first h remaining
      return ⟨root, first, h, remaining⟩
  | _ => throw ⟨.chainExpected a.text, none⟩

/-! ## Expressions -/

/-- An expression that passes the checks; its errors are errors of the input. -/
def readExpression (w : World) (this : Option EntityId) (text : String)
    (unit : Option UnitType := none) : Except Failure Expression :=
  Except.mapError Failure.asInput do
    let exp ← Expression.parse? text w.settings.foldConstants
    w.checkExpression exp this unit
    return exp

end World

end ModelInputs
