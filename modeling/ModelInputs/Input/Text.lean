import ModelInputs.Model.Reading

/-!
# Inputs as text

The value of an input in the syntax that its kind reads: quantities in SI units, colours by name,
entities by their current names, compound values in groups. The text given by the user is shown as
it was given, as long as it is kept. A value that was copied from an input of another kind may have
no such text.

* `numberText`, `numbersText`, `colourText`, `tokenText`: the texts of single values;
* `World.presentText`, `World.textOf`: the text of a value, by kind;
* `World.valueText`, `World.defaultText`: the text of an input and of its default;
* `Shown`, `World.shown`, `World.valueShown`: what is shown of a value, which may be itself.
-/

namespace ModelInputs

/-- A group of arguments. -/
def braced (text : String) : String :=
  "\x7b " ++ text ++ " \x7d"

/-- Groups of arguments. -/
def bracedAll (texts : List String) : String :=
  " ".intercalate (texts.map braced)

/-! ## Single values -/

/-- The text of a number. -/
def numberText : Value → Except Failure String
  | .float x => .ok (Number.plainText x)
  | .int n => (numberOfInt? n).map fun _ => toString n
  | .bool b => .ok (if b then "1" else "0")
  | _ => .error .unsuitable

/-- The text of the numbers of a vector or a list. -/
def numbersText (v : Value) : Except Failure String :=
  return " ".intercalate (← (← v.members).mapM numberText)

/-- The text of a colour. Other numbers in a row lack the opacity. -/
def colourText : Value → Except Failure String
  | .colour c => .ok c.text
  | .map _ => .error .unsuitable
  | v => do
    let _ ← ((← v.members).take 3).mapM numberText
    throw .noSuchPart

/-- The text that a value is. -/
def tokenText : Value → Except Failure String
  | .text s => .ok s
  | _ => .error .unsuitable

/-- The text, or texts in a row, that end an argument unless they are quoted. -/
def isDelimiter (s : String) : Bool :=
  let delimiters := [' ', '\t', '\x7b', '\x7d', '"']
  (List.range (delimiters.length + 1)).any fun k => s.toList.isPrefixOf (delimiters.drop k)

namespace World

/-! ## Names and definitions -/

/-- The names of the entities of a list. -/
def namesText (w : World) (v : Value) : Except Failure String :=
  return " ".intercalate (← (← v.members).mapM w.nameIn)

/-- The definition of an attribute: its expression or its value. -/
def attributeText (w : World) (a : Attribute) : Except Failure String :=
  match a.expression, a.value with
  | some exp, _ => .ok (a.name ++ " " ++ Record.quoteIfNeeded exp.source)
  | none, some r => .ok (a.name ++ " " ++ Record.quoteIfNeeded (r.render w.nameOf))
  | none, none => .error (.exprAt 0 (.attributeWithoutValue a.name))

/-- The definition that a handle reads, as one of an attribute. -/
def definitionText (w : World) : Value → Except Failure String
  | .handle (.attribute a) =>
    match w.attribute? a with
    | some a => w.attributeText a
    | none => .error .missingOutput
  | .handle (.custom o) => .ok (o.name ++ " " ++ Record.quoteIfNeeded o.expression.source)
  | _ => .error .noSuchPart

/-- An expression with a name, and its unit type if it has one. -/
def expressionText (name : String) (exp : Expression) (unit : UnitType) : String :=
  let unit := if unit = .dimensionless then [] else [unit.name]
  " ".intercalate (name :: Record.quoteIfNeeded exp.source :: unit)

/-- The definition that a handle reads, as one of a custom output. -/
def customOutputText (w : World) : Value → Except Failure String
  | .handle (.custom o) => .ok (expressionText o.name o.expression o.unitType)
  | .handle (.attribute a) =>
    match w.attribute? a with
    | some { expression := some exp, name, unitType, .. } => .ok (expressionText name exp unitType)
    | _ => .error .noSuchPart
  | _ => .error .noSuchPart

/-- An entry of a key list. -/
def entryText (w : World) (entry : Value × Value) : Except Failure String := do
  let key ← w.nameIn entry.1
  return " ".intercalate (key :: (← (← entry.2.members).mapM w.nameIn))

/-- The lists of a key list in groups, the keyless list first. -/
def keyListsText (w : World) (keyless : List EntityId) : Value → Except Failure String
  | .map entries => do
    let first := if keyless.isEmpty then [] else [" ".intercalate (keyless.map w.nameOf)]
    return bracedAll (first ++ (← entries.mapM w.entryText))
  | _ => .error .noSuchPart

/-! ## Values of inputs -/

/-- The text of a value, other than of no value and of a key list. -/
def presentText (w : World) (kind : InputKind) (v : Value) : Except Failure String :=
  match kind, v with
  | .boolean, v => .ok (if v.truth then "TRUE" else "FALSE")
  | .number unit _, v => return withUnit (← numberText v) unit
  | .text, v => return Record.quoteIfNeeded (← tokenText v)
  | .date, .date d => .ok d.isoText
  | .date, _ => .error .noSuchPart
  | .colour, v => colourText v
  | .vector unit _, v => return withUnit (← numbersText v) unit
  | .list, v | .integers .., v =>
    return " ".intercalate ((← v.members).map (·.display w.names))
  | .numbers unit .., v =>
    if v.truth then return withUnit (← numbersText v) unit else .ok ""
  | .texts .., v => return Record.formatTokens (← (← v.members).mapM tokenText)
  | .colours .., v => return bracedAll (← (← v.members).mapM colourText)
  | .vectors unit _, v => do
    let vectors ← (← v.members).mapM numbersText
    return if v.truth then withUnit (bracedAll vectors) unit else ""
  | .member _, v | .entity _, v | .interfaceEntity _, v | .relativeEntity _, v => w.nameIn v
  | .entities .., v | .interfaceEntities .., v => w.namesText v
  | .entityLists .., v => return bracedAll (← (← v.members).mapM w.namesText)
  | .keyword, .keywordRef e id => .ok (w.nameOf e ++ " " ++ id.keyword)
  | .keyword, _ => .error .noSuchPart
  | .sample .., v =>
    match w.samplerOf v, v with
    | .ok _, .entity e => .ok (w.nameOf e)
    | _, v => .ok (v.display w.names)
  | .attributes, v => return bracedAll (← (← v.listed).mapM w.definitionText)
  | .customOutputs, v => return bracedAll (← (← v.listed).mapM w.customOutputText)
  | _, v => .ok (v.display w.names)

/-- The text of a value of an input. -/
def textOf (w : World) (i : Input) (v : Value) : Except Failure String :=
  match i.kind with
  | .keyLists .. => w.keyListsText i.keyless v
  | kind => if v.isNone then .ok "" else w.presentText kind v

/-- The text of an input as the user gave it, or else of its value; empty while its default
applies. -/
def valueText (w : World) (i : Input) : Except Failure String :=
  if i.isDefault then .ok ""
  else
    match i.kind, i.tokens with
    | .keyLists .., _ | _, none => w.textOf i i.value
    | _, some tokens => .ok (Record.formatTokens tokens)

/-- The text of the default of an input. -/
def defaultText (w : World) (i : Input) : Except Failure String :=
  match i.defaultText with
  | some text => .ok text
  | none => if i.default.isNone then .ok "" else w.textOf i i.default

end World

/-! ## What is shown -/

/-- What is shown of a value: its text, or the value itself. -/
inductive Shown where
  | text (s : String)
  | itself (v : Value)

/-- What a text input shows of texts in a list: the list itself, unless one of them is a delimiter;
then they are quoted together. -/
def shownTexts (names : Names) (v : Value) : Except Failure Shown := do
  let texts ← (← v.members).mapM tokenText
  return if texts.any isDelimiter then .text ("'" ++ v.literal names ++ "'") else .itself v

namespace World

/-- What an input shows of a value. -/
def shown (w : World) (i : Input) (v : Value) : Except Failure Shown :=
  match i.kind, v with
  | .text, .list _ | .text, .map _ => shownTexts w.names v
  | _, _ => (w.textOf i v).map .text

/-- What is shown of an input that is set: the text that the user gave, or else its value. -/
def valueShown (w : World) (i : Input) : Except Failure Shown :=
  if i.isDefault || i.tokens.isSome then (w.valueText i).map .text else w.shown i i.value

end World

end ModelInputs
