import ModelInputs.Value.Result

/-!
# Values as text

The general way of showing a value: bare, or as it is shown as an item of a list, where texts stand
between quotes. Kinds of inputs that write their values in the syntax of arguments have rules of
their own.

* `withUnit`: a text with the SI unit behind it;
* `OutputChain.text`, `Sampler.text`, `Provider.text`;
* `Value.display`, `Value.literal`.
-/

namespace ModelInputs

/-- The text, followed by the SI unit if there is one. -/
def withUnit (text : String) (u : UnitType) : String :=
  if u.hasUnit then text ++ "  " ++ u.siUnit else text

namespace OutputChain

/-- The names along the chain. -/
def tokens (names : Names) (c : OutputChain) : List String :=
  names.entity c.root :: c.firstName :: c.remaining

/-- The chain as an expression. -/
def text (names : Names) (c : OutputChain) : String :=
  ".".intercalate (("[" ++ names.entity c.root ++ "]") :: c.firstName :: c.remaining)

/-- The chain shown as such. -/
def describe (names : Names) (c : OutputChain) : String :=
  "OutputChain(" ++ c.text names ++ ")"

end OutputChain

/-- A sampler as arguments. -/
def Sampler.text (names : Names) : Sampler → String
  | constant x u => withUnit (Number.plainText x) u
  | expression exp _ _ => Record.quoteIfNeeded exp.source
  | chain c _ => " ".intercalate (c.tokens names)

/-- A provider as an argument. -/
def Provider.text (names : Names) : Provider → String
  | constant e => names.entity e
  | expression exp _ _ => Record.quoteIfNeeded exp.source

/-- Named parts of a value. -/
def recordText (name : String) (parts : List (String × String)) : String :=
  name ++ "(" ++ ", ".intercalate (parts.map fun (key, part) => key ++ "=" ++ part) ++ ")"

/-- Items between parentheses; a single one is followed by a comma. -/
def tupleText : List String → String
  | [item] => "(" ++ item ++ ",)"
  | items => "(" ++ ", ".intercalate items ++ ")"

namespace Value

mutual

/-- A value as an item of a list. -/
def literal (names : Names) : Value → String
  | none => "None"
  | bool b => if b then "True" else "False"
  | int n => toString n
  | float x => Number.fullText x
  | text s => Text.literal s
  | entity e => names.describe e
  | date d => d.textWith " "
  | member m => "<" ++ m.enumeration ++ "." ++ m.name ++ ": " ++ toString m.number ++ ">"
  | colour c =>
    recordText "Colour" [("r", Number.fullText c.red), ("g", Number.fullText c.green),
      ("b", Number.fullText c.blue), ("a", Number.fullText c.alpha)]
  | vector v =>
    recordText "Vec3d" [("x", Number.fullText v.x), ("y", Number.fullText v.y),
      ("z", Number.fullText v.z)]
  | keywordRef e id =>
    recordText "KeywordRef" [("entity", names.describe e), ("input", names.describeInput id)]
  | input id => names.describeInput id
  | chain c => c.describe names
  | sampler s => s.text names
  | provider p => p.text names
  | handle h => names.describeHandle h
  | list items => Text.literalList (literals names items)
  | tuple items => tupleText (literals names items)
  | map entries => "\x7b" ++ ", ".intercalate (entryLiterals names entries) ++ "\x7d"
  | result r => r.render names.entity
  | object => "object"

/-- The items of a list. -/
def literals (names : Names) : List Value → List String
  | [] => []
  | v :: vs => literal names v :: literals names vs

/-- The entries of a map. -/
def entryLiterals (names : Names) : List (Value × Value) → List String
  | [] => []
  | (key, v) :: entries =>
    (literal names key ++ ": " ++ literal names v) :: entryLiterals names entries

end

/-- A value on its own. -/
def display (names : Names) : Value → String
  | text s => s
  | member m => m.enumeration ++ "." ++ m.name
  | chain c => c.text names
  | v => v.literal names

end Value

end ModelInputs
