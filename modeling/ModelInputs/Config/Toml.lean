import ModelInputs.Text.Split

/-!
# Configuration files

A configuration file has a key and a value on every line, and headers in brackets that open a table
for the lines below. Keys and headers are names, with dots between the names of tables within
tables. A value is an integer, a truth value or a text in quotes; a hash sign outside quotes starts a
comment.

* `Toml`: a value or a table;
* `Toml.Line`, `Toml.readLine?`: the lines;
* `Toml.Draft.add?`: a file with one more line;
* `Toml.parse?`: a file, unless a line can not be read or a name comes twice.
-/

namespace ModelInputs

/-- A value of a configuration file. -/
inductive Toml where
  | integer (n : Int)
  | boolean (b : Bool)
  | text (s : String)
  | table (entries : List (String × Toml))

namespace Toml

/-! ## Names and texts -/

/-- A blank within a line. -/
def isBlank (c : Char) : Bool :=
  c == ' ' || c == '\t'

/-- The characters without blanks in front. -/
def skipBlanks (cs : List Char) : List Char :=
  cs.dropWhile isBlank

/-- A character of a name without quotes. -/
def isNameChar (c : Char) : Bool :=
  c.isAlphanum || c == '_' || c == '-'

/-- A character that no line can hold. -/
def isControl (c : Char) : Bool :=
  (c < ' ' && c != '\t') || c == '\x7f'

/-- Nothing but blanks, and perhaps a comment. -/
def isRest (cs : List Char) : Bool :=
  match skipBlanks cs with
  | [] => true
  | c :: _ => c == '#'

/-- The value of a digit, letters included. -/
def digitValue? (c : Char) : Option Nat :=
  if '0' ≤ c ∧ c ≤ '9' then some (c.toNat - '0'.toNat)
  else if 'a' ≤ c ∧ c ≤ 'f' then some (c.toNat - 'a'.toNat + 10)
  else if 'A' ≤ c ∧ c ≤ 'F' then some (c.toNat - 'A'.toNat + 10)
  else none

/-- The value of some digits. -/
def digitsValue? (radix : Nat) (cs : List Char) : Option Nat :=
  cs.foldlM
    (fun n c => do
      let d ← digitValue? c
      guard (d < radix)
      return radix * n + d)
    0

/-- The character of a number of hexadecimal digits, and what follows them. -/
def readCode? (digits : Nat) (cs : List Char) : Option (Char × List Char) := do
  guard (digits ≤ cs.length)
  let n ← digitsValue? 16 (cs.take digits)
  guard n.isValidChar
  return (Char.ofNat n, cs.drop digits)

/-- The characters that stand for themselves or others behind a backslash. -/
def escapes : List (Char × Char) :=
  [('b', '\x08'), ('t', '\t'), ('n', '\n'), ('f', '\x0c'), ('r', '\r'), ('"', '"'), ('\\', '\\')]

/-- The text up to the closing quote, and what follows; at most `n` characters are read. -/
def readText? : Nat → List Char → Option (List Char × List Char)
  | 0, _ => none
  | _ + 1, '"' :: rest => some ([], rest)
  | n + 1, '\\' :: c :: rest => do
    let (d, rest) ←
      match c with
      | 'u' => readCode? 4 rest
      | 'U' => readCode? 8 rest
      | c => (escapes.lookup c).map (·, rest)
    let (ds, rest) ← readText? n rest
    return (d :: ds, rest)
  | n + 1, c :: rest => do
    let (ds, rest) ← readText? n rest
    return (c :: ds, rest)
  | _ + 1, [] => none

/-- A text in quotes, and what follows it: between double quotes a backslash escapes, between single
quotes all characters stand for themselves. -/
def readQuoted? : List Char → Option (List Char × List Char)
  | '"' :: rest => readText? (rest.length + 1) rest
  | '\'' :: rest => Text.cut? '\'' rest
  | _ => none

/-- A name, and what follows it. -/
def readName? (cs : List Char) : Option (String × List Char) :=
  match readQuoted? cs with
  | some (name, rest) => some (String.ofList name, rest)
  | none => do
    let name := cs.takeWhile isNameChar
    guard (!name.isEmpty)
    return (String.ofList name, cs.dropWhile isNameChar)

/-- The names of a key, and what follows the blanks behind it; at most `n` names are read. -/
def readKey? : Nat → List Char → Option (List String × List Char)
  | 0, _ => none
  | n + 1, cs => do
    let (name, rest) ← readName? cs
    match skipBlanks rest with
    | '.' :: rest => do
      let (names, rest) ← readKey? n (skipBlanks rest)
      return (name :: names, rest)
    | rest => return ([name], rest)

/-! ## Values -/

/-- Digits in groups with a low line between them. -/
def readDigits? (radix : Nat) (cs : List Char) : Option Nat := do
  let groups := Text.splitAt '_' cs
  guard (groups.all (!·.isEmpty))
  digitsValue? radix groups.flatten

/-- A decimal number, which starts with zero only if it is zero. -/
def readDecimal? (cs : List Char) : Option Nat := do
  guard (cs.length = 1 || cs.head? != some '0')
  readDigits? 10 cs

/-- An integer: a decimal number, with a sign or without, or digits of another base. -/
def readInteger? : List Char → Option Int
  | '0' :: 'x' :: cs => (readDigits? 16 cs).map Int.ofNat
  | '0' :: 'o' :: cs => (readDigits? 8 cs).map Int.ofNat
  | '0' :: 'b' :: cs => (readDigits? 2 cs).map Int.ofNat
  | '-' :: cs => (readDecimal? cs).map fun n => -(n : Int)
  | '+' :: cs => (readDecimal? cs).map Int.ofNat
  | cs => (readDecimal? cs).map Int.ofNat

/-- A value, followed by nothing but a comment. -/
def readScalar? (cs : List Char) : Option Toml :=
  match readQuoted? cs with
  | some (ds, rest) => if isRest rest then some (.text (String.ofList ds)) else none
  | none =>
    let word := cs.takeWhile fun c => !isBlank c && c != '#'
    if !isRest (cs.drop word.length) then none
    else if word = ['t', 'r', 'u', 'e'] then some (.boolean true)
    else if word = ['f', 'a', 'l', 's', 'e'] then some (.boolean false)
    else (readInteger? word).map .integer

/-! ## Lines -/

/-- A line of a file. -/
inductive Line where
  | blank
  | header (key : List String)
  | entry (key : List String) (value : Toml)

/-- A line as its characters say. -/
def readLine? (cs : List Char) : Option Line := do
  guard (!cs.any isControl)
  match skipBlanks cs with
  | [] => return .blank
  | '#' :: _ => return .blank
  | '[' :: rest =>
    match ← readKey? cs.length (skipBlanks rest) with
    | (key, ']' :: rest) =>
      guard (isRest rest)
      return .header key
    | _ => none
  | cs =>
    match ← readKey? cs.length cs with
    | (key, '=' :: rest) => return .entry key (← readScalar? (skipBlanks rest))
    | _ => none

/-! ## Files -/

/-- The entries with those of the table under a key changed, which is made if it is missing. -/
def updateTable? (change : List (String × Toml) → Option (List (String × Toml))) :
    List String → List (String × Toml) → Option (List (String × Toml))
  | [], entries => change entries
  | name :: key, entries =>
    match entries.lookup name with
    | none => do
      return entries ++ [(name, .table (← updateTable? change key []))]
    | some (.table inner) => do
      let inner ← updateTable? change key inner
      return entries.map fun entry => if entry.1 == name then (name, .table inner) else entry
    | some _ => none

/-- The table with one more entry, whose name must be new. -/
def insertNew? (name : String) (value : Toml) (entries : List (String × Toml)) :
    Option (List (String × Toml)) :=
  if (entries.lookup name).isSome then none else some (entries ++ [(name, value)])

/-- A file of which some lines are read. -/
structure Draft where
  entries : List (String × Toml) := []
  /-- the table of the lines below the last header -/
  current : List String := []
  /-- the tables that no header can open any more -/
  closed : List (List String) := []
  /-- the tables opened by keys since the last header -/
  opened : List (List String) := []

/-- The tables on the way to the last name of a key. -/
def Draft.passed (d : Draft) (key : List String) : List (List String) :=
  (List.range (key.length - 1)).map fun k => d.current ++ key.take (k + 1)

/-- The file with a line added. A header opens a table that no header has opened and no key above it,
and a key makes no entry in a table that has a header of its own. -/
def Draft.add? (d : Draft) : Line → Option Draft
  | .blank => some d
  | .header key => do
    let closed := d.closed ++ d.opened
    guard (!closed.contains key)
    let entries ← updateTable? some key d.entries
    return { entries := entries, current := key, closed := closed ++ [key] }
  | .entry key value => do
    let passed := d.passed key
    guard (!passed.any d.closed.contains)
    let name ← key.getLast?
    let entries ← updateTable? (insertNew? name value) (d.current ++ key.dropLast) d.entries
    return { d with entries := entries, opened := d.opened ++ passed }

/-- The entries of a file. -/
def parse? (text : String) : Option (List (String × Toml)) := do
  let lines := (Text.splitAt '\n' text.toList).flatMap (Text.splitAt '\r')
  let draft ← (← lines.mapM readLine?).foldlM Draft.add? {}
  return draft.entries

end Toml

end ModelInputs
