import ModelInputs.Expression.Parser
import ModelInputs.Expression.Eval
import ModelInputs.Model.Settings
import ModelInputs.Record.Item
import ModelInputs.Unit.Table

/-!
# Reports of the commands

Three commands work without a model: one evaluates a constant expression, one shows the tokens and
keywords of a record, and one lists the units. Each answers with a report: lines for the two
streams, texts and tables, and an exit code.

* `Report`, `Table`, `Printed`;
* `Report.evaluation`, `Report.tokens`, `Report.units`.
-/

namespace ModelInputs

/-- A table with a title and named columns. -/
structure Table where
  title : String
  columns : List String
  rows : List (List String)
deriving DecidableEq, Repr

/-- Something shown to the user. -/
inductive Printed where
  | text (s : String)
  | table (t : Table)
deriving DecidableEq, Repr

/-- The answer of a command. -/
structure Report where
  code : Nat := 0
  /-- what is written to the standard output -/
  out : String := ""
  /-- what is written to the standard error stream -/
  err : String := ""
  printed : List Printed := []
deriving DecidableEq, Repr

namespace Report

/-- A report of an error, in some lines. -/
def failed (lines : List String) (out : String := "") : Report where
  code := 1
  out := out
  err := String.join (lines.map (· ++ "\n"))

/-- A report of one line. -/
def line (s : String) : Report where
  out := s ++ "\n"

/-! ## Evaluation -/

/-- A result without entities, as text. -/
def resultText (r : Result) : String :=
  r.render fun _ => ""

/-- A number in a unit. -/
def inUnit (name : String) (x : Float) (unit : UnitType) : Report :=
  match PhysicalUnit.find? name with
  | none => failed ["Unknown unit: " ++ name]
  | some u =>
    if u.unitType = unit then line (Number.plainText (u.ofSI x) ++ "[" ++ name ++ "]")
    else
      failed
        ["Unit " ++ name ++ " is a " ++ u.unitType.name ++ ", the result is a " ++ unit.name]

/-- The result of a constant expression. -/
def evaluate? (settings : Settings) (source : String) : Except Failure Result := do
  let exp ← Expression.parse? source settings.foldConstants
  anchored exp.source (exp.root.eval Env.empty)

/-- The result of a constant expression, a number in the unit if one is given. -/
def evaluation (settings : Settings) (source : String) (unit : Option String) :
    Except Failure Report :=
  match evaluate? settings source, unit with
  | .ok (.number x u), some name => .ok (inUnit name x u)
  | .ok r, _ => .ok (line (resultText r))
  | .error (.expression error), _ => .ok (failed [error.message, error.diagnostic])
  | .error failure, _ => .error failure

/-! ## Tokens and units -/

/-- The tokens of a record. -/
def tokensText (tokens : List String) : String :=
  "Tokens: " ++ Text.literalList (tokens.map Text.literal)

/-- A keyword with its arguments and the number of their groups. -/
def keywordRow (a : Arguments) : List String :=
  let groups := match a.subArguments? with
    | .ok groups => toString groups.length
    | .error _ => "-"
  [a.keyword, " ".intercalate (a.args.map Text.literal), groups]

/-- The tokens and the keywords of a record. -/
def tokens (record : String) : Report :=
  let tokens := Record.tokenize record
  match Record.splitRecord? tokens with
  | .error error => failed [error.message] (tokensText tokens ++ "\n")
  | .ok items =>
    { printed := [
        .text (tokensText tokens),
        .table ⟨"Keywords", ["Keyword", "Arguments", "Groups"], items.map keywordRow⟩] }

/-- A unit with its unit type and its worth in SI units. -/
def unitRow (u : PhysicalUnit) : List String :=
  [u.name, u.unitType.name, Number.plainText u.factor]

/-- The known units, of one unit type if it is given. -/
def units (type : Option String) : Report :=
  let table (us : List PhysicalUnit) : Report :=
    { printed := [.table ⟨"Units", ["Unit", "Type", "SI factor"], us.map unitRow⟩] }
  match type with
  | none => table PhysicalUnit.all
  | some name =>
    match UnitType.find? name with
    | none => failed ["Unknown unit type: " ++ name]
    | some u => table (PhysicalUnit.all.filter (·.unitType == u))

end Report

end ModelInputs
