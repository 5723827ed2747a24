import ModelInputs.Command.Report

/-!
# Command lines

A command line names a command and gives its argument and options in any order. The value of an
option is the next word, or follows the option directly; behind a lone double dash all words are
arguments.

* `CommandLine`, `CommandLine.parse?`;
* `CommandLine.run`: the report of a command line.
-/

namespace ModelInputs

/-- An option of a command, by its short and its long name. -/
structure CommandOption where
  short : Char
  long : String

/-- The words of a command line: arguments, and options with their values. -/
structure CommandWords where
  args : List String := []
  options : List (String × String) := []

namespace CommandWords

/-- The value of the option given last. -/
def option? (ws : CommandWords) (long : String) : Option String :=
  ws.options.reverse.lookup long

/-- The option that a word starts, and the value that is joined to it. -/
def readOption? (known : List CommandOption) (word : String) : Option (String × Option String) :=
  match word.toList with
  | '-' :: '-' :: cs =>
    let (name, value) := match Text.cut? '=' cs with
      | some (name, value) => (name, some (String.ofList value))
      | none => (cs, none)
    (known.find? (·.long == String.ofList name)).map fun o => (o.long, value)
  | '-' :: c :: cs =>
    (known.find? (·.short == c)).map fun o =>
      (o.long, if cs.isEmpty then none else some (String.ofList cs))
  | _ => none

/-- A word that can only be an option. -/
def isOptionWord (word : String) : Bool :=
  word.toList.head? == some '-' && word.length ≠ 1

/-- The words sorted into arguments and options, if every option is known and has a value. -/
def parse? (known : List CommandOption) : List String → Option CommandWords
  | [] => some {}
  | ["--"] => some {}
  | word :: next :: rest =>
    if word == "--" then some { args := next :: rest }
    else if isOptionWord word then
      match readOption? known word with
      | some (long, some value) =>
        (parse? known (next :: rest)).map fun ws =>
          { ws with options := (long, value) :: ws.options }
      | some (long, none) =>
        (parse? known rest).map fun ws => { ws with options := (long, next) :: ws.options }
      | none => none
    else (parse? known (next :: rest)).map fun ws => { ws with args := word :: ws.args }
  | [word] =>
    if isOptionWord word then
      match readOption? known word with
      | some (long, some value) => some { options := [(long, value)] }
      | _ => none
    else some { args := [word] }

end CommandWords

/-- A command with its argument and options. -/
inductive CommandLine where
  | evaluate (source : String) (unit : Option String)
  | tokens (record : String)
  | units (type : Option String)
deriving DecidableEq, Repr

namespace CommandLine

/-- The options for the time and the unit of an evaluation. -/
def evaluateOptions : List CommandOption :=
  [⟨'t', "time"⟩, ⟨'u', "unit"⟩]

/-- The option for the unit type of a list of units. -/
def unitsOptions : List CommandOption :=
  [⟨'t', "type"⟩]

/-- The command that the words give, if they are well formed. -/
def parse? : List String → Option CommandLine
  | "eval" :: words => do
    let ws ← CommandWords.parse? evaluateOptions words
    match ws.args with
    | [source] => return .evaluate source (ws.option? "unit")
    | _ => none
  | "tokens" :: words => do
    let ws ← CommandWords.parse? [] words
    match ws.args with
    | [record] => return .tokens record
    | _ => none
  | "units" :: words => do
    let ws ← CommandWords.parse? unitsOptions words
    match ws.args with
    | [] => return .units (ws.option? "type")
    | _ => none
  | _ => none

/-- The report of a command; a constant expression has the same result at all times. -/
def run (settings : Settings) : CommandLine → Except Failure Report
  | .evaluate source unit => Report.evaluation settings source unit
  | .tokens record => .ok (Report.tokens record)
  | .units type => .ok (Report.units type)

end CommandLine

end ModelInputs
