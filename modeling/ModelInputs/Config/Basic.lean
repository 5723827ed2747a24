import ModelInputs.Config.Toml
import ModelInputs.Error.Warning
import ModelInputs.Model.Settings
import ModelInputs.Text.Blank
import ModelInputs.Text.Case

/-!
# Configuration

The settings and the level of the log, from a configuration file, from the environment and from
defaults, in this order for settings; for the level the environment comes first.

* `Config`, `Config.settings`;
* `Config.load`: the configuration, with a warning for a level that is not known;
* `levelNumber?`: the number of a level.
-/

namespace ModelInputs

/-- The settings, as the configuration file gives them, and the level of the log. -/
structure Config where
  maxStoredTokens : Toml := .integer 1000
  allowMissingUnits : Toml := .boolean false
  foldConstants : Toml := .boolean true
  level : String := "WARNING"

/-- The setting of the environment for the level of the log. -/
def levelVariable : String := "SIMKEYS_LOG_LEVEL"

/-- The levels that the environment can choose. -/
def knownLevels : List String :=
  ["DEBUG", "INFO", "WARNING", "ERROR", "CRITICAL"]

/-- The number of a level, if it is known. -/
def levelNumber? (level : String) : Option Nat :=
  [("CRITICAL", 50), ("FATAL", 50), ("ERROR", 40), ("WARN", 30), ("WARNING", 30), ("INFO", 20),
    ("DEBUG", 10), ("NOTSET", 0)].lookup level

/-- The name of the number of a level; unknown levels have names of their own. -/
def unknownLevelName (level : String) : String :=
  "Level " ++ level

namespace Toml

/-- The value is neither zero nor empty. -/
def truth : Toml → Bool
  | integer n => n != 0
  | boolean b => b
  | text s => s != ""
  | table entries => !entries.isEmpty

/-- The value as an integer; a truth value counts as one or zero. -/
def integer? : Toml → Option Int
  | integer n => some n
  | boolean b => some (if b then 1 else 0)
  | _ => none

mutual

/-- The value as it is shown in a table. -/
def literal : Toml → String
  | integer n => toString n
  | boolean b => if b then "True" else "False"
  | text s => Text.literal s
  | table entries => "\x7b" ++ ", ".intercalate (entryLiterals entries) ++ "\x7d"

/-- The entries as they are shown in a table. -/
def entryLiterals : List (String × Toml) → List String
  | [] => []
  | (name, v) :: entries => (Text.literal name ++ ": " ++ literal v) :: entryLiterals entries

end

/-- The value on its own. -/
def display : Toml → String
  | text s => s
  | v => v.literal

/-- The value as a text. -/
def text? : Toml → Except Failure String
  | text s => .ok s
  | _ => .error .noSuchPart

/-- The entries of a table of the file, none if there is no such table. -/
def section? (name : String) (file : List (String × Toml)) :
    Except Failure (List (String × Toml)) :=
  match file.lookup name with
  | none => .ok []
  | some (table entries) => .ok entries
  | some _ => .error .noSuchPart

end Toml

namespace Config

/-- The settings of a configuration. -/
def settings (c : Config) : Settings where
  maxStoredTokens := c.maxStoredTokens.integer?.getD 1000
  allowMissingUnits := c.allowMissingUnits.truth
  foldConstants := c.foldConstants.truth

/-- The level of the log, from the environment or as it is configured, and a warning if the
environment names an unknown one. -/
def resolveLevel (configured : Toml) (environment : Option String) : Logged String := do
  let chosen := Text.strip (Text.upper (environment.getD ""))
  if knownLevels.contains chosen then return chosen
  if chosen != "" then
    Logged.warn (.unknownLevel levelVariable chosen knownLevels configured.display)
  return Text.upper (← Logged.ofExcept configured.text?)

/-- The configuration of a file and of the environment. -/
def load (file : List (String × Toml)) (environment : Option String) : Logged Config := do
  let inputs ← Logged.ofExcept (Toml.section? "inputs" file)
  let expressions ← Logged.ofExcept (Toml.section? "expressions" file)
  let logging ← Logged.ofExcept (Toml.section? "logging" file)
  let level ← resolveLevel ((logging.lookup "level").getD (.text "WARNING")) environment
  return {
    maxStoredTokens := (inputs.lookup "max_stored_tokens").getD (.integer 1000)
    allowMissingUnits := (inputs.lookup "allow_missing_units").getD (.boolean false)
    foldConstants := (expressions.lookup "fold_constants").getD (.boolean true)
    level := level }

end Config

end ModelInputs
