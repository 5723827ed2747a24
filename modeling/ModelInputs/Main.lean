import ModelInputs.Command.Layout
import ModelInputs.Command.Line
import ModelInputs.Config.Basic

/-!
# The command line program

Reads the configuration, runs one command and writes its report.

* `main`.
-/

namespace ModelInputs

/-- The configuration file of a directory. -/
def configFile : String := "simkeys.toml"

/-- The name of the configuration file that is given before the command, and the other words. -/
def splitConfig : List String → Option String × List String
  | "--config" :: path :: words => (some path, words)
  | "-c" :: path :: words => (some path, words)
  | words => (none, words)

/-- The text of a file, empty if there is none. -/
def readIfPresent (path : String) : IO String := do
  try IO.FS.readFile path catch _ => pure ""

/-- The configuration of a file, of the one in the current directory if none is given. -/
def loadConfig (path : Option String) : IO (Except Failure Config × List Warning) := do
  let environment ← IO.getEnv levelVariable
  let text ← match path with
    | some path => IO.FS.readFile path
    | none => readIfPresent configFile
  match Toml.parse? text with
  | some file => return (Config.load file environment).run []
  | none => throw (IO.userError "The configuration file can not be read.")

/-- Writes a report. -/
def writeReport (r : Report) : IO UInt32 := do
  for p in r.printed do
    for l in p.lines do
      IO.println l
  IO.print r.out
  IO.eprint r.err
  return r.code.toUInt32

end ModelInputs

open ModelInputs in
/-- Runs a command line. -/
def main (args : List String) : IO UInt32 := do
  let (path, words) := splitConfig args
  let (config, warnings) ← loadConfig path
  for warning in warnings do
    IO.eprintln warning.message
  match CommandLine.parse? words with
  | none =>
    IO.eprintln "Usage: eval EXPRESSION [--time T] [--unit U] | tokens RECORD | units [--type T]"
    return 2
  | some command =>
    match config.bind fun c => command.run c.settings with
    | .ok report => writeReport report
    | .error failure =>
      IO.eprintln failure.message
      return 1
