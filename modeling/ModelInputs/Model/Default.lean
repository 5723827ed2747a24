import ModelInputs.Input.Text
import ModelInputs.Model.Change

/-!
# Reading a default back

* `World.parseDefault`: the text of the default of an input, and the world after it is read.
-/

namespace ModelInputs

namespace World

/-- The text of the default of an input, and the world after the input is set by it. -/
def parseDefault (w : World) (this : Option EntityId) (id : InputId) (i : Input) :
    Logged (String × World) := do
  let text ← Logged.ofExcept (w.defaultText i)
  let a ← Logged.ofInput (Arguments.make? i.keyword (Record.tokenize text))
  return (text, ← w.parseInput this id a)

end World

end ModelInputs
