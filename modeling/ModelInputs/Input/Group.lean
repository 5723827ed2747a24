import ModelInputs.Error.Warning
import ModelInputs.Record.Arguments

/-!
# Lists of groups

A list of compound values has one group of arguments for each element. An error in one of them names
the element by its number.

* `readGroups`: the elements, each read knowing those before it;
* `inElement`: an error within an element.
-/

namespace ModelInputs

/-- The failure as one within the element of that number. -/
def Failure.inElement (a : Arguments) (number : Nat) : Failure → Failure
  | .input error => .input ⟨.inElement number error.fault, a.origin⟩
  | failure => failure

/-- The elements behind those found so far. -/
def readGroupsFrom {α : Type} (a : Arguments) (readOne : List α → Arguments → Logged α)
    (found : List α) : List Arguments → Logged (List α)
  | [] => pure found
  | group :: groups => do
    let x ← ExceptT.adapt (Failure.inElement a (found.length + 1)) (readOne found group)
    readGroupsFrom a readOne (found ++ [x]) groups

/-- The elements of the groups. -/
def readGroups {α : Type} (a : Arguments) (readOne : List α → Arguments → Logged α) :
    Logged (List α) := do
  readGroupsFrom a readOne [] (← Logged.ofInput a.subArguments?)

end ModelInputs
