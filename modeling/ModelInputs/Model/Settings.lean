/-!
# Settings

* `Settings`: what the user of a model can choose.
-/

namespace ModelInputs

/-- What the user of a model can choose. -/
structure Settings where
  /-- more tokens than this are not kept with an input -/
  maxStoredTokens : Int := 1000
  /-- numbers without a unit are taken to be in SI units -/
  allowMissingUnits : Bool := false
  /-- constant parts of expressions are computed when they are read -/
  foldConstants : Bool := true
deriving DecidableEq, Repr

end ModelInputs
