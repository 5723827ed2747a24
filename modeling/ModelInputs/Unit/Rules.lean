import ModelInputs.Unit.Basic

/-!
# Products and quotients of unit types

A list of rules `a * b = c` says which types can be multiplied. Each rule also gives two quotients,
`c / a = b` and `c / b = a`. A number without a unit can multiply and divide every type, and a type
divided by itself has no unit. Where two rules speak of the same pair the later one holds.

* `Rule`, `Rule.all`, `Rule.product?`, `Rule.quotient?`;
* `UnitType.mul?`, `UnitType.div?`;
* **`UnitType.mul?_comm`**: products do not depend on the order of the factors.
-/

namespace ModelInputs

open UnitType

/-- The rule `left * right = product`. -/
structure Rule where
  left : UnitType
  right : UnitType
  product : UnitType
deriving DecidableEq, Repr

namespace Rule

/-- The rules, in the order in which they are declared. -/
def all : List Rule := [
  ⟨rate, time, dimensionless⟩,
  ⟨speed, time, distance⟩,
  ⟨acceleration, time, speed⟩,
  ⟨massFlow, time, mass⟩,
  ⟨volumeFlow, time, volume⟩,
  ⟨angularSpeed, time, angle⟩,
  ⟨power, time, energy⟩,
  ⟨costRate, time, cost⟩,
  ⟨viscosity, time, linearDensity⟩,
  ⟨distance, rate, speed⟩,
  ⟨speed, rate, acceleration⟩,
  ⟨mass, rate, massFlow⟩,
  ⟨volume, rate, volumeFlow⟩,
  ⟨angle, rate, angularSpeed⟩,
  ⟨energy, rate, power⟩,
  ⟨cost, rate, costRate⟩,
  ⟨viscosity, rate, pressure⟩,
  ⟨distance, distance, area⟩,
  ⟨linearDensity, distance, mass⟩,
  ⟨area, distance, volume⟩,
  ⟨speed, speed, specificEnergy⟩,
  ⟨linearDensity, speed, massFlow⟩,
  ⟨area, speed, volumeFlow⟩,
  ⟨energyDensity, volume, energy⟩,
  ⟨density, volume, mass⟩,
  ⟨pressure, volume, energy⟩,
  ⟨energyDensity, volumeFlow, power⟩,
  ⟨density, volumeFlow, massFlow⟩,
  ⟨pressure, volumeFlow, power⟩]

/-- The product that a rule gives for two types, in either order. -/
def product? (r : Rule) (a b : UnitType) : Option UnitType :=
  if (a = r.left ∧ b = r.right) ∨ (a = r.right ∧ b = r.left) then some r.product else none

/-- The quotient that a rule gives for two types. -/
def quotient? (r : Rule) (a b : UnitType) : Option UnitType :=
  if a = r.product ∧ b = r.right then some r.left
  else if a = r.product ∧ b = r.left then some r.right
  else none

theorem product?_comm (r : Rule) (a b : UnitType) : r.product? a b = r.product? b a := by
  have : (a = r.left ∧ b = r.right) ∨ (a = r.right ∧ b = r.left) ↔
      (b = r.left ∧ a = r.right) ∨ (b = r.right ∧ a = r.left) := by
    grind
  simp only [product?, this]

end Rule

namespace UnitType

/-- The type of a product, if the two types can be multiplied. -/
def mul? (a b : UnitType) : Option UnitType :=
  if a = dimensionless then some b
  else if b = dimensionless then some a
  else Rule.all.reverse.findSome? (·.product? a b)

/-- The type of a quotient, if the two types can be divided. -/
def div? (a b : UnitType) : Option UnitType :=
  if b = dimensionless then some a
  else if a = b then some dimensionless
  else Rule.all.reverse.findSome? (·.quotient? a b)

theorem mul?_comm (a b : UnitType) : mul? a b = mul? b a := by
  unfold mul?
  simp only [Rule.product?_comm _ b a]
  split <;> split <;> simp_all

end UnitType

end ModelInputs
