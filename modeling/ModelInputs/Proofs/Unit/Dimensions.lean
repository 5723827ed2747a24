import Mathlib
import ModelInputs.Unit.Rules

/-!
# Dimensions of unit types

A unit type has a dimension, the powers of the base quantities that it is made of. A product has the
sum of the dimensions of its factors, and a quotient their difference: every rule says so, and so
does whatever the rules are combined into. Only two unit types have a dimension in common, energy
per volume and pressure, so that a unit type is found from its dimension up to these two.

* `BaseQuantity`, `Dimension`, `UnitType.dimension`;
* **`UnitType.dimension_mul?`**, **`UnitType.dimension_div?`**: products and quotients;
* **`UnitType.dimension_eq_iff`**: the unit types of a dimension;
* `UnitType.eq_energyDensity_of_mul?`, `UnitType.eq_energyDensity_of_div?`: a density of energy is
  never found by a rule.
-/

namespace ModelInputs

/-- The quantities that others are made of. An angle is one of them, and so is the type of a number
whose user decides on it. -/
inductive BaseQuantity where
  | length
  | mass
  | time
  | angle
  | money
  | chosen
deriving DecidableEq

instance : Fintype BaseQuantity where
  elems := {.length, .mass, .time, .angle, .money, .chosen}
  complete q := by cases q <;> decide

/-- The power of each base quantity. -/
abbrev Dimension : Type :=
  BaseQuantity → ℤ

namespace Dimension

/-- The dimension of a base quantity. -/
def base (q : BaseQuantity) : Dimension := fun q' => if q' = q then 1 else 0

/-- The dimension of a force, which accelerates a mass. -/
def force : Dimension :=
  base .mass + base .length - 2 • base .time

end Dimension

namespace UnitType

open Dimension

/-- The dimension of a unit type. -/
def dimension : UnitType → Dimension
  | dimensionless => 0
  | userSpecified => base .chosen
  | distance => base .length
  | time => base .time
  | rate => -base .time
  | speed => base .length - base .time
  | acceleration => base .length - 2 • base .time
  | angle => base .angle
  | angularSpeed => base .angle - base .time
  | area => 2 • base .length
  | volume => 3 • base .length
  | volumeFlow => 3 • base .length - base .time
  | mass => base .mass
  | massFlow => base .mass - base .time
  | density => base .mass - 3 • base .length
  | linearDensity => base .mass - base .length
  | energy => force + base .length
  | specificEnergy => force + base .length - base .mass
  | energyDensity => force + base .length - 3 • base .length
  | power => force + base .length - base .time
  | pressure => force - 2 • base .length
  | viscosity => force - 2 • base .length + base .time
  | cost => base .money
  | costRate => base .money - base .time

end UnitType

/-! ## Rules -/

namespace Rule

variable {r : Rule} {a b c : UnitType}

theorem product?_eq_some : r.product? a b = some c ↔
    ((a = r.left ∧ b = r.right) ∨ (a = r.right ∧ b = r.left)) ∧ c = r.product := by
  rw [product?, Option.ite_none_right_eq_some]
  exact and_congr_right fun _ => ⟨fun h => (Option.some.inj h).symm, fun h => congrArg some h.symm⟩

/-- A quotient is one of the factors of the product that is divided. -/
theorem of_quotient?_eq_some (h : r.quotient? a b = some c) :
    a = r.product ∧ ((b = r.right ∧ c = r.left) ∨ (b = r.left ∧ c = r.right)) := by
  unfold quotient? at h
  split at h
  · next hr =>
    cases h
    exact ⟨hr.1, .inl ⟨hr.2, rfl⟩⟩
  · split at h
    · next hl =>
      cases h
      exact ⟨hl.1, .inr ⟨hl.2, rfl⟩⟩
    · cases h

/-- Every rule keeps dimensions. -/
theorem dimension_product (h : r ∈ all) :
    r.product.dimension = r.left.dimension + r.right.dimension := by
  revert r
  decide +kernel

/-- No rule has a density of energy as its product. -/
theorem product_ne_energyDensity (h : r ∈ all) : r.product ≠ .energyDensity := by
  revert r
  decide

/-- Where a density of energy is a factor, a later rule takes the quotient. -/
theorem div?_of_energyDensity (h : r ∈ all) : r.right ≠ .energyDensity ∧
    (r.left = .energyDensity → UnitType.div? r.product r.right = some .pressure) := by
  revert r
  decide

end Rule

/-! ## Products and quotients -/

namespace UnitType

variable {a b c : UnitType}

/-- A product is found by a rule, or one factor has no unit. -/
theorem mul?_cases (h : mul? a b = some c) :
    (a = dimensionless ∧ c = b) ∨ (b = dimensionless ∧ c = a) ∨
      ∃ r ∈ Rule.all, r.product? a b = some c := by
  unfold mul? at h
  split at h
  · next ha => exact .inl ⟨ha, (Option.some.inj h).symm⟩
  · split at h
    · next hb => exact .inr (.inl ⟨hb, (Option.some.inj h).symm⟩)
    · obtain ⟨r, hr, hc⟩ := List.exists_of_findSome?_eq_some h
      exact .inr (.inr ⟨r, List.mem_reverse.1 hr, hc⟩)

/-- A quotient is found by a rule, or the divisor has no unit, or both are alike. -/
theorem div?_cases (h : div? a b = some c) :
    (b = dimensionless ∧ c = a) ∨ (a = b ∧ c = dimensionless) ∨
      ∃ r ∈ Rule.all, r.quotient? a b = some c := by
  unfold div? at h
  split at h
  · next hb => exact .inl ⟨hb, (Option.some.inj h).symm⟩
  · split at h
    · next hab => exact .inr (.inl ⟨hab, (Option.some.inj h).symm⟩)
    · obtain ⟨r, hr, hc⟩ := List.exists_of_findSome?_eq_some h
      exact .inr (.inr ⟨r, List.mem_reverse.1 hr, hc⟩)

/-- **The dimension of a product is the sum of those of its factors.** -/
theorem dimension_mul? (h : mul? a b = some c) : c.dimension = a.dimension + b.dimension := by
  obtain ⟨rfl, rfl⟩ | ⟨rfl, rfl⟩ | ⟨r, hr, hc⟩ := mul?_cases h
  · exact (zero_add _).symm
  · exact (add_zero _).symm
  · obtain ⟨⟨rfl, rfl⟩ | ⟨rfl, rfl⟩, rfl⟩ := Rule.product?_eq_some.1 hc
    · exact Rule.dimension_product hr
    · rw [Rule.dimension_product hr, add_comm]

/-- **The dimension of a quotient is the difference of the two.** -/
theorem dimension_div? (h : div? a b = some c) : c.dimension = a.dimension - b.dimension := by
  obtain ⟨rfl, rfl⟩ | ⟨rfl, rfl⟩ | ⟨r, hr, hc⟩ := div?_cases h
  · exact (sub_zero _).symm
  · exact (sub_self _).symm
  · obtain ⟨rfl, ⟨rfl, rfl⟩ | ⟨rfl, rfl⟩⟩ := Rule.of_quotient?_eq_some hc
    · rw [Rule.dimension_product hr, add_sub_cancel_right]
    · rw [Rule.dimension_product hr, add_sub_cancel_left]

/-- A density of energy as a product is one of the factors. -/
theorem eq_energyDensity_of_mul? (h : mul? a b = some energyDensity) :
    a = energyDensity ∨ b = energyDensity := by
  obtain ⟨-, h⟩ | ⟨-, h⟩ | ⟨r, hr, hc⟩ := mul?_cases h
  · exact .inr h.symm
  · exact .inl h.symm
  · exact absurd (Rule.product?_eq_some.1 hc).2.symm (Rule.product_ne_energyDensity hr)

/-- A density of energy as a quotient is what is divided: that of an energy and a volume is taken
to be a pressure. -/
theorem eq_energyDensity_of_div? (h : div? a b = some energyDensity) : a = energyDensity := by
  obtain ⟨-, h⟩ | ⟨-, ⟨⟩⟩ | ⟨r, hr, hc⟩ := div?_cases h
  · exact h.symm
  · obtain ⟨rfl, ⟨rfl, hl⟩ | ⟨rfl, hl⟩⟩ := Rule.of_quotient?_eq_some hc
    · rw [(Rule.div?_of_energyDensity hr).2 hl.symm] at h
      cases h
    · exact absurd hl.symm (Rule.div?_of_energyDensity hr).1

/-- The unit types are a density of energy and a pressure, in either order. -/
def IsEnergyDensityOrPressure (a b : UnitType) : Prop :=
  (a = energyDensity ∧ b = pressure) ∨ (a = pressure ∧ b = energyDensity)

instance (a b : UnitType) : Decidable (IsEnergyDensityOrPressure a b) :=
  inferInstanceAs (Decidable (_ ∨ _))

/-- **Unit types of the same dimension are the same**, except for those of a density of energy and a
pressure. -/
theorem dimension_eq_iff : a.dimension = b.dimension ↔ a = b ∨ IsEnergyDensityOrPressure a b := by
  have h : ∀ a ∈ all, ∀ b ∈ all,
      (a.dimension = b.dimension ↔ a = b ∨ IsEnergyDensityOrPressure a b) := by
    decide +kernel
  exact h a (mem_all a) b (mem_all b)

end UnitType

end ModelInputs
