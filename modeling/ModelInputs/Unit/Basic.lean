/-!
# Unit types

A unit type is a physical quantity such as a distance or a speed. Numbers are kept in the SI unit
of their type; two types have none, a bare number and a number whose type the user decides.

* `UnitType`, `UnitType.name`, `UnitType.siUnit`;
* `UnitType.find?`: a type by its full name or by the name without its ending;
* **`UnitType.ofName?_name`**: every type is found under its name.
-/

namespace ModelInputs

/-- The physical quantities that numbers can measure. -/
inductive UnitType where
  | dimensionless
  | userSpecified
  | distance
  | time
  | rate
  | speed
  | acceleration
  | angle
  | angularSpeed
  | area
  | volume
  | volumeFlow
  | mass
  | massFlow
  | density
  | linearDensity
  | energy
  | specificEnergy
  | energyDensity
  | power
  | pressure
  | viscosity
  | cost
  | costRate
deriving DecidableEq, Repr, Inhabited

namespace UnitType

/-- The unit types. -/
def all : List UnitType :=
  [dimensionless, userSpecified, distance, time, rate, speed, acceleration, angle, angularSpeed,
   area, volume, volumeFlow, mass, massFlow, density, linearDensity, energy, specificEnergy,
   energyDensity, power, pressure, viscosity, cost, costRate]

/-- The full name of a unit type. -/
def name : UnitType → String
  | dimensionless => "DimensionlessUnit"
  | userSpecified => "UserSpecifiedUnit"
  | distance => "DistanceUnit"
  | time => "TimeUnit"
  | rate => "RateUnit"
  | speed => "SpeedUnit"
  | acceleration => "AccelerationUnit"
  | angle => "AngleUnit"
  | angularSpeed => "AngularSpeedUnit"
  | area => "AreaUnit"
  | volume => "VolumeUnit"
  | volumeFlow => "VolumeFlowUnit"
  | mass => "MassUnit"
  | massFlow => "MassFlowUnit"
  | density => "DensityUnit"
  | linearDensity => "LinearDensityUnit"
  | energy => "EnergyUnit"
  | specificEnergy => "SpecificEnergyUnit"
  | energyDensity => "EnergyDensityUnit"
  | power => "PowerUnit"
  | pressure => "PressureUnit"
  | viscosity => "ViscosityUnit"
  | cost => "CostUnit"
  | costRate => "CostRateUnit"

/-- The SI unit of a type; empty for a number without a unit. -/
def siUnit : UnitType → String
  | dimensionless => ""
  | userSpecified => ""
  | distance => "m"
  | time => "s"
  | rate => "/s"
  | speed => "m/s"
  | acceleration => "m/s2"
  | angle => "rad"
  | angularSpeed => "rad/s"
  | area => "m2"
  | volume => "m3"
  | volumeFlow => "m3/s"
  | mass => "kg"
  | massFlow => "kg/s"
  | density => "kg/m3"
  | linearDensity => "kg/m"
  | energy => "J"
  | specificEnergy => "J/kg"
  | energyDensity => "J/m3"
  | power => "W"
  | pressure => "Pa"
  | viscosity => "Pa-s"
  | cost => "$"
  | costRate => "$/s"

/-- The type has an SI unit. -/
def hasUnit (u : UnitType) : Bool :=
  u.siUnit != ""

theorem mem_all (u : UnitType) : u ∈ all := by
  cases u <;> decide

/-- The unit type of that full name. -/
def ofName? (name : String) : Option UnitType :=
  all.find? (·.name == name)

/-- The unit type of that full name, or of that name without its ending `Unit`. -/
def find? (name : String) : Option UnitType :=
  match ofName? name with
  | some u => some u
  | none => if name.endsWith "Unit" then none else ofName? (name ++ "Unit")

theorem ofName?_name (u : UnitType) : ofName? u.name = some u := by
  cases u <;> rfl

end UnitType

end ModelInputs
