import ModelInputs.Unit.Basic

/-!
# Units

Every unit measures one unit type, and its factor says what one of it is worth in SI units.

* `PhysicalUnit`, `toSI`, `ofSI`;
* `PhysicalUnit.all`, `PhysicalUnit.find?`, `PhysicalUnit.ofType`.
-/

namespace ModelInputs

/-- A unit of measurement. -/
structure PhysicalUnit where
  name : String
  unitType : UnitType
  factor : Float := 1.0

namespace PhysicalUnit

/-- A number of this unit, in SI units. -/
def toSI (u : PhysicalUnit) (x : Float) : Float :=
  x * u.factor

/-- A number of SI units, in this unit. -/
def ofSI (u : PhysicalUnit) (x : Float) : Float :=
  x / u.factor

/-- The seconds of an hour. -/
def hour : Float := 3600.0

/-- The seconds of a day. -/
def day : Float := 24.0 * hour

/-- The seconds of a year of 365 days. -/
def year : Float := 8760.0 * hour

/-- The ratio of a circle's circumference to its diameter. -/
def pi : Float := 3.141592653589793

/-- The known units. -/
def all : List PhysicalUnit := [
  ⟨"m", .distance, 1.0⟩,
  ⟨"km", .distance, 1000.0⟩,
  ⟨"cm", .distance, 0.01⟩,
  ⟨"mm", .distance, 0.001⟩,
  ⟨"mi", .distance, 1609.344⟩,
  ⟨"ft", .distance, 0.3048⟩,
  ⟨"in", .distance, 0.0254⟩,
  ⟨"s", .time, 1.0⟩,
  ⟨"ms", .time, 0.001⟩,
  ⟨"min", .time, 60.0⟩,
  ⟨"h", .time, hour⟩,
  ⟨"d", .time, day⟩,
  ⟨"w", .time, 7.0 * day⟩,
  ⟨"y", .time, year⟩,
  ⟨"/s", .rate, 1.0⟩,
  ⟨"/min", .rate, 1.0 / 60.0⟩,
  ⟨"/h", .rate, 1.0 / hour⟩,
  ⟨"/d", .rate, 1.0 / day⟩,
  ⟨"m/s", .speed, 1.0⟩,
  ⟨"km/h", .speed, 1000.0 / hour⟩,
  ⟨"mph", .speed, 1609.344 / hour⟩,
  ⟨"m/s2", .acceleration, 1.0⟩,
  ⟨"rad", .angle, 1.0⟩,
  ⟨"deg", .angle, pi / 180.0⟩,
  ⟨"rad/s", .angularSpeed, 1.0⟩,
  ⟨"deg/s", .angularSpeed, pi / 180.0⟩,
  ⟨"rpm", .angularSpeed, 2.0 * pi / 60.0⟩,
  ⟨"m2", .area, 1.0⟩,
  ⟨"km2", .area, 1000000.0⟩,
  ⟨"m3", .volume, 1.0⟩,
  ⟨"L", .volume, 0.001⟩,
  ⟨"m3/s", .volumeFlow, 1.0⟩,
  ⟨"m3/h", .volumeFlow, 1.0 / hour⟩,
  ⟨"kg", .mass, 1.0⟩,
  ⟨"g", .mass, 0.001⟩,
  ⟨"t", .mass, 1000.0⟩,
  ⟨"kg/s", .massFlow, 1.0⟩,
  ⟨"t/h", .massFlow, 1000.0 / hour⟩,
  ⟨"kg/m3", .density, 1.0⟩,
  ⟨"kg/m", .linearDensity, 1.0⟩,
  ⟨"J", .energy, 1.0⟩,
  ⟨"kJ", .energy, 1000.0⟩,
  ⟨"kWh", .energy, 1000.0 * hour⟩,
  ⟨"J/kg", .specificEnergy, 1.0⟩,
  ⟨"J/m3", .energyDensity, 1.0⟩,
  ⟨"W", .power, 1.0⟩,
  ⟨"kW", .power, 1000.0⟩,
  ⟨"Pa", .pressure, 1.0⟩,
  ⟨"kPa", .pressure, 1000.0⟩,
  ⟨"Pa-s", .viscosity, 1.0⟩,
  ⟨"$", .cost, 1.0⟩,
  ⟨"$/s", .costRate, 1.0⟩,
  ⟨"$/h", .costRate, 1.0 / hour⟩,
  ⟨"$/d", .costRate, 1.0 / day⟩]

/-- The unit of that name. -/
def find? (name : String) : Option PhysicalUnit :=
  all.find? (·.name == name)

/-- Units of factor one before others, and then by name. -/
def precedes (a b : PhysicalUnit) : Bool :=
  if a.factor == 1.0 then b.factor != 1.0 || decide (a.name ≤ b.name)
  else b.factor != 1.0 && decide (a.name ≤ b.name)

/-- The units of one type, its SI unit first. -/
def ofType (u : UnitType) : List PhysicalUnit :=
  (all.filter (·.unitType == u)).mergeSort precedes

end PhysicalUnit

end ModelInputs
