import ModelInputs.Model.Entity

/-!
# The palette of classes

A model is made of entities of the classes of a palette. A class extends others, adds inputs, and
adds outputs or replaces those of the classes it extends. What an output yields is computed from the
entity and the time.

* `OutputSpec`, `EntityClass`, `Palette`;
* `Palette.ancestors`: the classes that a class extends, itself included;
* `Palette.outputs`, `Palette.output?`: the outputs of a class, in the order in which they are
  listed;
* **`Palette.output?_eq_some_mem`**: an output that is found is one of the outputs of the class.
-/

namespace ModelInputs

/-- An output of a class. -/
structure OutputSpec where
  name : String
  unitType : UnitType := .dimensionless
  type : TypeRef := .float
  description : String := ""
  isReportable : Bool := false
  /-- the place among the outputs of the same class -/
  sequence : Int := 0
  read : EntityId → Entity → Float → Except Failure Value

/-- A class of entities, or an interface that classes implement. -/
structure EntityClass where
  name : String
  /-- the classes it extends, the nearest first -/
  parents : List String := []
  inputs : List Input := []
  outputs : List OutputSpec := []
  /-- the state of a new entity -/
  fields : List (String × Value) := []

/-- The classes of a model. -/
structure Palette where
  classes : List EntityClass
  enumerations : List Enumeration := []

namespace Palette

/-- The class of that name. -/
def class? (p : Palette) (name : String) : Option EntityClass :=
  p.classes.find? (·.name == name)

/-- The enumeration of that name. -/
def enumeration? (p : Palette) (name : String) : Option Enumeration :=
  p.enumerations.find? (·.name == name)

/-- The class itself and the classes it extends, the nearest first. -/
def ancestors (p : Palette) (name : String) : List String :=
  name :: ((p.class? name).map (·.parents)).getD []

/-- The class and those it extends, the most general one first. -/
def lineage (p : Palette) (name : String) : List EntityClass :=
  (p.ancestors name).reverse.filterMap p.class?

/-- The inputs of a new entity of a class. -/
def inputs (p : Palette) (name : String) : List Input :=
  (p.lineage name).flatMap (·.inputs)

/-- The state of a new entity of a class. -/
def fields (p : Palette) (name : String) : List (String × Value) :=
  (p.lineage name).flatMap (·.fields)

/-- The first output stands before the second one. -/
def precedes (a b : OutputSpec) : Bool :=
  a.sequence < b.sequence || (a.sequence == b.sequence && a.name ≤ b.name)

/-- The outputs of the classes, of which each hides the outputs of the same names before it. -/
def outputsOf : List EntityClass → List OutputSpec
  | [] => []
  | c :: later =>
    let hidden (spec : OutputSpec) := later.any fun d => d.outputs.any (·.name == spec.name)
    (c.outputs.filter fun spec => !hidden spec).mergeSort precedes ++ outputsOf later

/-- The outputs of a class: those of general classes first, and those that one class declares by
their place and name. -/
def outputs (p : Palette) (name : String) : List OutputSpec :=
  outputsOf (p.lineage name)

/-- The output of a class of that name. -/
def output? (p : Palette) (className name : String) : Option OutputSpec :=
  (p.outputs className).find? (·.name == name)

theorem output?_eq_some_mem {p : Palette} {className name : String} {spec : OutputSpec}
    (h : p.output? className name = some spec) :
    spec ∈ p.outputs className ∧ spec.name = name :=
  ⟨List.mem_of_find?_eq_some h, by simpa using List.find?_some h⟩

end Palette

end ModelInputs
