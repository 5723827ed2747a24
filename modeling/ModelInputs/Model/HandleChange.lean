import ModelInputs.Model.Registry

/-!
# Changing handles

Attributes and custom outputs can be made apart from any entity and then be installed on one.

* `World.makeAttribute`, `World.installAttributes`, `World.installCustomOutputs`;
* `World.assignHandle`, `World.resetHandle`.
-/

namespace ModelInputs

namespace World

/-- A new attribute, and its handle. -/
def makeAttribute (w : World) (a : Attribute) : World × Handle :=
  (w.addAttributes [a], .attribute ⟨w.attributes.length⟩)

/-- The world with the attribute of a handle changed. -/
def updateHandle (w : World) (h : Handle) (f : Attribute → Attribute) : World :=
  match h with
  | .attribute a => w.updateAttribute a f
  | _ => w

/-- The world with a value assigned to a handle. -/
def assignHandle (w : World) (h : Handle) (r : Result) : World :=
  w.updateHandle h (Attribute.assign r)

/-- The world with the value of a handle as it was at first. -/
def resetHandle (w : World) (h : Handle) : World :=
  w.updateHandle h Attribute.reset

/-- The entity with all its attributes replaced by those of the handles. -/
def installAttributes (w : World) (e : EntityId) (hs : List Handle) : World :=
  w.setAttributes e <| hs.filterMap fun
    | .attribute a => some (w.handleName (.attribute a), a)
    | _ => none

/-- The entity with all its custom outputs replaced by those of the handles. -/
def installCustomOutputs (w : World) (e : EntityId) (hs : List Handle) : World :=
  w.setCustomOutputs e <| hs.filterMap fun
    | .custom o => some o
    | _ => none

end World

end ModelInputs
