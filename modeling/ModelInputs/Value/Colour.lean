import ModelInputs.Number.Read
import ModelInputs.Record.Arguments
import ModelInputs.Text.Case

/-!
# Colours and vectors

A colour has red, green, blue and opacity between zero and one. It is written by name, where there
is one, or by its components; components above one count up to 255.

* `Colour`, `Colour.named`, `Colour.find?`;
* `Colour.read?`, `Colour.text`;
* `Vector3`: three numbers.
-/

namespace ModelInputs

/-- A colour with its opacity. -/
structure Colour where
  red : Float
  green : Float
  blue : Float
  alpha : Float := 1.0

/-- Three coordinates. -/
structure Vector3 where
  x : Float
  y : Float
  z : Float := 0.0

/-- The coordinates of a vector. -/
def Vector3.toList (v : Vector3) : List Float :=
  [v.x, v.y, v.z]

namespace Colour

/-- The components without the opacity are equal. -/
def sameHue (c d : Colour) : Bool :=
  c.red == d.red && c.green == d.green && c.blue == d.blue

/-- The colours with a name; of two names for one colour the first is written. -/
def named : List (String × Colour) := [
  ("black", ⟨0.0, 0.0, 0.0, 1.0⟩),
  ("white", ⟨1.0, 1.0, 1.0, 1.0⟩),
  ("red", ⟨1.0, 0.0, 0.0, 1.0⟩),
  ("green", ⟨0.0, 0.5, 0.0, 1.0⟩),
  ("lime", ⟨0.0, 1.0, 0.0, 1.0⟩),
  ("blue", ⟨0.0, 0.0, 1.0, 1.0⟩),
  ("yellow", ⟨1.0, 1.0, 0.0, 1.0⟩),
  ("cyan", ⟨0.0, 1.0, 1.0, 1.0⟩),
  ("magenta", ⟨1.0, 0.0, 1.0, 1.0⟩),
  ("orange", ⟨1.0, 0.647, 0.0, 1.0⟩),
  ("purple", ⟨0.5, 0.0, 0.5, 1.0⟩),
  ("brown", ⟨0.647, 0.165, 0.165, 1.0⟩),
  ("pink", ⟨1.0, 0.753, 0.796, 1.0⟩),
  ("grey", ⟨0.5, 0.5, 0.5, 1.0⟩),
  ("gray", ⟨0.5, 0.5, 0.5, 1.0⟩),
  ("lightgrey", ⟨0.827, 0.827, 0.827, 1.0⟩),
  ("darkgrey", ⟨0.663, 0.663, 0.663, 1.0⟩),
  ("navy", ⟨0.0, 0.0, 0.5, 1.0⟩),
  ("skyblue", ⟨0.529, 0.808, 0.922, 1.0⟩)]

/-- The names of the colours, sorted. -/
def names : List String :=
  (named.map (·.1)).mergeSort

/-- The colour of that name, in any case. -/
def find? (name : String) : Option Colour :=
  named.lookup (Text.lower name)

/-- The arguments are no colour. -/
def refuse {α : Type} (a : Arguments) : Except InputError α :=
  .error (.common .badColour [a.text])

/-- A component from zero to 255. -/
def readComponent? (a : Arguments) (token : String) : Except InputError Float :=
  match Number.readFloat? token with
  | some x => if 0.0 ≤ x ∧ x ≤ 255.0 then .ok x else refuse a
  | none => refuse a

/-- A component as a fraction, if it was counted up to 255. -/
def scaled (x : Float) : Float :=
  if x > 1.0 then x / 255.0 else x

/-- The colour of a name with an optional opacity, or of three components with an optional opacity;
the three components count up to 255 if one of them is above one. -/
def read? (a : Arguments) : Except InputError Colour := do
  a.checkCountRange 1 (some 4)
  match (a.args.head?.bind find?), a.args with
  | some c, [_] => return c
  | some c, [_, alpha] => return { c with alpha := scaled (← readComponent? a alpha) }
  | none, r :: g :: b :: alpha => do
    let r ← readComponent? a r
    let g ← readComponent? a g
    let b ← readComponent? a b
    let component (x : Float) := if r > 1.0 || g > 1.0 || b > 1.0 then x / 255.0 else x
    match alpha with
    | [] => return ⟨component r, component g, component b, 1.0⟩
    | alpha :: _ =>
      return ⟨component r, component g, component b, scaled (← readComponent? a alpha)⟩
  | _, _ => refuse a

/-- The colour as arguments: its name or its components, and its opacity unless it is one. -/
def text (c : Colour) : String :=
  let hue :=
    match named.find? fun entry => entry.2.sameHue c with
    | some (name, _) => [name]
    | none => [c.red, c.green, c.blue].map Number.plainText
  let alpha := if c.alpha == 1.0 then [] else [Number.plainText c.alpha]
  " ".intercalate (hue ++ alpha)

end Colour

end ModelInputs
