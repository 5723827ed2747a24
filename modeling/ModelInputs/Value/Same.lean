import ModelInputs.Value.Basic

/-!
# Equal values

Numbers are equal if they are so as numbers, whatever their types; a truth value counts as one or
zero. What is computed anew each time, such as samplers, is never equal to anything.

* `Value.same`.
-/

namespace ModelInputs

/-- Moments without offset are equal if their parts are, those with offset if they are the same
instant. -/
def DateTime.same (a b : DateTime) : Bool :=
  let instant (d : DateTime) : Int :=
    let seconds := (dayNumber d.year d.month d.day * 24 + d.hour) * 3600 + d.minute * 60 + d.second
    (seconds * 1000000 + d.microsecond : Nat) - d.offset.getD 0
  a.offset.isSome == b.offset.isSome && instant a == instant b

/-- Integers and floating point numbers that are equal. -/
def sameNumber (n : Int) (x : Float) : Bool :=
  x.isFinite && Number.isWhole x && Number.truncate x == n

namespace Value

/-- A truth value as an integer. -/
def ofTruth : Value → Value
  | bool b => int (if b then 1 else 0)
  | v => v

/-- Values without items are equal. -/
def sameLeaf (v w : Value) : Bool :=
  match v.ofTruth, w.ofTruth with
  | none, none => true
  | int n, int m => n == m
  | int n, float x | float x, int n => sameNumber n x
  | float x, float y => x == y
  | text s, text t => s == t
  | entity e, entity f => e == f
  | date c, date d => c.same d
  | member m, member n => m.enumeration == n.enumeration && m.number == n.number
  | colour c, colour d => c.sameHue d && c.alpha == d.alpha
  | vector a, vector b => a.x == b.x && a.y == b.y && a.z == b.z
  | keywordRef e i, keywordRef f j => e == f && i == j
  | handle (.attribute a), handle (.attribute b) => a == b
  | result r, result s => r.same s
  | _, _ => false

mutual

/-- Equality of values. -/
def same : Value → Value → Bool
  | list as, list bs => sameItems as bs
  | tuple as, tuple bs => sameItems as bs
  | map as, map bs => as.length == bs.length && sameEntries as bs
  | v, w => v.sameLeaf w

/-- Lists of equal items. -/
def sameItems : List Value → List Value → Bool
  | [], [] => true
  | a :: as, b :: bs => same a b && sameItems as bs
  | _, _ => false

/-- Every entry has an equal one under its key. -/
def sameEntries : List (Value × Value) → List (Value × Value) → Bool
  | [], _ => true
  | (key, a) :: as, bs =>
    (match bs.find? fun entry => key.sameLeaf entry.1 with
    | some (_, b) => same a b
    | Option.none => false) && sameEntries as bs

end

end Value

end ModelInputs
