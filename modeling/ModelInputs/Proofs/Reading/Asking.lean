import ModelInputs.Proofs.Reading.Depth
import ModelInputs.Proofs.Reading.Endless

/-!
# Computations that ask for readings

What is computed over readings depends on those that it asks for, and on nothing else. It asks for
one after the other, and which ones follow depends on what the first ones yield; a failure is never
recovered from, so it ends the computation.

* `Reading`, `Readings.outcome`: the result, the value or the unit type of a handle;
* **`Asks`**: a computation over readings with the readings that it asks for;
* `Asks.const`, `Asks.read`, `Asks.bind`, `Asks.mapError`: how such computations are made.
-/

namespace ModelInputs

/-! ## Readings -/

/-- What is read of a handle: its result or its value at a time, or the unit type of its numbers. -/
inductive Reading where
  | result (h : Handle) (t : Float)
  | value (h : Handle) (t : Float)
  | unit (h : Handle)

namespace Reading

/-- The handle that is read. -/
def handle : Reading → Handle
  | result h _ | value h _ | unit h => h

/-- What a reading yields. -/
abbrev Outcome : Reading → Type
  | result .. => Result
  | value .. => Value
  | unit _ => UnitType

/-- One reading over others. -/
def outcomeOver (w : World) (r : Readings) : (q : Reading) → Except Failure q.Outcome
  | result h t => w.resultWith r t h
  | value h t => w.valueWith r t h
  | unit h => w.unitWith r h

end Reading

/-- What a reading yields among others. -/
def Readings.outcome (r : Readings) : (q : Reading) → Except Failure q.Outcome
  | .result h t => r.result h t
  | .value h t => r.value h t
  | .unit h => r.unit h

theorem Readings.Extends.outcome {r r' : Readings} (h : r.Extends r') (q : Reading) :
    Follows Eq (r.outcome q) (r'.outcome q) := by
  cases q with
  | result k t => exact h.result k t
  | value k t => exact h.value k t
  | unit k => exact h.unit k

/-! ## Computations over readings -/

/-- A computation over readings, and the readings that it asks for. Where `G` holds it does not
refer back to itself on its own account. -/
structure Asks {α : Type} (G : Prop) (f : Readings → Except Failure α)
    (asked : Readings → Reading → Prop) : Prop where
  /-- only the readings count that are asked for -/
  same : ∀ {r r' : Readings}, (∀ q, asked r q → r'.outcome q = r.outcome q) →
    f r' = f r ∧ ∀ q, asked r' q → asked r q
  /-- a failure is passed on, and a self-reference as one -/
  strict : ∀ {r : Readings} {q : Reading} {x : Failure}, asked r q → r.outcome q = .error x →
    ∃ y, f r = .error y ∧ (y.IsEndless ↔ x.IsEndless)
  /-- readings that yield more are asked for more -/
  mono : ∀ {r r' : Readings} {q : Reading}, r.Extends r' → asked r q → asked r' q
  plain : G → ∀ {r : Readings}, (∀ q, asked r q → ∃ a, r.outcome q = .ok a) → ¬ Endless (f r)

namespace Asks

variable {α β : Type} {G : Prop} {f : Readings → Except Failure α}
variable {asked asked' : Readings → Reading → Prop}

/-- What is asked for has been read where there is a result. -/
theorem outcome_eq_ok (h : Asks G f asked) {r : Readings} {a : α} (hf : f r = .ok a) {q : Reading}
    (hq : asked r q) : ∃ b, r.outcome q = .ok b := by
  cases hx : r.outcome q with
  | ok b => exact ⟨b, rfl⟩
  | error x =>
    obtain ⟨y, hy, -⟩ := h.strict hq hx
    rw [hf] at hy
    cases hy

/-- Readings that yield more have the same results. -/
theorem eq_ok_of_extends (h : Asks G f asked) {r r' : Readings} (hr : r.Extends r') {a : α}
    (hf : f r = .ok a) : f r' = .ok a := by
  rw [← hf]
  refine (h.same fun q hq => ?_).1
  obtain ⟨b, hb⟩ := h.outcome_eq_ok hf hq
  obtain ⟨_, hb', rfl⟩ := hr.outcome q b hb
  rw [hb, hb']

theorem of_iff (h : Asks G f asked) (hiff : ∀ r q, asked' r q ↔ asked r q) : Asks G f asked' := by
  obtain rfl : asked' = asked := funext fun r => funext fun q => propext (hiff r q)
  exact h

/-- Nothing is asked for. -/
theorem const {x : Except Failure α} (hx : G → ¬ Endless x) :
    Asks G (fun _ => x) fun _ _ => False where
  same _ := ⟨rfl, fun _ => id⟩
  strict := nofun
  mono _ := id
  plain hG _ _ := hx hG

/-- Nothing is asked for, as it turns out. -/
theorem nothing {x : Except Failure α} (hx : ¬ Endless x) (hnone : ∀ r q, ¬ asked r q) :
    Asks G (fun _ => x) asked :=
  (const fun _ => hx).of_iff fun r q => iff_of_false (hnone r q) id

/-- One reading is asked for. -/
theorem read (q : Reading) : Asks G (·.outcome q) fun _ q' => q' = q where
  same h := ⟨h q rfl, fun _ => id⟩
  strict := by
    rintro r _ x rfl hx
    exact ⟨x, hx, Iff.rfl⟩
  mono _ := id
  plain _ r h := by
    obtain ⟨a, ha⟩ := h q rfl
    rw [ha]
    exact not_endless_ok a

/-- What follows asks for its part if there is a result to go on from. -/
theorem bind (h : Asks G f asked) {k : α → Readings → Except Failure β}
    {askedNext : α → Readings → Reading → Prop} (hk : ∀ a, Asks G (k a) (askedNext a)) :
    Asks G (fun r => f r >>= (k · r))
      (fun r q => asked r q ∨ ∃ a, f r = .ok a ∧ askedNext a r q) where
  same {r r'} hsame := by
    obtain ⟨hf, hasked⟩ := h.same fun q hq => hsame q (.inl hq)
    show f r' >>= (k · r') = f r >>= (k · r) ∧ _
    rw [hf]
    cases hx : f r with
    | error x => exact ⟨rfl, fun q hq => hq.imp (hasked q) nofun⟩
    | ok a =>
      obtain ⟨hnext, haskedNext⟩ := (hk a).same fun q hq => hsame q (.inr ⟨a, hx, hq⟩)
      refine ⟨hnext, fun q hq => hq.imp (hasked q) ?_⟩
      rintro ⟨_, ⟨⟩, hq⟩
      exact ⟨a, rfl, haskedNext q hq⟩
  strict {r q x} hq hx := by
    obtain hq | ⟨a, ha, hq⟩ := hq
    · obtain ⟨y, hy, hiff⟩ := h.strict hq hx
      refine ⟨y, ?_, hiff⟩
      show f r >>= _ = _
      rw [hy]
      rfl
    · obtain ⟨y, hy, hiff⟩ := (hk a).strict hq hx
      refine ⟨y, ?_, hiff⟩
      show f r >>= _ = _
      rw [ha]
      exact hy
  mono hr hq := by
    obtain hq | ⟨a, ha, hq⟩ := hq
    · exact .inl (h.mono hr hq)
    · exact .inr ⟨a, h.eq_ok_of_extends hr ha, (hk a).mono hr hq⟩
  plain hG r hok := by
    have hf := h.plain hG fun q hq => hok q (.inl hq)
    show ¬ Endless (f r >>= (k · r))
    cases hx : f r with
    | error x =>
      rw [hx] at hf
      exact fun hend => hf (endless_error.2 (endless_error.1 hend))
    | ok a => exact (hk a).plain hG fun q hq => hok q (.inr ⟨a, hx, hq⟩)

/-- What follows asks for nothing more. -/
theorem andThen (h : Asks G f asked) {k : α → Except Failure β} (hk : ∀ a, ¬ Endless (k a)) :
    Asks G (fun r => f r >>= k) asked := by
  refine (h.bind fun a => .const fun _ => hk a).of_iff fun r q => ?_
  constructor
  · exact .inl
  · rintro (hq | ⟨_, _, ⟨⟩⟩)
    exact hq

/-- What stands in front asks for nothing. -/
theorem after {x : Except Failure α} (hx : ¬ Endless x) {k : α → Readings → Except Failure β}
    {askedNext : α → Readings → Reading → Prop} (hk : ∀ a, Asks G (k a) (askedNext a)) :
    Asks G (fun r => x >>= (k · r)) (fun r q => ∃ a, x = .ok a ∧ askedNext a r q) :=
  ((const fun _ => hx).bind hk).of_iff fun _ _ => (Iff.of_eq (false_or _)).symm

/-- A failure that is placed anew asks for nothing, if self-references stay what they are. -/
theorem mapError (h : Asks G f asked) {g : Failure → Failure}
    (hg : ∀ x, (g x).IsEndless ↔ x.IsEndless) : Asks G (fun r => (f r).mapError g) asked where
  same hsame := by
    obtain ⟨hf, hasked⟩ := h.same hsame
    exact ⟨congrArg (·.mapError g) hf, hasked⟩
  strict {r q x} hq hx := by
    obtain ⟨y, hy, hiff⟩ := h.strict hq hx
    refine ⟨g y, ?_, (hg y).trans hiff⟩
    show (f r).mapError g = _
    rw [hy]
    rfl
  mono := h.mono
  plain hG r hok := by
    have hf := h.plain hG hok
    show ¬ Endless ((f r).mapError g)
    cases hx : f r with
    | ok a => exact not_endless_ok a
    | error x =>
      rw [hx] at hf
      exact fun hend => hf (endless_error.2 ((hg x).1 (endless_error.1 hend)))

theorem relocated (h : Asks G f asked) (pos : Nat) : Asks G (fun r => relocated pos (f r)) asked :=
  h.mapError (Failure.isEndless_relocated pos)

end Asks

end ModelInputs
