import ModelInputs.Proofs.Reading.Comparison

/-!
# Deeper readings

Readings nest only so deep. Whatever is read within some depth is read within a greater depth too,
with the same result, since failures are never turned into results: an expression, a chain, a
sampler and an input yield over further readings what they yield over fewer.

* `Comparison.follows`: where one outcome is a result the other one is the same result;
* `Readings.Extends`: readings that yield whatever others yield;
* `World.chainEnd_extends`: a chain over further readings;
* **`World.readingsWithin_extends`**: deeper readings yield whatever others yield.
-/

namespace ModelInputs

/-- What the first readings yield, the second ones yield too. -/
structure Readings.Extends (r r' : Readings) : Prop where
  result : ∀ h t, Follows Eq (r.result h t) (r'.result h t)
  value : ∀ h t, Follows Eq (r.value h t) (r'.value h t)
  unit : ∀ h, Follows Eq (r.unit h) (r'.unit h)

theorem Readings.none_extends (r : Readings) : Readings.none.Extends r :=
  ⟨fun _ _ => .error, fun _ _ => .error, fun _ => .error⟩

theorem Readings.Extends.refl (r : Readings) : r.Extends r :=
  ⟨fun _ _ => .same, fun _ _ => .same, fun _ => .same⟩

theorem Readings.Extends.trans {r r' r'' : Readings} (h : r.Extends r') (h' : r'.Extends r'') :
    r.Extends r'' where
  result k t a ha := by
    obtain ⟨_, hb, rfl⟩ := h.result k t a ha
    exact h'.result k t a hb
  value k t a ha := by
    obtain ⟨_, hb, rfl⟩ := h.value k t a ha
    exact h'.value k t a hb
  unit k a ha := by
    obtain ⟨_, hb, rfl⟩ := h.unit k a ha
    exact h'.unit k a hb

namespace World

variable {w : World} {this : Option EntityId} {everywhere : Bool} {t : Float}

theorem withinExpression_eq_ok {exp : Expression} {x : Except Failure Result} {r : Result} :
    withinExpression exp x = .ok r ↔ x = .ok r := by
  unfold withinExpression
  split
  · exact ⟨nofun, nofun⟩
  · exact Iff.rfl

theorem evaluateWith_eq_ok {readings : Readings} {exp : Expression} {r : Result} :
    w.evaluateWith readings exp this everywhere t = .ok r ↔
      exp.root.eval (w.envWith readings this everywhere t) = .ok r :=
  withinExpression_eq_ok.trans anchored_eq_ok

end World

/-- Where the first outcome is a result, the second one is the same result. -/
def Comparison.follows : Comparison where
  Rel := Follows Eq
  same _ := .same
  bind h hk := h.bind_eq hk
  relocated h _ := h.mapError
  anchored h _ := h.mapError
  withinExpression h exp r hr := by
    obtain ⟨r', hr', rfl⟩ := h r (World.withinExpression_eq_ok.1 hr)
    exact ⟨r, World.withinExpression_eq_ok.2 hr', rfl⟩

theorem Readings.Extends.compared {r r' : Readings} (h : r.Extends r') : r.Compared .follows r' :=
  ⟨h.result, h.value, h.unit⟩

namespace World

variable {w : World} {t : Float}

theorem chainEnd_extends {r r' : Readings} (hr : r.Extends r') (c : OutputChain) :
    Follows Eq (w.chainEnd r c t) (w.chainEnd r' c t) :=
  Comparison.chainEnd hr.compared c

/-- **Deeper readings yield whatever others yield.** -/
theorem readingsWithin_extends (w : World) (n : Nat) :
    (w.readingsWithin n).Extends (w.readingsWithin (n + 1)) := by
  induction n with
  | zero => exact Readings.none_extends _
  | succ n ih =>
    exact ⟨fun h _ => Comparison.resultWith ih.compared h,
      fun h _ => Comparison.valueWith ih.compared h, fun h => Comparison.unitWith ih.compared h⟩

end World

end ModelInputs
