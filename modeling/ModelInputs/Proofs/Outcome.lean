import ModelInputs.Error.Warning

/-!
# Computations that may fail

What it takes for a computation of several steps to succeed, and how two computations are compared
step by step.

* `ok_bind`, `bind_eq_ok`, `map_eq_ok`, `mapError_eq_ok`: a computation succeeds if all its steps
  do;
* `bind_eq_error`: it fails if one of them does;
* `Yields`, `YieldsUnless`: a result has a property, and a failure is an error of an expression, or
  one of some others;
* `Follows`: where one computation succeeds another one does, with a related result;
* `SameResult`: both computations fail, or both succeed with the same result;
* `Logged.Gives`: a computation that may give warnings succeeds with a value.
-/

namespace ModelInputs

/-! ## Success -/

section Success

variable {ε α β : Type}

theorem ok_bind (a : α) (k : α → Except ε β) : (.ok a : Except ε α) >>= k = k a :=
  rfl

theorem bind_eq_ok {x : Except ε α} {k : α → Except ε β} {b : β} :
    x >>= k = .ok b ↔ ∃ a, x = .ok a ∧ k a = .ok b := by
  cases x with
  | error f =>
    constructor
    · rintro ⟨⟩
    · rintro ⟨a, ⟨⟩, -⟩
  | ok a =>
    constructor
    · intro h
      exact ⟨a, rfl, h⟩
    · rintro ⟨a, ⟨⟩, h⟩
      exact h

theorem bind_eq_error {x : Except ε α} {k : α → Except ε β} {f : ε} :
    x >>= k = .error f ↔ x = .error f ∨ ∃ a, x = .ok a ∧ k a = .error f := by
  cases x with
  | error f' =>
    constructor
    · rintro ⟨⟩
      exact .inl rfl
    · rintro (⟨⟨⟩⟩ | ⟨a, ⟨⟩, -⟩)
      rfl
  | ok a =>
    constructor
    · intro h
      exact .inr ⟨a, rfl, h⟩
    · rintro (⟨⟨⟩⟩ | ⟨a, ⟨⟩, h⟩)
      exact h

theorem map_eq_ok {f : α → β} {x : Except ε α} {b : β} :
    x.map f = .ok b ↔ ∃ a, x = .ok a ∧ f a = b := by
  cases x with
  | error f =>
    constructor
    · rintro ⟨⟩
    · rintro ⟨a, ⟨⟩, -⟩
  | ok a =>
    constructor
    · rintro ⟨⟩
      exact ⟨a, rfl, rfl⟩
    · rintro ⟨a, ⟨⟩, rfl⟩
      rfl

theorem mapError_eq_ok {ε' : Type} {f : ε → ε'} {x : Except ε α} {a : α} :
    x.mapError f = .ok a ↔ x = .ok a := by
  cases x with
  | error e => exact ⟨nofun, nofun⟩
  | ok b =>
    constructor
    · rintro ⟨⟩
      rfl
    · rintro ⟨⟩
      rfl

/-- All items are taken if each of them is. -/
theorem mapM_map_eq_ok {γ : Type} {f : β → Except ε γ} {g : α → β} {r : α → γ}
    (h : ∀ a, f (g a) = .ok (r a)) (as : List α) : (as.map g).mapM f = .ok (as.map r) := by
  induction as with
  | nil => rfl
  | cons a as ih =>
    rw [List.map_cons, List.mapM_cons, h, ok_bind, ih]
    rfl

theorem anchored_eq_ok {source : String} {x : Except Failure α} {a : α} :
    anchored source x = .ok a ↔ x = .ok a :=
  mapError_eq_ok

end Success

/-! ## Expected outcomes -/

section Yields

variable {α β : Type} {G : Failure → Prop} {P : α → Prop} {Q : β → Prop}

/-- A result has the property, and a failure is an error of an expression or one of `G`. -/
def YieldsUnless (G : Failure → Prop) (P : α → Prop) : Except Failure α → Prop
  | .ok a => P a
  | .error f => (∃ error, f = .expression error) ∨ G f

theorem YieldsUnless.mono {P' : α → Prop} {x : Except Failure α} (h : YieldsUnless G P x)
    (hp : ∀ a, P a → P' a) : YieldsUnless G P' x := by
  cases x with
  | error f => exact h
  | ok a => exact hp a h

theorem YieldsUnless.bind {x : Except Failure α} {k : α → Except Failure β}
    (h : YieldsUnless G P x) (hk : ∀ a, x = .ok a → P a → YieldsUnless G Q (k a)) :
    YieldsUnless G Q (x >>= k) := by
  cases x with
  | error f => exact h
  | ok a => exact hk a rfl h

/-- A result has the property, and a failure is an error of an expression. -/
def Yields (P : α → Prop) : Except Failure α → Prop
  | .ok a => P a
  | .error f => ∃ error, f = .expression error

theorem YieldsUnless.yields {x : Except Failure α} (h : YieldsUnless (fun _ => False) P x) :
    Yields P x := by
  cases x with
  | error f => exact h.resolve_right id
  | ok a => exact h

theorem Yields.anchored {x : Except Failure α} (h : Yields P x) (source : String) :
    Yields P (anchored source x) := by
  cases x with
  | error f =>
    obtain ⟨error, rfl⟩ := h
    exact ⟨_, rfl⟩
  | ok a => exact h

end Yields

/-! ## Two computations side by side -/

section Follows

variable {ε α β γ δ : Type} {R : α → β → Prop} {S : γ → δ → Prop}

/-- Where `x` succeeds `y` succeeds too, with a related result. -/
def Follows (R : α → β → Prop) (x : Except ε α) (y : Except ε β) : Prop :=
  ∀ a, x = .ok a → ∃ b, y = .ok b ∧ R a b

theorem Follows.ok {a : α} {b : β} (h : R a b) :
    Follows R (.ok a : Except ε α) (.ok b : Except ε β) := by
  rintro _ ⟨⟩
  exact ⟨b, rfl, h⟩

theorem Follows.error {f : ε} {y : Except ε β} : Follows R (.error f) y := by
  rintro _ ⟨⟩

theorem Follows.same {x : Except ε α} : Follows Eq x x :=
  fun a ha => ⟨a, ha, rfl⟩

theorem Follows.mapError {ε' : Type} {x : Except ε α} {y : Except ε β} {f g : ε → ε'}
    (h : Follows R x y) : Follows R (x.mapError f) (y.mapError g) := by
  intro a ha
  obtain ⟨b, hb, hab⟩ := h a (mapError_eq_ok.1 ha)
  exact ⟨b, mapError_eq_ok.2 hb, hab⟩

theorem Follows.bind {x : Except ε α} {y : Except ε β} {k : α → Except ε γ}
    {k' : β → Except ε δ} (h : Follows R x y)
    (hk : ∀ a b, x = .ok a → R a b → Follows S (k a) (k' b)) :
    Follows S (x >>= k) (y >>= k') := by
  intro c hc
  obtain ⟨a, hx, hc⟩ := bind_eq_ok.1 hc
  obtain ⟨b, hy, hab⟩ := h a hx
  obtain ⟨d, hd, hcd⟩ := hk a b hx hab c hc
  exact ⟨d, bind_eq_ok.2 ⟨b, hy, hd⟩, hcd⟩

/-- The same computation stands in front of both. -/
theorem Follows.bind_same {x : Except ε α} {k : α → Except ε γ} {k' : α → Except ε δ}
    (hk : ∀ a, x = .ok a → Follows S (k a) (k' a)) : Follows S (x >>= k) (x >>= k') := by
  refine Follows.bind (R := Eq) (fun a ha => ⟨a, ha, rfl⟩) ?_
  rintro a _ ha rfl
  exact hk a ha

/-- The computations in front have the same result. -/
theorem Follows.bind_eq {x y : Except ε α} {k : α → Except ε γ} {k' : α → Except ε δ}
    (h : Follows Eq x y) (hk : ∀ a, Follows S (k a) (k' a)) : Follows S (x >>= k) (y >>= k') := by
  refine h.bind ?_
  rintro a _ - rfl
  exact hk a

end Follows

/-- Both computations fail, or both succeed with the same result. -/
inductive SameResult {ε α : Type} : Except ε α → Except ε α → Prop where
  | ok (a : α) : SameResult (.ok a) (.ok a)
  | error (f g : ε) : SameResult (.error f) (.error g)

theorem sameResult_iff {ε α : Type} {x y : Except ε α} :
    SameResult x y ↔ ∀ a, x = .ok a ↔ y = .ok a := by
  constructor
  · rintro (_ | _) a
    · exact Iff.rfl
    · exact iff_of_false nofun nofun
  · intro h
    cases x with
    | ok a =>
      rw [(h a).1 rfl]
      exact .ok a
    | error f =>
      cases y with
      | ok b => cases (h b).2 rfl
      | error g => exact .error f g

/-! ## Computations with warnings -/

namespace Logged

variable {α β : Type} {x : Logged α} {k : α → Logged β} {a a' : α} {b : β}

/-- The computation succeeds with the value, behind some warnings. -/
def Gives (x : Logged α) (a : α) : Prop :=
  ∃ log log', x.run log = (.ok a, log')

variable {log log' : List Warning} {r : Except Failure α}

theorem run_bind (h : x.run log = (r, log')) :
    (x >>= k).run log = (ExceptT.bindCont k r).run log' := by
  show (match x.run log with | (r, l) => (ExceptT.bindCont k r).run l) = _
  rw [h]

theorem run_adapt {f : Failure → Failure} (h : x.run log = (r, log')) :
    (ExceptT.adapt f x).run log = (r.mapError f, log') := by
  show (match x.run log with | (r, l) => (r.mapError f, l)) = _
  rw [h]

theorem Gives.of_bind (h : Gives (x >>= k) b) : ∃ a, x.Gives a ∧ (k a).Gives b := by
  obtain ⟨log, log', h⟩ := h
  cases hx : x.run log with
  | mk res mid =>
    rw [run_bind hx] at h
    cases res with
    | error f => cases h
    | ok a => exact ⟨a, ⟨log, mid, hx⟩, mid, log', h⟩

theorem Gives.of_pure (h : Gives (pure a) a') : a' = a := by
  obtain ⟨log, log', ⟨⟩⟩ := h
  rfl

theorem not_gives_throw {f : Failure} : ¬ Gives (throw f) a := by
  rintro ⟨log, log', ⟨⟩⟩

theorem Gives.of_ofExcept {x : Except Failure α} (h : Gives (ofExcept x) a) : x = .ok a := by
  cases x with
  | error f => exact absurd h not_gives_throw
  | ok a' => rw [h.of_pure]

theorem Gives.of_ofInput {x : Except InputError α} (h : Gives (ofInput x) a) : x = .ok a :=
  mapError_eq_ok.1 h.of_ofExcept

theorem gives_pure : Gives (pure a) a' ↔ a' = a := by
  constructor
  · exact Gives.of_pure
  · rintro rfl
    exact ⟨[], [], rfl⟩

/-- A computation without warnings comes first. -/
theorem gives_ofExcept_bind {x : Except Failure α} :
    Gives (ofExcept x >>= k) b ↔ ∃ a, x = .ok a ∧ (k a).Gives b := by
  constructor
  · intro h
    obtain ⟨a, ha, h⟩ := h.of_bind
    exact ⟨a, ha.of_ofExcept, h⟩
  · rintro ⟨a, rfl, h⟩
    exact h

theorem gives_ofInput_bind {x : Except InputError α} :
    Gives (ofInput x >>= k) b ↔ ∃ a, x = .ok a ∧ (k a).Gives b := by
  rw [ofInput, gives_ofExcept_bind]
  simp only [mapError_eq_ok]

theorem gives_ofExcept {x : Except Failure α} : Gives (ofExcept x) a ↔ x = .ok a := by
  constructor
  · exact Gives.of_ofExcept
  · rintro rfl
    exact ⟨[], [], rfl⟩

theorem gives_ofInput {x : Except InputError α} : Gives (ofInput x) a ↔ x = .ok a :=
  gives_ofExcept.trans mapError_eq_ok

/-- What holds at the start and is kept by every step of a loop holds of what the loop gives. -/
theorem Gives.foldlM_induction {P : β → Prop} {step : β → α → Logged β} {b' : β} {xs : List α}
    (h : Gives (xs.foldlM step b) b') (hb : P b)
    (hstep : ∀ c a c', P c → Gives (step c a) c' → P c') : P b' := by
  induction xs generalizing b with
  | nil => rwa [h.of_pure]
  | cons a xs ih =>
    rw [List.foldlM_cons] at h
    obtain ⟨c, hc, hrest⟩ := h.of_bind
    exact ih hrest (hstep b a c hb hc)

theorem Gives.of_adapt {f : Failure → Failure} (h : Gives (ExceptT.adapt f x) a) : x.Gives a := by
  obtain ⟨log, log', h⟩ := h
  cases hx : x.run log with
  | mk res mid =>
    rw [run_adapt hx] at h
    cases res with
    | error f => cases h
    | ok a =>
      cases h
      exact ⟨log, _, hx⟩

end Logged

end ModelInputs
