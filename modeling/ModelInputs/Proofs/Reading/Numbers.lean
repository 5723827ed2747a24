import ModelInputs.Proofs.Number.Plain
import ModelInputs.Proofs.Printing.Nodes
import ModelInputs.Proofs.Reading.Warnings
import ModelInputs.Proofs.Record.Words
import ModelInputs.Proofs.Value.Within

/-!
# Numbers as arguments

The text of a number is one argument, and no unit and no colour has such a name. So quantities that
are written in SI units, with the unit behind them, are read as these numbers again: a factor of one
changes nothing, and a number that lies in a range still does. Numbers that are read are numbers,
whatever their units.

* `IsWrittenNumber.isWord`, `IsWrittenNumber.find?_unit`, `IsWrittenNumber.find?_colour`: what texts
  of numbers are read as;
* `isNumber_of_readQuantities`: what is read is a number;
* `Number.ComesBack`: a number that comes back from its text;
* **`readQuantities_plainTexts`**: quantities come back, **`readVector_plainTexts`**: so do vectors.
-/

namespace ModelInputs

open Number Record

/-! ## Texts of numbers -/

/-- Without a bracket there is no unit behind a number. -/
theorem splitUnit_plain {s : String} (h : '[' ∉ s.toList) : splitUnit s = (s, none) := by
  have hbody : '[' ∉ dropLineBreak s.toList := by
    intro hmem
    unfold dropLineBreak at hmem
    split at hmem
    · exact h (List.dropLast_subset _ hmem)
    · exact h hmem
  have hcut : Text.cut? '[' (dropLineBreak s.toList) = none := by
    generalize dropLineBreak s.toList = cs at hbody
    induction cs with
    | nil => rfl
    | cons c cs ih =>
      rw [List.mem_cons, not_or] at hbody
      rw [Text.cut?, if_neg (Ne.symm hbody.1), ih hbody.2]
      rfl
  unfold splitUnit
  dsimp only
  rw [hcut]

namespace Number

/-- What texts of numbers start with. -/
def firstChars : List Char :=
  ['0', '1', '2', '3', '4', '5', '6', '7', '8', '9', '-', 'I']

theorem mem_firstChars_of_isAsciiDigit {c : Char} (h : isAsciiDigit c = true) : c ∈ firstChars := by
  simp only [isAsciiDigit, Bool.and_eq_true, decide_eq_true_eq] at h
  have hall : ∀ k < 10, Char.ofNat (48 + k) ∈ firstChars := by decide
  have hc := hall (c.toNat - 48) (by omega)
  rwa [Nat.add_sub_of_le h.1, Char.ofNat_toNat] at hc

namespace IsWrittenNumber

variable {s : String}

theorem head_mem (h : IsWrittenNumber s) : ∃ c ∈ firstChars, s.toList.head? = some c := by
  obtain ⟨c, hc, hdigit | rfl | rfl⟩ := h.starts
  · exact ⟨c, mem_firstChars_of_isAsciiDigit hdigit, hc⟩
  · exact ⟨_, by decide, hc⟩
  · exact ⟨_, by decide, hc⟩

/-- The text of a number holds none of the characters that are no part of numbers. -/
theorem not_mem (h : IsWrittenNumber s) {c : Char} (hdigit : isAsciiDigit c = false)
    (hc : c ∉ marks) : c ∉ s.toList := by
  intro hmem
  obtain hd | hm := h.chars c hmem
  · exact Bool.eq_false_iff.1 hdigit hd
  · exact hc hm

/-- The text of a number is one token. -/
theorem isWord (h : IsWrittenNumber s) : IsWord s where
  ne_nil hnil := by
    obtain ⟨c, -, hc⟩ := h.head_mem
    rw [hnil] at hc
    cases hc
  plain := by
    refine List.all_eq_true.2 fun c hc => ?_
    have hbar : ∀ d ∈ ['\'', '"', ' ', '\t', '\r', '\n', '\x7b', '\x7d'], c ≠ d := by
      rintro d hd rfl
      have hnone : ['\'', '"', ' ', '\t', '\r', '\n', '\x7b', '\x7d'].all
          (fun d => !isAsciiDigit d && decide (d ∉ marks)) = true := by
        decide
      have hbar := List.all_eq_true.1 hnone c hd
      rw [Bool.and_eq_true, Bool.not_eq_true', decide_eq_true_eq] at hbar
      exact h.not_mem hbar.1 hbar.2 hc
    simp only [List.forall_mem_cons] at hbar
    simp [isPlain, isSeparator, isBraceChar, hbar]

theorem splitUnit_eq (h : IsWrittenNumber s) : splitUnit s = (s, none) :=
  splitUnit_plain (h.not_mem (by decide) (by decide))

/-- No unit has a name that is the text of a number. -/
theorem find?_unit (h : IsWrittenNumber s) : PhysicalUnit.find? s = none := by
  have hnone : ∀ u ∈ PhysicalUnit.all, u.name.toList.head? ∉ firstChars.map some := by
    decide
  obtain ⟨c, hstart, hc⟩ := h.head_mem
  refine List.find?_eq_none.2 fun u hu hname => hnone u hu ?_
  rw [beq_iff_eq.1 hname, hc]
  exact List.mem_map_of_mem hstart

/-- No colour has a name that is the text of a number. -/
theorem find?_colour (h : IsWrittenNumber s) : Colour.find? s = none := by
  have hnone : ∀ entry ∈ Colour.named,
      entry.1.toList.head? ∉ (firstChars.map Text.lowerChar).map some := by
    decide
  obtain ⟨c, hstart, hc⟩ := h.head_mem
  refine List.lookup_eq_none_iff.2 fun entry hentry => ?_
  refine bne_iff_ne.2 fun hname => hnone entry hentry ?_
  rw [← hname, Text.lower, String.toList_ofList, List.head?_map, hc]
  exact List.mem_map_of_mem (List.mem_map_of_mem hstart)

end IsWrittenNumber

end Number

/-! ## Numbers that are read -/

section

variable {settings : Settings} {text token : String} {unit : UnitType} {range : NumberRange}
  {x : Float}

theorem isNumber_of_readPlainNumber? (h : readPlainNumber? token = .ok x) : x.isNaN = false := by
  unfold readPlainNumber? at h
  split at h
  · cases h
    decide
  split at h
  · cases h
    decide
  split at h
  · split at h
    · next hfinite =>
      cases h
      exact isNaN_of_isFinite hfinite
    · cases h
  · cases h

/-- A unit that is read is one of the known units, of the unit type that is asked for. -/
theorem readUnit?_eq_ok {u : PhysicalUnit} (h : readUnit? token unit = .ok u) :
    u ∈ PhysicalUnit.all ∧ u.unitType = unit := by
  unfold readUnit? at h
  split at h
  · cases h
  · next hfind =>
    split at h
    · next hunit =>
      cases h
      exact ⟨List.mem_of_find?_eq_some hfind, hunit⟩
    · cases h

theorem mem_of_sharedUnit {args tokens : List String} {shared : Option PhysicalUnit}
    (h : sharedUnit args unit = .ok (tokens, shared)) : ∀ u ∈ shared, u ∈ PhysicalUnit.all := by
  unfold sharedUnit at h
  split at h
  · cases h
    exact nofun
  split at h
  · obtain ⟨u, hu, h⟩ := bind_eq_ok.1 h
    cases h
    rintro _ ⟨⟩
    exact (readUnit?_eq_ok hu).1
  · cases h
    exact nofun

/-- What a unit is worth is a finite number other than zero. -/
theorem factorOf_gives {shared : Option PhysicalUnit} {suffix : Option String} {factor : Float}
    (hshared : ∀ u ∈ shared, u ∈ PhysicalUnit.all)
    (h : (factorOf settings text unit shared suffix).Gives factor) :
    factor.isFinite = true ∧ (factor == 0.0) = false := by
  have hunits : ∀ u ∈ PhysicalUnit.all, u.factor.isFinite = true ∧ (u.factor == 0.0) = false := by
    decide +kernel
  unfold factorOf at h
  split at h
  · obtain ⟨u, hu, rfl⟩ := map_eq_ok.1 h.of_ofInput
    exact hunits u (readUnit?_eq_ok hu).1
  · rw [h.of_pure]
    exact hunits _ (hshared _ rfl)
  split at h
  · unfold missingUnitFactor at h
    split at h
    · obtain ⟨_, -, h⟩ := h.of_bind
      rw [h.of_pure]
      decide
    · exact absurd h Logged.not_gives_throw
  · rw [h.of_pure]
    decide

/-- **Quantities that are read are numbers.** -/
theorem isNumber_of_readQuantities {a : Arguments} {xs : List Float}
    (h : (readQuantities settings a unit range).Gives xs) : ∀ x ∈ xs, x.isNaN = false := by
  obtain ⟨⟨tokens, shared⟩, hshared, h⟩ := h.of_bind
  refine forall_mem_of_forall₂ h.of_mapM fun token x hx => ?_
  obtain ⟨factor, hfactor, hx⟩ := hx.of_bind
  obtain ⟨y, hy, hx⟩ := bind_eq_ok.1 hx.of_ofInput
  obtain ⟨_, -, hx⟩ := bind_eq_ok.1 hx
  cases hx
  obtain ⟨hfinite, hzero⟩ := factorOf_gives (mem_of_sharedUnit hshared.of_ofInput) hfactor
  exact isNaN_mul_eq_false (isNumber_of_readPlainNumber? hy) hfinite hzero

/-- The components of a vector are the quantities that are read, and zeros. -/
theorem forall_mem_of_readVector {P : Float → Prop} {a : Arguments} {v : Vector3} (hzero : P 0.0)
    (hone : ∀ xs, (readQuantities settings a unit range).Gives xs → ∀ x ∈ xs, P x)
    (h : (readVector settings a unit range).Gives v) : ∀ x ∈ v.toList, P x := by
  obtain ⟨_, -, h⟩ := h.of_bind
  obtain ⟨xs, hxs, h⟩ := h.of_bind
  have hall := hone xs hxs
  split at h
  · rw [h.of_pure]
    exact List.forall_mem_append.2 ⟨hall, by simpa using hzero⟩
  · rw [h.of_pure]
    exact List.forall_mem_append.2 ⟨hall, by simpa using hzero⟩
  · rw [h.of_pure]
    exact hall
  · exact absurd h.of_ofInput nofun

theorem natAbs_lt_of_readInteger? {range : IntRange} {n : Int}
    (h : readInteger? token range = .ok n) : n.natAbs < 10 ^ maxIntDigits := by
  unfold readInteger? at h
  split at h
  · next hread =>
    obtain ⟨_, -, rfl⟩ := map_eq_ok.1 h
    exact natAbs_lt_of_readInt? hread
  · cases h

end

/-! ## Lists that are read back -/

theorem mapM_eq_pure {m : Type → Type} [Monad m] [LawfulMonad m] {α β : Type} {f : α → m β}
    {as : List α} {bs : List β} (h : List.Forall₂ (fun a b => f a = pure b) as bs) :
    as.mapM f = pure bs := by
  induction h with
  | nil => exact List.mapM_nil
  | cons ha _ ih => rw [List.mapM_cons, ha, ih, pure_bind, pure_bind]

theorem exists_forall₂ {α β : Type} {R : α → β → Prop} {as : List α} (h : ∀ a ∈ as, ∃ b, R a b) :
    ∃ bs, List.Forall₂ R as bs := by
  induction as with
  | nil => exact ⟨[], .nil⟩
  | cons a as ih =>
    obtain ⟨ha, has⟩ := List.forall_mem_cons.1 h
    obtain ⟨b, hb⟩ := ha
    obtain ⟨bs, hbs⟩ := ih has
    exact ⟨b :: bs, .cons hb hbs⟩

/-! ## Numbers that come back -/

/-- A number that, if it is finite, comes back from its full text. -/
structure Number.ComesBack (x : Float) : Prop where
  isNumber : x.isNaN = false
  read : x.isFinite = true → readFloat? (fullText x) = some x

theorem NumberRange.Contains.same {range : NumberRange} {x y : Float} (h : range.Contains x)
    (hxy : SameNumber x y) : range.Contains y :=
  ⟨mt hxy.lt_iff.1 h.1, mt hxy.gt_iff.1 h.2⟩

/-- Numbers as arguments, with their SI unit behind them. -/
def quantityTokens (unit : UnitType) (xs : List Float) : List String :=
  xs.map plainText ++ unitTokens unit

theorem tokenize_quantities (unit : UnitType) {xs : List Float}
    (hxs : ∀ x ∈ xs, x.isNaN = false) :
    tokenize (withUnit (" ".intercalate (xs.map plainText)) unit) = quantityTokens unit xs := by
  have hwords : ∀ s ∈ xs.map plainText, IsWord s :=
    List.forall_mem_map.2 fun x hx => (isWrittenNumber_plainText (hxs x hx)).isWord
  rw [IsBare.tokenize_withUnit (.intercalate fun s hs => (hwords s hs).isBare),
    tokenize_words hwords, quantityTokens]

theorem length_quantityTokens (unit : UnitType) (xs : List Float) :
    xs.length ≤ (quantityTokens unit xs).length ∧
      (quantityTokens unit xs).length ≤ xs.length + 1 := by
  rw [quantityTokens, List.length_append, List.length_map, unitTokens]
  split
  · exact ⟨Nat.le_add_right _ _, Nat.le_refl _⟩
  · exact ⟨Nat.le_add_right _ _, Nat.le_succ _⟩

theorem not_isBrace_quantityTokens {unit : UnitType} {xs : List Float}
    (hxs : ∀ x ∈ xs, x.isNaN = false) : ∀ t ∈ quantityTokens unit xs, isBrace t = false := by
  refine List.forall_mem_append.2 ⟨?_, not_isBrace_unitTokens⟩
  exact List.forall_mem_map.2 fun x hx => (isWrittenNumber_plainText (hxs x hx)).isWord.not_isBrace

section

variable (settings : Settings) {a : Arguments} {unit : UnitType} {range : NumberRange}
  {xs : List Float} {x : Float}

/-- A number in the range comes back, if its unit has the factor one. -/
theorem readQuantity_plainText (text : String) {shared : Option PhysicalUnit}
    (hshared : shared = none ∧ unit.hasUnit = false ∨ ∃ u, shared = some u ∧ u.factor = 1.0)
    (hx : ComesBack x) (hrange : range.Contains x) :
    ∃ y, SameNumber x y ∧
      readQuantity settings text unit range shared (plainText x) = pure y := by
  obtain ⟨y, hy, hsame⟩ := readPlainNumber?_plainText hx.isNumber hx.read
  have hfactor : factorOf settings text unit shared none = pure 1.0 := by
    obtain ⟨rfl, hunit⟩ | ⟨u, rfl, hfactor⟩ := hshared
    · exact if_neg (Bool.eq_false_iff.1 hunit)
    · exact congrArg pure hfactor
  have hnumber : readNumber? (plainText x) range 1.0 = .ok y := by
    rw [readNumber?, hy]
    simp only [ok_bind, Number.mul_one, NumberRange.check_eq_ok.2 (hrange.same hsame)]
    rfl
  refine ⟨y, hsame, ?_⟩
  rw [readQuantity, (isWrittenNumber_plainText hx.isNumber).splitUnit_eq]
  dsimp only
  rw [hfactor, pure_bind, hnumber]
  rfl

/-- The unit behind numbers is read as that of all of them. -/
theorem sharedUnit_quantityTokens (unit : UnitType) (hxs : ∀ x ∈ xs, x.isNaN = false) :
    ∃ shared, sharedUnit (quantityTokens unit xs) unit = .ok (xs.map plainText, shared) ∧
      (shared = none ∧ unit.hasUnit = false ∨ ∃ u, shared = some u ∧ u.factor = 1.0) := by
  cases hunit : unit.hasUnit with
  | true =>
    obtain ⟨u, hfind, htype, hfactor⟩ := find?_siUnit hunit
    have hfind : PhysicalUnit.find? unit.siUnit = some u := hfind
    have hread : readUnit? unit.siUnit unit = .ok u := by
      rw [readUnit?, hfind]
      exact if_pos htype
    refine ⟨some u, ?_, .inr ⟨u, rfl, hfactor⟩⟩
    rw [quantityTokens, unitTokens, if_pos hunit, sharedUnit, List.getLast?_concat]
    dsimp only
    rw [hfind, hread, List.dropLast_concat]
    rfl
  | false =>
    refine ⟨none, ?_, .inl ⟨rfl, rfl⟩⟩
    rw [quantityTokens, unitTokens, hunit, if_neg Bool.false_ne_true, List.append_nil, sharedUnit,
      List.getLast?_map]
    cases hlast : xs.getLast? with
    | none => rfl
    | some x =>
      have hx := hxs x (List.mem_of_getLast? hlast)
      have hfind := (isWrittenNumber_plainText hx).find?_unit
      dsimp only [Option.map_some]
      rw [hfind]
      rfl

/-- **Quantities come back.** -/
theorem readQuantities_plainTexts (hargs : a.args = quantityTokens unit xs)
    (hxs : ∀ x ∈ xs, ComesBack x ∧ range.Contains x) :
    ∃ ys, readQuantities settings a unit range = pure ys ∧ List.Forall₂ SameNumber xs ys := by
  obtain ⟨shared, hread, hshared⟩ :=
    sharedUnit_quantityTokens unit fun x hx => (hxs x hx).1.isNumber
  obtain ⟨ys, hys⟩ := exists_forall₂ fun x hx =>
    readQuantity_plainText settings a.text hshared (hxs x hx).1 (hxs x hx).2
  refine ⟨ys, ?_, hys.imp fun _ _ h => h.1⟩
  rw [readQuantities, hargs, hread]
  exact mapM_eq_pure (List.forall₂_map_left_iff.2 (hys.imp fun _ _ h => h.2))

/-- **Vectors come back.** -/
theorem readVector_plainTexts {v : Vector3} (hargs : a.args = quantityTokens unit v.toList)
    (hv : ∀ x ∈ v.toList, ComesBack x ∧ range.Contains x) :
    ∃ v' : Vector3, readVector settings a unit range = pure v' ∧
      List.Forall₂ SameNumber v.toList v'.toList := by
  obtain ⟨ys, hread, hys⟩ := readQuantities_plainTexts settings hargs hv
  have hcount : a.checkCountRange 1 (some 4) = .ok () := by
    obtain ⟨hleast, hmost⟩ := length_quantityTokens unit v.toList
    rw [checkCountRange_eq_ok, hargs]
    exact ⟨(by decide : 1 ≤ 3).trans hleast, fun _ => hmost⟩
  obtain ⟨x', y', z', rfl⟩ : ∃ x' y' z', ys = [x', y', z'] :=
    List.length_eq_three.1 hys.length_eq.symm
  refine ⟨⟨x', y', z'⟩, ?_, hys⟩
  rw [readVector, hcount, hread]
  rfl

end

end ModelInputs
