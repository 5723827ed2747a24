import Mathlib.Data.List.TakeWhile
import ModelInputs.Proofs.Number.Sign
import ModelInputs.Unit.Table

/-!
# What numbers are read as

A text of digits is read as the number nearest to the natural number that they write. A text that
starts with a digit of some script or with a point is read as a number without a minus sign: its
first character stays a digit or a point when it is brought to ASCII, trimmed and freed from
underscores, so no sign is found in front of the number.

* `AreDigits`: the texts of digits from `0` to `9`, **`readFloat?_digits`**: what they are read as;
* `StartsUnsigned`: a digit or a point stands in front, with the steps of the reader that keep it;
* **`isNegative_of_readFloat?`**: what is read has no minus sign;
* `isNegative_toSI`: neither has it in SI units.
-/

namespace ModelInputs.Number

open Text

/-! ## Digits -/

/-- All characters are digits from `0` to `9`. -/
def AreDigits (cs : List Char) : Prop :=
  ∀ c ∈ cs, isAsciiDigit c = true

theorem AreDigits.nil : AreDigits [] :=
  fun _ h => absurd h List.not_mem_nil

theorem areDigits_zero : AreDigits ['0'] :=
  List.forall_mem_cons.2 ⟨by decide, AreDigits.nil⟩

theorem AreDigits.append {cs ds : List Char} (hc : AreDigits cs) (hd : AreDigits ds) :
    AreDigits (cs ++ ds) :=
  List.forall_mem_append.2 ⟨hc, hd⟩

theorem AreDigits.take {cs : List Char} (h : AreDigits cs) (n : Nat) : AreDigits (cs.take n) :=
  fun c hc => h c (List.mem_of_mem_take hc)

theorem AreDigits.drop {cs : List Char} (h : AreDigits cs) (n : Nat) : AreDigits (cs.drop n) :=
  fun c hc => h c (List.mem_of_mem_drop hc)

theorem areDigits_natDigits (n : Nat) : AreDigits (natDigits n) := by
  intro c hc
  have h := Nat.isDigit_of_mem_toDigits (by decide) (by decide) hc
  simp only [Char.isDigit, Bool.and_eq_true, decide_eq_true_eq] at h
  simp only [isAsciiDigit, Bool.and_eq_true, decide_eq_true_eq]
  exact h

theorem natDigits_ne_nil (n : Nat) : natDigits n ≠ [] :=
  Nat.toDigits_ne_nil

theorem ofDigits_natDigits (n : Nat) : ofDigits (natDigits n) = n :=
  Nat.ofDigitChars_ten_toDigits

theorem isDigit_of_isAsciiDigit {c : Char} (h : isAsciiDigit c = true) : isDigit c = true := by
  simp only [isAsciiDigit, Bool.and_eq_true, decide_eq_true_eq] at h
  have hd : (decimalValue? c).isSome = true := by
    rw [decimalValue?, zeros, List.find?_cons_of_pos (by simp; omega)]
    rfl
  rw [isDigit, isDecimal, hd, Bool.true_or]

/-! ## Reading digits -/

theorem not_isAsciiBlank_of_isAsciiDigit {c : Char} (h : isAsciiDigit c = true) :
    isAsciiBlank c = false := by
  simp only [isAsciiDigit, Bool.and_eq_true, decide_eq_true_eq] at h
  have hne : (c == ' ') = false := by
    rw [beq_eq_false_iff_ne]
    rintro rfl
    exact absurd h.1 (by decide)
  rw [isAsciiBlank, hne, Bool.false_or, Bool.and_eq_false_iff, decide_eq_false_iff_not,
    decide_eq_false_iff_not]
  omega

theorem asciiForm?_digits {cs : List Char} (h : AreDigits cs) : asciiForm? cs = some cs := by
  refine if_pos (List.all_eq_true.2 fun c hc => ?_)
  have hd := h c hc
  simp only [isAsciiDigit, Bool.and_eq_true, decide_eq_true_eq] at hd
  exact decide_eq_true (by omega)

theorem dropWhile_isAsciiBlank {cs : List Char} (h : AreDigits cs) :
    cs.dropWhile isAsciiBlank = cs := by
  cases cs with
  | nil => rfl
  | cons c cs =>
    refine List.dropWhile_cons_of_neg ?_
    rw [not_isAsciiBlank_of_isAsciiDigit (h c List.mem_cons_self)]
    exact Bool.false_ne_true

theorem trim_digits {cs : List Char} (h : AreDigits cs) : trim cs = cs := by
  have hr : AreDigits cs.reverse := fun c hc => h c (List.mem_reverse.1 hc)
  rw [trim, dropWhile_isAsciiBlank h, dropWhile_isAsciiBlank hr, List.reverse_reverse]

theorem dropUnderscores?_digits {cs : List Char} (h : AreDigits cs) (b : Bool) :
    dropUnderscores? b cs = some cs := by
  induction cs generalizing b with
  | nil => rfl
  | cons c cs ih =>
    have hc := h c List.mem_cons_self
    have hne : c ≠ '_' := by
      rintro rfl
      exact absurd hc (by decide)
    rw [dropUnderscores?, ih fun d hd => h d (List.mem_cons_of_mem c hd)]
    · rfl
    · exact hne

theorem readSign_digits {cs : List Char} (h : AreDigits cs) : readSign cs = (false, cs) := by
  cases cs with
  | nil => rfl
  | cons c cs =>
    have hc := h c List.mem_cons_self
    unfold readSign
    split
    · next heq =>
      cases heq
      exact absurd hc (by decide)
    · next heq =>
      cases heq
      exact absurd hc (by decide)
    · rfl

theorem readDecimal?_digits {cs : List Char} (h : AreDigits cs) (hne : cs ≠ []) :
    readDecimal? cs = some ⟨ofDigits cs, 0⟩ := by
  have ht : cs.takeWhile isAsciiDigit = cs := List.takeWhile_eq_self_iff.2 h
  have hd : cs.dropWhile isAsciiDigit = [] := List.dropWhile_eq_nil_iff.2 h
  have he : cs.isEmpty = false := List.isEmpty_eq_false_iff.2 hne
  rw [readDecimal?, hd, ht]
  simp only [he, Bool.false_and, Bool.false_eq_true, if_false, List.append_nil, readExponent?]
  rfl

theorem readFloat?_digits {cs : List Char} (h : AreDigits cs) (hne : cs ≠ []) :
    readFloat? (String.ofList cs) = some (Decimal.toFloat ⟨ofDigits cs, 0⟩) := by
  rw [readFloat?, String.toList_ofList, asciiForm?_digits h]
  simp only [Option.bind_eq_bind, Option.bind_some, trim_digits h, dropUnderscores?_digits h,
    readSign_digits h, readDecimal?_digits h hne]
  rfl

/-! ## Texts that start without a sign -/

/-- A digit from `0` to `9` or a point stands in front. -/
def StartsUnsigned (cs : List Char) : Prop :=
  ∃ c, cs.head? = some c ∧ (c = '.' ∨ isAsciiDigit c = true)

/-- The digits of all scripts but one lie outside ASCII. -/
theorem isAsciiDigit_of_isDigit {c : Char} (h : isDigit c = true) (hc : c.toNat < 128) :
    isAsciiDigit c = true := by
  have hzeros : ∀ z ∈ zeros, z = 48 ∨ 128 ≤ z := by decide
  have hfigures : ∀ r ∈ figures, 128 ≤ r.1 := by decide
  rcases Bool.or_eq_true_iff.1 h with hd | hf
  · rw [isDecimal, decimalValue?, Option.isSome_map, List.find?_isSome] at hd
    obtain ⟨z, hz, hin⟩ := hd
    simp only [Bool.and_eq_true, decide_eq_true_eq] at hin
    simp only [isAsciiDigit, Bool.and_eq_true, decide_eq_true_eq]
    rcases hzeros z hz with rfl | hge <;> omega
  · obtain ⟨r, hr, hle, hge⟩ := inRanges_iff.1 hf
    have := hfigures r hr
    omega

theorem isAsciiDigit_ofNat {n : Nat} (hn : n < 10) : isAsciiDigit (Char.ofNat (48 + n)) = true := by
  have hall : ∀ i : Fin 10, isAsciiDigit (Char.ofNat (48 + i)) = true := by decide
  exact hall ⟨n, hn⟩

theorem asciiChar?_unsigned {c d : Char} (hb : isBlank c = false)
    (hc : c = '.' ∨ isDigit c = true) (h : asciiChar? c = some d) :
    d = '.' ∨ isAsciiDigit d = true := by
  unfold asciiChar? at h
  split at h
  · next hlt =>
    cases h
    exact hc.imp_right fun hd => isAsciiDigit_of_isDigit hd (by omega)
  · rw [hb] at h
    obtain ⟨n, hn, rfl⟩ := Option.map_eq_some_iff.1 h
    exact .inr (isAsciiDigit_ofNat (decimalValue?_lt hn))

theorem asciiForm?_unsigned {c : Char} {cs ds : List Char} (hb : isBlank c = false)
    (hc : c = '.' ∨ isDigit c = true) (h : asciiForm? (c :: cs) = some ds) : StartsUnsigned ds := by
  unfold asciiForm? at h
  split at h
  · next hall =>
    cases h
    have hlt : c.toNat < 128 := of_decide_eq_true (List.all_eq_true.1 hall c List.mem_cons_self)
    refine ⟨c, rfl, hc.imp_right fun hd => isAsciiDigit_of_isDigit hd hlt⟩
  · rw [List.mapM_cons] at h
    simp only [Option.bind_eq_bind, Option.bind_eq_some_iff] at h
    obtain ⟨d, hd, rest, -, h⟩ := h
    cases h
    exact ⟨d, rfl, asciiChar?_unsigned hb hc hd⟩

theorem not_isAsciiBlank {c : Char} (h : c = '.' ∨ isAsciiDigit c = true) :
    isAsciiBlank c = false := by
  rcases h with rfl | hd
  · decide
  · exact not_isAsciiBlank_of_isAsciiDigit hd

namespace StartsUnsigned

variable {cs ds : List Char}

theorem trim (h : StartsUnsigned cs) :
    StartsUnsigned (trim cs) := by
  obtain ⟨c, hhead, hc⟩ := h
  obtain ⟨cs, rfl⟩ : ∃ rest, cs = c :: rest := by
    cases cs with
    | nil => cases hhead
    | cons c' rest =>
      cases hhead
      exact ⟨rest, rfl⟩
  have hb := not_isAsciiBlank hc
  refine ⟨c, ?_, hc⟩
  rw [Number.trim, List.dropWhile_cons_of_neg (Bool.eq_false_iff.1 hb), List.reverse_cons,
    List.dropWhile_append]
  split
  · rw [List.dropWhile_cons_of_neg (Bool.eq_false_iff.1 hb)]
    rfl
  · rw [List.reverse_append]
    rfl

theorem dropUnderscores? {b : Bool} (h : StartsUnsigned cs)
    (hds : dropUnderscores? b cs = some ds) : StartsUnsigned ds := by
  obtain ⟨c, hhead, hc⟩ := h
  have hne : c ≠ '_' := by
    rintro rfl
    revert hc
    decide
  cases cs with
  | nil => cases hhead
  | cons c' cs =>
    cases hhead
    rw [Number.dropUnderscores?] at hds
    · obtain ⟨rest, -, rfl⟩ := Option.map_eq_some_iff.1 hds
      exact ⟨c, rfl, hc⟩
    · exact hne

theorem readSign (h : StartsUnsigned cs) :
    readSign cs = (false, cs) := by
  obtain ⟨c, hhead, hc⟩ := h
  unfold Number.readSign
  split
  · cases hhead
    exact absurd hc (by decide)
  · cases hhead
    exact absurd hc (by decide)
  · rfl

end StartsUnsigned

/-! ## The sign of what is read -/

theorem isNegative_of_readWord? {cs : List Char} {x : Float} (h : readWord? cs = some x) :
    isNegative x = false := by
  unfold readWord? at h
  simp only at h
  split at h
  · cases h
    decide
  split at h
  · cases h
    decide
  · cases h

/-- **What is read from a text that starts with a digit or a point has no minus sign.** -/
theorem isNegative_of_readFloat? {c : Char} {cs : List Char} {x : Float} (hb : isBlank c = false)
    (hc : c = '.' ∨ isDigit c = true) (h : readFloat? (String.ofList (c :: cs)) = some x) :
    isNegative x = false := by
  unfold readFloat? at h
  rw [String.toList_ofList] at h
  simp only [Option.bind_eq_bind, Option.bind_eq_some_iff] at h
  obtain ⟨ascii, hascii, plain, hplain, h⟩ := h
  have hstart := ((asciiForm?_unsigned hb hc hascii).trim).dropUnderscores? hplain
  rw [hstart.readSign] at h
  simp only [Bool.false_eq_true, if_false] at h
  split at h
  · cases h
    exact Decimal.isNegative_toFloat _
  · obtain ⟨y, hy, h⟩ := Option.bind_eq_some_iff.1 h
    cases h
    exact isNegative_of_readWord? hy

set_option maxRecDepth 4000 in
/-- No unit has a negative factor. -/
theorem isNegative_factor {name : String} {unit : PhysicalUnit}
    (h : PhysicalUnit.find? name = some unit) : isNegative unit.factor = false := by
  have hall : ∀ u ∈ PhysicalUnit.all, isNegative u.factor = false := by
    decide
  exact hall unit (List.mem_of_find?_eq_some h)

theorem isNegative_toSI {name : String} {unit : PhysicalUnit} {x : Float}
    (h : PhysicalUnit.find? name = some unit) (hx : isNegative x = false) :
    isNegative (unit.toSI x) = false :=
  isNegative_mul hx (isNegative_factor h)

end ModelInputs.Number
