import ModelInputs.Input.Quantity
import ModelInputs.Proofs.Number.Packing
import ModelInputs.Proofs.Number.Writing

/-!
# Numbers that are read from their plain texts

Inputs write numbers as plain texts. An infinity is spelled out, a whole number that is not large
has only digits, and other numbers have their full text; a minus sign stands in front of negative
ones. A number comes back from its plain text if it comes back from its full one, only that a
negative zero comes back as zero. Integers come back from their texts if they have no more digits
than integers may have.

* `SameNumber`: the same number, but for the sign of a zero;
* `IsWrittenNumber`: what the texts of numbers and integers look like;
* **`readPlainNumber?_plainText`**: numbers come back;
* **`readInt?_toString`**: integers come back, **`natAbs_lt_of_readInt?`**: those that were read.
-/

namespace ModelInputs.Number

open Float.Model (UnpackedFloat)
open Text

variable {x y r : Float}

/-! ## The same number -/

/-- The same number, but for the sign of a zero. -/
def SameNumber (x y : Float) : Prop :=
  y = x ∨ x = -0.0 ∧ y = 0.0

namespace SameNumber

theorem refl (x : Float) : SameNumber x x :=
  .inl rfl

theorem beq (h : SameNumber x y) (hx : x.isNaN = false) : (y == x) = true := by
  obtain rfl | ⟨rfl, rfl⟩ := h
  · exact beq_self hx
  · rfl

end SameNumber

/-- The sign of a zero does not show in a comparison. -/
theorem compare_zero (u : UnpackedFloat) :
    UnpackedFloat.compare (0.0 : Float).toModel.unpack u =
        UnpackedFloat.compare (-0.0 : Float).toModel.unpack u ∧
      UnpackedFloat.compare u (0.0 : Float).toModel.unpack =
        UnpackedFloat.compare u (-0.0 : Float).toModel.unpack := by
  have hzero : (0.0 : Float).toModel.unpack = .zero .positive := rfl
  have hminus : (-0.0 : Float).toModel.unpack = .zero .negative := rfl
  rw [hzero, hminus]
  cases u with
  | notANumber | zero s => exact ⟨rfl, rfl⟩
  | infinity s => cases s <;> exact ⟨rfl, rfl⟩
  | finite s m e h => cases s <;> exact ⟨rfl, rfl⟩

namespace SameNumber

theorem lt_iff (h : SameNumber x y) : y < r ↔ x < r := by
  obtain rfl | ⟨rfl, rfl⟩ := h
  · exact Iff.rfl
  · rw [lt_iff_unpack, lt_iff_unpack, UnpackedFloat.lt, UnpackedFloat.lt, (compare_zero _).1]

theorem gt_iff (h : SameNumber x y) : y > r ↔ x > r := by
  obtain rfl | ⟨rfl, rfl⟩ := h
  · exact Iff.rfl
  · rw [gt_iff_lt, gt_iff_lt, lt_iff_unpack, lt_iff_unpack, UnpackedFloat.lt, UnpackedFloat.lt,
      (compare_zero _).2]

theorem le_iff (h : SameNumber x y) : y ≤ r ↔ x ≤ r := by
  obtain rfl | ⟨rfl, rfl⟩ := h
  · exact Iff.rfl
  · rw [le_iff_unpack, le_iff_unpack, UnpackedFloat.le, UnpackedFloat.le, (compare_zero _).1]

theorem ge_iff (h : SameNumber x y) : r ≤ y ↔ r ≤ x := by
  obtain rfl | ⟨rfl, rfl⟩ := h
  · exact Iff.rfl
  · rw [le_iff_unpack, le_iff_unpack, UnpackedFloat.le, UnpackedFloat.le, (compare_zero _).2]

theorem isFinite_eq (h : SameNumber x y) : y.isFinite = x.isFinite := by
  obtain rfl | ⟨rfl, rfl⟩ := h
  · rfl
  · rfl

end SameNumber

/-! ## Digits behind a minus sign -/

/-- A text that has no blanks is not trimmed. -/
theorem trim_eq {cs : List Char} (h : ∀ c ∈ cs, isAsciiBlank c = false) : trim cs = cs := by
  have hdrop {ds : List Char} (h : ∀ c ∈ ds, isAsciiBlank c = false) :
      ds.dropWhile isAsciiBlank = ds := by
    cases ds with
    | nil => rfl
    | cons c ds => exact List.dropWhile_cons_of_neg (Bool.eq_false_iff.1 (h c (.head ds)))
  rw [trim, hdrop h, hdrop fun c hc => h c (List.mem_reverse.1 hc), List.reverse_reverse]

theorem asciiForm?_minus {cs : List Char} (h : AreDigits cs) :
    asciiForm? ('-' :: cs) = some ('-' :: cs) := by
  refine if_pos (List.all_eq_true.2 fun c hc => ?_)
  obtain rfl | hc := List.mem_cons.1 hc
  · decide
  · have hd := h c hc
    simp only [isAsciiDigit, Bool.and_eq_true, decide_eq_true_eq] at hd
    exact decide_eq_true (by omega)

theorem trim_minus {cs : List Char} (h : AreDigits cs) : trim ('-' :: cs) = '-' :: cs :=
  trim_eq (List.forall_mem_cons.2
    ⟨by decide, fun c hc => not_isAsciiBlank_of_isAsciiDigit (h c hc)⟩)

theorem readFloat?_minus {cs : List Char} (h : AreDigits cs) (hne : cs ≠ []) :
    readFloat? (String.ofList ('-' :: cs)) = some (-(Decimal.toFloat ⟨ofDigits cs, 0⟩)) := by
  have hdrop : dropUnderscores? false ('-' :: cs) = some ('-' :: cs) := by
    rw [dropUnderscores?, dropUnderscores?_digits h]
    · rfl
    · decide
  rw [readFloat?, String.toList_ofList, asciiForm?_minus h]
  simp only [Option.bind_eq_bind, Option.bind_some, trim_minus h, hdrop, readSign,
    readDecimal?_digits h hne]
  rfl

/-! ## Plain texts of negative numbers -/

theorem isWhole_neg (hx : x.isFinite = true) : isWhole (-x) = isWhole x := by
  rw [isWhole, isWhole, isFinite_neg, ofFloat_neg (isNaN_of_isFinite hx)]

theorem plainText_negativeZero : plainText (-0.0) = "0" := by
  decide +kernel

/-- A whole number whose whole part is zero is zero. -/
theorem Binary.mantissa_eq_zero {b : Binary} (hw : b.isWhole = true) (h : b.whole = 0) :
    b.mantissa = 0 := by
  have hmod : b.mantissa % 2 ^ (-b.exponent).toNat = 0 := beq_iff_eq.1 hw
  by_cases he : 0 ≤ b.exponent
  · have hz : (-b.exponent).toNat = 0 := by omega
    rw [Binary.whole, hz, Nat.pow_zero, Nat.div_one] at h
    exact (Nat.mul_eq_zero.1 h).resolve_right (Nat.two_pow_pos _).ne'
  · have hz : b.exponent.toNat = 0 := by omega
    rw [Binary.whole, hz, Nat.pow_zero, Nat.mul_one] at h
    have := Nat.div_add_mod b.mantissa (2 ^ (-b.exponent).toNat)
    rw [h, hmod, Nat.mul_zero] at this
    exact this.symm

/-- The text of a negative number has a minus sign in front of that of the number without it; only
a negative zero is written as zero. -/
theorem plainText_of_isNegative (hx : x.isFinite = true) (hn : isNegative x = true)
    (hzero : x ≠ -0.0) : plainText x = "-" ++ plainText (-x) := by
  have hnan := isNaN_of_isFinite hx
  have hx' : (-x).isFinite = true := (isFinite_neg x).trans hx
  have hn' : isNegative (-x) = false := by rw [isNegative_neg hnan, hn]; rfl
  have hof := ofFloat_neg hnan
  by_cases hw : isWhole x = true ∧ (Binary.ofFloat x).whole < 10 ^ (15 : Nat)
  · have hpos : (Binary.ofFloat x).whole ≠ 0 := by
      intro h
      refine hzero ?_
      have hmant := Binary.mantissa_eq_zero (Bool.and_eq_true_iff.1 hw.1).2 h
      rw [← hof] at hmant
      rw [← neg_neg x, eq_zero_of_mantissa_eq_zero hn' hmant]
    have ht : truncate x = -((Binary.ofFloat x).whole : Int) := by
      rw [truncate, hn]
      rfl
    rw [plainText_of_isWhole hx' hn' ((isWhole_neg hx).trans hw.1) (hof.symm ▸ hw.2), hof,
      plainText, hnan, isInf_of_isFinite hx, hw.1, decide_eq_true hw.2, ht]
    obtain ⟨n, hn⟩ := Nat.exists_eq_succ_of_ne_zero hpos
    rw [hn]
    show "-" ++ toString (n + 1) = _
    rw [Nat.toString_eq_ofList_toDigits, Numeral.text, Numeral.chars, List.append_nil,
      List.append_nil]
    rfl
  · rw [plainText_of_not_isWhole hx hw, plainText_of_not_isWhole hx', fullText_eq hx' hn', hof,
      fullText, hnan, isInf_of_isFinite hx, signText, hn]
    · rfl
    · rw [isWhole_neg hx, hof]
      exact hw

/-- **A finite number comes back from its plain text**, if it does so from its full one. -/
theorem readFloat?_plainText_same (hx : x.isFinite = true)
    (hread : readFloat? (fullText x) = some x) :
    ∃ y, readFloat? (plainText x) = some y ∧ SameNumber x y := by
  cases hn : isNegative x with
  | false => exact ⟨x, readFloat?_plainText hx hn hread, .refl x⟩
  | true =>
    by_cases hzero : x = -0.0
    · refine ⟨0.0, ?_, .inr ⟨hzero, rfl⟩⟩
      rw [hzero, plainText_negativeZero]
      decide +kernel
    have hnan := isNaN_of_isFinite hx
    have hx' : (-x).isFinite = true := (isFinite_neg x).trans hx
    have hn' : isNegative (-x) = false := by rw [isNegative_neg hnan, hn]; rfl
    have hof := ofFloat_neg hnan
    refine ⟨x, ?_, .refl x⟩
    by_cases hw : isWhole x = true ∧ (Binary.ofFloat x).whole < 10 ^ (15 : Nat)
    · have hw' : isWhole (-x) = true := (isWhole_neg hx).trans hw.1
      have hlt : (Binary.ofFloat (-x)).whole < 10 ^ (15 : Nat) := hof.symm ▸ hw.2
      have hds := areDigits_natDigits (Binary.ofFloat (-x)).whole
      have htext : "-" ++ Numeral.text ⟨natDigits (Binary.ofFloat (-x)).whole, none, none⟩ =
          String.ofList ('-' :: natDigits (Binary.ofFloat (-x)).whole) := by
        rw [Numeral.text, Numeral.chars, List.append_nil, List.append_nil, ← String.toList_inj]
        simp
      rw [plainText_of_isNegative hx hn hzero, plainText_of_isWhole hx' hn' hw' hlt, htext,
        readFloat?_minus hds (natDigits_ne_nil _), ofDigits_natDigits,
        Decimal.toFloat_whole hx' hn' hw' hlt, neg_neg]
    · rw [plainText_of_not_isWhole hx hw]
      exact hread

/-! ## What texts of numbers look like -/

/-- The characters of numbers besides digits. -/
def marks : List Char :=
  ['.', 'e', '+', '-', 'I', 'n', 'f', 'i', 't', 'y']

/-- The text starts with a digit, a minus sign or the letter of an infinity, and goes on with
characters of numbers. -/
structure IsWrittenNumber (s : String) : Prop where
  starts : ∃ c ∈ s.toList.head?, isAsciiDigit c = true ∨ c = '-' ∨ c = 'I'
  chars : ∀ c ∈ s.toList, isAsciiDigit c = true ∨ c ∈ marks

theorem Numeral.IsProper.isWrittenNumber {n : Numeral} (h : n.IsProper) :
    IsWrittenNumber n.text ∧ IsWrittenNumber ("-" ++ n.text) := by
  have hchars : ∀ c ∈ n.chars, isAsciiDigit c = true ∨ c ∈ marks := by
    obtain ⟨whole, fraction, exponent⟩ := n
    intro c hc
    rw [Numeral.chars, List.mem_append, List.mem_append] at hc
    obtain (hc | hc) | hc := hc
    · exact .inl (h.whole c hc)
    · cases fraction with
      | none => cases hc
      | some ds =>
        obtain rfl | hc := List.mem_cons.1 hc
        · exact .inr (by decide)
        · exact .inl (h.fraction ds rfl c hc)
    · cases exponent with
      | none => cases hc
      | some e =>
        obtain ⟨sign, ds⟩ := e
        obtain ⟨hs, -, hds⟩ := h.exponent sign ds rfl
        obtain rfl | hc := List.mem_cons.1 hc
        · exact .inr (by decide)
        obtain rfl | hc := List.mem_cons.1 hc
        · obtain rfl | rfl := hs <;> exact .inr (by decide)
        · exact .inl (hds c hc)
  have htext : n.text.toList = n.chars := String.toList_ofList
  have hminus : ("-" ++ n.text).toList = '-' :: n.chars := by
    rw [String.toList_append, htext]
    rfl
  constructor
  · obtain ⟨c, cs, hcs⟩ := List.exists_cons_of_ne_nil h.whole_ne_nil
    refine ⟨⟨c, ?_, .inl (h.whole c (hcs ▸ .head cs))⟩, ?_⟩
    · rw [htext, Numeral.chars, hcs]
      rfl
    · rw [htext]
      exact hchars
  · refine ⟨⟨'-', ?_, .inr (.inl rfl)⟩, ?_⟩
    · rw [hminus]
      rfl
    · rw [hminus]
      exact List.forall_mem_cons.2 ⟨.inr (by decide), hchars⟩

/-- A finite number is written as a numeral, perhaps behind a minus sign. -/
theorem exists_numeral_of_isFinite (hx : x.isFinite = true) :
    ∃ n : Numeral, n.IsProper ∧ (plainText x = n.text ∨ plainText x = "-" ++ n.text) := by
  cases hn : isNegative x with
  | false =>
    obtain ⟨n, hproper, htext⟩ := exists_numeral hx hn
    exact ⟨n, hproper, .inl htext⟩
  | true =>
    by_cases hzero : x = -0.0
    · refine ⟨_, natDigits_isProper 0, .inl ?_⟩
      rw [hzero, plainText_negativeZero]
      rfl
    have hx' : (-x).isFinite = true := (isFinite_neg x).trans hx
    have hn' : isNegative (-x) = false := by rw [isNegative_neg (isNaN_of_isFinite hx), hn]; rfl
    obtain ⟨n, hproper, htext⟩ := exists_numeral hx' hn'
    exact ⟨n, hproper, .inr ((plainText_of_isNegative hx hn hzero).trans (congrArg _ htext))⟩

theorem plainText_of_isInf (hx : x.isInf = true) :
    x = infinity ∧ plainText x = "Infinity" ∨ x = -infinity ∧ plainText x = "-Infinity" := by
  obtain ⟨rfl, -⟩ | ⟨rfl, -⟩ := eq_infinity hx
  · exact .inl ⟨rfl, rfl⟩
  · exact .inr ⟨rfl, rfl⟩

/-- **Plain texts look like numbers.** -/
theorem isWrittenNumber_plainText (hx : x.isNaN = false) : IsWrittenNumber (plainText x) := by
  cases hf : x.isFinite with
  | true =>
    obtain ⟨n, hproper, htext | htext⟩ := exists_numeral_of_isFinite hf
    · rw [htext]
      exact hproper.isWrittenNumber.1
    · rw [htext]
      exact hproper.isWrittenNumber.2
  | false =>
    obtain ⟨-, htext⟩ | ⟨-, htext⟩ := plainText_of_isInf (isInf_of_not_isFinite hx hf)
    · have hmarks : "Infinity".toList ⊆ marks := by decide
      rw [htext]
      exact ⟨⟨'I', rfl, by decide⟩, fun c hc => .inr (hmarks hc)⟩
    · have hmarks : "-Infinity".toList ⊆ marks := by decide
      rw [htext]
      exact ⟨⟨'-', rfl, by decide⟩, fun c hc => .inr (hmarks hc)⟩

/-- The text of a finite number is not that of an infinity. -/
theorem plainText_ne_infinity (hx : x.isFinite = true) :
    plainText x ≠ "Infinity" ∧ plainText x ≠ "-Infinity" := by
  obtain ⟨n, hproper, htext⟩ := exists_numeral_of_isFinite hx
  obtain ⟨c, cs, hcs⟩ := List.exists_cons_of_ne_nil hproper.whole_ne_nil
  have hc := hproper.whole c (hcs ▸ .head cs)
  have hhead : n.text.toList.head? = some c := by
    rw [Numeral.text, String.toList_ofList, Numeral.chars, hcs]
    rfl
  have hhead' : ("-" ++ n.text).toList.tail.head? = some c := by
    rw [String.toList_append]
    exact hhead
  have hhead'' : ("-" ++ n.text).toList.head? = some '-' := by
    rw [String.toList_append]
    rfl
  have hne : c ≠ 'I' ∧ c ≠ '-' := by
    constructor
    · rintro rfl
      exact absurd hc (by decide)
    · rintro rfl
      exact absurd hc (by decide)
  constructor
  · intro h
    obtain htext | htext := htext
    · rw [← htext, h] at hhead
      exact hne.1 (Option.some.inj hhead).symm
    · rw [← htext, h] at hhead''
      cases hhead''
  · intro h
    obtain htext | htext := htext
    · rw [← htext, h] at hhead
      exact hne.2 (Option.some.inj hhead).symm
    · rw [← htext, h] at hhead'
      exact hne.1 (Option.some.inj hhead').symm

/-- **A number comes back from its plain text**, if it is finite and comes back from its full one,
or is infinite. -/
theorem readPlainNumber?_plainText (hx : x.isNaN = false)
    (hread : x.isFinite = true → readFloat? (fullText x) = some x) :
    ∃ y, readPlainNumber? (plainText x) = .ok y ∧ SameNumber x y := by
  cases hf : x.isFinite with
  | true =>
    obtain ⟨y, hy, hsame⟩ := readFloat?_plainText_same hf (hread hf)
    obtain ⟨hpositive, hnegative⟩ := plainText_ne_infinity hf
    refine ⟨y, ?_, hsame⟩
    have hy' : y.isFinite = true := hsame.isFinite_eq.trans hf
    rw [readPlainNumber?, if_neg (by simpa using hpositive), if_neg (by simpa using hnegative), hy]
    exact if_pos hy'
  | false =>
    obtain ⟨rfl, htext⟩ | ⟨rfl, htext⟩ := plainText_of_isInf (isInf_of_not_isFinite hx hf)
    · exact ⟨_, by rw [htext]; rfl, .refl _⟩
    · exact ⟨_, by rw [htext]; rfl, .refl _⟩

/-! ## Numerals behind a minus sign -/

section Minus

variable {cs : List Char} (h : ∀ c ∈ cs, isAsciiDigit c = true ∨ c ∈ marks)
include h

theorem asciiForm?_marks : asciiForm? cs = some cs := by
  have hmarks : ∀ c ∈ marks, c.toNat < 128 := by simp [marks]
  refine if_pos (List.all_eq_true.2 fun c hc => decide_eq_true ?_)
  obtain hd | hm := h c hc
  · simp only [isAsciiDigit, Bool.and_eq_true, decide_eq_true_eq] at hd
    omega
  · exact hmarks c hm

theorem trim_marks : trim cs = cs := by
  have hmarks : ∀ c ∈ marks, isAsciiBlank c = false := by simp [marks, isAsciiBlank]
  refine trim_eq fun c hc => ?_
  obtain hd | hm := h c hc
  · exact not_isAsciiBlank_of_isAsciiDigit hd
  · exact hmarks c hm

theorem dropUnderscores?_marks (b : Bool) : dropUnderscores? b cs = some cs := by
  induction cs generalizing b with
  | nil => rfl
  | cons c cs ih =>
    obtain ⟨hc, hcs⟩ := List.forall_mem_cons.1 h
    have hne : c ≠ '_' := by
      rintro rfl
      revert hc
      decide
    rw [dropUnderscores?, ih hcs]
    · rfl
    · exact hne

end Minus

/-- A minus sign in front of a numeral turns the sign of what is read. -/
theorem readFloat?_minus_text {n : Numeral} (hn : n.IsProper) :
    readFloat? ("-" ++ n.text) = (readFloat? n.text).map (- ·) := by
  obtain ⟨hplain, hminus⟩ := hn.isWrittenNumber
  obtain ⟨c, cs, hcs⟩ := List.exists_cons_of_ne_nil hn.whole_ne_nil
  have htext : n.text.toList = n.chars := String.toList_ofList
  have hsigned : ("-" ++ n.text).toList = '-' :: n.chars := by
    rw [String.toList_append, htext]
    rfl
  have hstart : StartsUnsigned n.chars := by
    refine ⟨c, ?_, .inr (hn.whole c (hcs ▸ .head cs))⟩
    rw [Numeral.chars, hcs]
    rfl
  have hsign : readSign ('-' :: n.chars) = (true, n.chars) := rfl
  have hchars := htext ▸ hplain.chars
  have hchars' := hsigned ▸ hminus.chars
  rw [readFloat?, readFloat?, htext, hsigned, asciiForm?_marks hchars, asciiForm?_marks hchars']
  simp only [Option.bind_eq_bind, Option.bind_some, trim_marks hchars, trim_marks hchars',
    dropUnderscores?_marks hchars, dropUnderscores?_marks hchars', hstart.readSign, hsign]
  cases readDecimal? n.chars with
  | some d => rfl
  | none => cases readWord? n.chars <;> rfl

/-- A negative number that is read back from its full text is so without its minus sign. -/
theorem readFloat?_fullText_neg (hx : x.isFinite = true) (hn : isNegative x = true)
    (hread : readFloat? (fullText x) = some x) : readFloat? (fullText (-x)) = some (-x) := by
  have hnan := isNaN_of_isFinite hx
  have hn' : isNegative (-x) = false := by rw [isNegative_neg hnan, hn]; rfl
  have htext : fullText x = "-" ++ (Binary.ofFloat x).shortest.numeral.text := by
    rw [fullText, hnan, isInf_of_isFinite hx, signText, hn]
    rfl
  rw [htext, readFloat?_minus_text (Decimal.numeral_isProper _)] at hread
  obtain ⟨y, hy, hxy⟩ := Option.map_eq_some_iff.1 hread
  rw [fullText_eq ((isFinite_neg x).trans hx) hn', ofFloat_neg hnan, hy, ← hxy, neg_neg]

/-! ## Integers -/

theorem toString_intOfNat (n : Nat) : toString (n : Int) = String.ofList (natDigits n) := by
  show toString n = _
  rw [Nat.toString_eq_ofList_toDigits]
  rfl

theorem toString_negSucc (n : Nat) :
    toString (Int.negSucc n) = String.ofList ('-' :: natDigits (n + 1)) := by
  show "-" ++ toString (n + 1) = _
  rw [Nat.toString_eq_ofList_toDigits, ← String.toList_inj]
  simp [natDigits]

/-- Texts of integers look like numbers. -/
theorem isWrittenNumber_toString (n : Int) : IsWrittenNumber (toString n) := by
  cases n with
  | ofNat n =>
    have h := (natDigits_isProper n).isWrittenNumber.1
    rw [Numeral.text, Numeral.chars, List.append_nil, List.append_nil] at h
    exact (toString_intOfNat n).symm ▸ h
  | negSucc n =>
    have h := (natDigits_isProper (n + 1)).isWrittenNumber.2
    rw [Numeral.text, Numeral.chars, List.append_nil, List.append_nil] at h
    have htext : "-" ++ String.ofList (natDigits (n + 1)) = toString (Int.negSucc n) := by
      rw [toString_negSucc, ← String.toList_inj]
      simp
    exact htext ▸ h

theorem length_natDigits_le {n : Nat} (h : n < 10 ^ maxIntDigits) :
    (natDigits n).length ≤ maxIntDigits :=
  (Nat.length_toDigits_le_iff (by decide) (by decide)).2 h

/-- Digits that an integer may be read from. -/
theorem natDigits_passes {n : Nat} (h : n < 10 ^ maxIntDigits) :
    (!(natDigits n).isEmpty && (natDigits n).all isAsciiDigit &&
      decide ((natDigits n).length ≤ maxIntDigits)) = true := by
  have hempty : (natDigits n).isEmpty = false := List.isEmpty_eq_false_iff.2 (natDigits_ne_nil n)
  have hall : (natDigits n).all isAsciiDigit = true := List.all_eq_true.2 (areDigits_natDigits n)
  rw [hempty, hall, decide_eq_true (length_natDigits_le h)]
  rfl

/-- **An integer comes back from its text**, unless it has too many digits. -/
theorem readInt?_toString {n : Int} (h : n.natAbs < 10 ^ maxIntDigits) :
    readInt? (toString n) = some n := by
  cases n with
  | ofNat n =>
    have hds := areDigits_natDigits n
    show readInt? (toString (n : Int)) = _
    rw [toString_intOfNat, readInt?, String.toList_ofList, asciiForm?_digits hds,
      Option.bind_eq_bind, Option.bind_some, trim_digits hds, readSign_digits hds]
    dsimp only
    rw [dropUnderscores?_digits hds, Option.bind_some, natDigits_passes (n := n) h,
      ofDigits_natDigits]
    rfl
  | negSucc n =>
    have hds := areDigits_natDigits (n + 1)
    rw [toString_negSucc, readInt?, String.toList_ofList, asciiForm?_minus hds,
      Option.bind_eq_bind, Option.bind_some, trim_minus hds, readSign]
    dsimp only
    rw [dropUnderscores?_digits hds, Option.bind_some, natDigits_passes (n := n + 1) h,
      ofDigits_natDigits]
    rfl

theorem foldl_digits_lt {cs : List Char} (h : AreDigits cs) (n : Nat) :
    cs.foldl (fun n c => 10 * n + (c.toNat - 48)) n < (n + 1) * 10 ^ cs.length := by
  induction cs generalizing n with
  | nil =>
    rw [List.foldl_nil, List.length_nil, Nat.pow_zero, Nat.mul_one]
    exact Nat.lt_succ_self n
  | cons c cs ih =>
    have hc := h c (.head cs)
    simp only [isAsciiDigit, Bool.and_eq_true, decide_eq_true_eq] at hc
    have hle : 10 * n + (c.toNat - 48) + 1 ≤ (n + 1) * 10 := by omega
    rw [List.foldl_cons, List.length_cons]
    calc cs.foldl (fun n c => 10 * n + (c.toNat - 48)) (10 * n + (c.toNat - 48))
        < (10 * n + (c.toNat - 48) + 1) * 10 ^ cs.length :=
          ih (fun d hd => h d (.tail c hd)) _
      _ ≤ (n + 1) * 10 * 10 ^ cs.length := Nat.mul_le_mul_right _ hle
      _ = (n + 1) * 10 ^ (cs.length + 1) := by rw [Nat.pow_succ', Nat.mul_assoc]

/-- **An integer that was read has no more digits than integers may have.** -/
theorem natAbs_lt_of_readInt? {s : String} {n : Int} (h : readInt? s = some n) :
    n.natAbs < 10 ^ maxIntDigits := by
  unfold readInt? at h
  obtain ⟨cs, -, h⟩ := Option.bind_eq_some_iff.1 h
  obtain ⟨ds, -, h⟩ := Option.bind_eq_some_iff.1 h
  obtain ⟨_, hguard, h⟩ := Option.bind_eq_some_iff.1 h
  have hdigits :
      (!ds.isEmpty && ds.all isAsciiDigit && decide (ds.length ≤ maxIntDigits)) = true := by
    unfold guard at hguard
    split at hguard
    · assumption
    · cases hguard
  rw [Bool.and_eq_true, Bool.and_eq_true, decide_eq_true_eq] at hdigits
  have hds : AreDigits ds := List.all_eq_true.1 hdigits.1.2
  have hlt : ofDigits ds < 10 ^ maxIntDigits := by
    have hfold := foldl_digits_lt hds 0
    rw [Nat.zero_add, Nat.one_mul] at hfold
    exact Nat.lt_of_lt_of_le hfold (Nat.pow_le_pow_right (by decide) hdigits.2)
  have hn : n = -(ofDigits ds : Int) ∨ n = (ofDigits ds : Int) := by
    rw [← Option.some.inj h]
    exact (ite_eq_or_eq ..)
  obtain rfl | rfl := hn
  · rw [Int.natAbs_neg, Int.natAbs_natCast]
    exact hlt
  · rw [Int.natAbs_natCast]
    exact hlt

end ModelInputs.Number
