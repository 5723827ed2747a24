import ModelInputs.Expression.Token
import ModelInputs.Proofs.Number.Exact
import ModelInputs.Proofs.Number.Reading

/-!
# Numbers as they are written

A finite number without a minus sign is written as digits, with a point and digits or an exponent
behind them where it has to be. Such a text is taken as a whole where a number is looked for, and a
number that is read back from its full text is read back from its plain one.

* `Numeral.IsProper`: digits where digits have to be, with **`exists_numeral`**: every number is
  written so;
* **`readFloat?_plainText`**: the plain text is read back if the full one is;
* `EndsNumber`: the text does not go on with a number, **`Numeral.IsProper.numberExtent_append`**: a
  written number is taken up to its end.
-/

namespace ModelInputs.Number

open Text

/-! ## Written numbers -/

theorem areDigits_replicate (n : Nat) : AreDigits (List.replicate n '0') := by
  intro c hc
  rw [List.eq_of_mem_replicate hc]
  decide

/-- A written number has digits in front of its point, and digits in its exponent if it has one. -/
structure Numeral.IsProper (n : Numeral) : Prop where
  whole_ne_nil : n.whole ≠ []
  whole : AreDigits n.whole
  fraction : ∀ ds, n.fraction = some ds → AreDigits ds
  exponent : ∀ sign ds, n.exponent = some (sign, ds) →
    (sign = '+' ∨ sign = '-') ∧ ds ≠ [] ∧ AreDigits ds

theorem exponentDigits_ne_nil (n : Nat) : exponentDigits n ≠ [] := by
  unfold exponentDigits
  split
  · exact List.cons_ne_nil _ _
  · exact natDigits_ne_nil n

theorem areDigits_exponentDigits (n : Nat) : AreDigits (exponentDigits n) := by
  unfold exponentDigits
  split
  · exact List.forall_mem_cons.2 ⟨by decide, areDigits_natDigits n⟩
  · exact areDigits_natDigits n

theorem Decimal.numeral_isProper (d : Decimal) : d.numeral.IsProper := by
  have hne := natDigits_ne_nil d.digits
  have hds := areDigits_natDigits d.digits
  have hlen : 0 < (natDigits d.digits).length := List.length_pos_iff.2 hne
  unfold Decimal.numeral
  simp only
  split
  · next hpos =>
    split
    · refine ⟨List.cons_ne_nil _ _, areDigits_zero, ?_, nofun⟩
      rintro _ ⟨⟩
      exact (areDigits_replicate _).append hds
    split
    · refine ⟨List.append_ne_nil_of_left_ne_nil hne _, hds.append (areDigits_replicate _), ?_,
        nofun⟩
      rintro _ ⟨⟩
      exact areDigits_zero
    · refine ⟨?_, hds.take _, ?_, nofun⟩
      · rw [← List.length_pos_iff, List.length_take]
        omega
      · rintro _ ⟨⟩
        exact hds.drop _
  · refine ⟨?_, hds.take _, ?_, ?_⟩
    · rw [← List.length_pos_iff, List.length_take]
      omega
    · intro ds h
      split at h
      · cases h
      · cases h
        exact hds.drop _
    · rintro _ _ ⟨⟩
      refine ⟨?_, exponentDigits_ne_nil _, areDigits_exponentDigits _⟩
      split
      · exact .inr rfl
      · exact .inl rfl

theorem natDigits_isProper (n : Nat) : Numeral.IsProper ⟨natDigits n, none, none⟩ :=
  ⟨natDigits_ne_nil n, areDigits_natDigits n, nofun, nofun⟩

/-! ## The text of a number -/

variable {x : Float}

theorem isNaN_of_isFinite (hx : x.isFinite = true) : x.isNaN = false := by
  have hf : x.toModel.unpack.isFinite = true := hx
  show x.toModel.unpack.isNaN = false
  cases h : x.toModel.unpack with
  | notANumber =>
    rw [h] at hf
    cases hf
  | infinity s => rfl
  | zero s => rfl
  | finite s m e hm => rfl

theorem isInf_of_isFinite (hx : x.isFinite = true) : x.isInf = false := by
  have hf : x.toModel.unpack.isFinite = true := hx
  show x.toModel.unpack.isInf = false
  cases h : x.toModel.unpack with
  | notANumber => rfl
  | infinity s =>
    rw [h] at hf
    cases hf
  | zero s => rfl
  | finite s m e hm => rfl

theorem plainText_of_isWhole (hx : x.isFinite = true) (hn : isNegative x = false)
    (hw : isWhole x = true) (hlt : (Binary.ofFloat x).whole < 10 ^ (15 : Nat)) :
    plainText x = Numeral.text ⟨natDigits (Binary.ofFloat x).whole, none, none⟩ := by
  have ht : truncate x = ((Binary.ofFloat x).whole : Int) := by
    rw [truncate, hn]
    rfl
  rw [plainText, isNaN_of_isFinite hx, isInf_of_isFinite hx, hw, decide_eq_true hlt, ht]
  show toString ((Binary.ofFloat x).whole) = _
  rw [Nat.toString_eq_ofList_toDigits, Numeral.text, Numeral.chars, List.append_nil,
    List.append_nil]
  rfl

theorem plainText_of_not_isWhole (hx : x.isFinite = true)
    (hw : ¬ (isWhole x = true ∧ (Binary.ofFloat x).whole < 10 ^ (15 : Nat))) :
    plainText x = fullText x := by
  rw [plainText, isNaN_of_isFinite hx, isInf_of_isFinite hx]
  exact if_neg fun h => hw ((Bool.and_eq_true_iff.1 h).imp_right of_decide_eq_true)

theorem fullText_eq (hx : x.isFinite = true) (hn : isNegative x = false) :
    fullText x = (Binary.ofFloat x).shortest.numeral.text := by
  rw [fullText, isNaN_of_isFinite hx, isInf_of_isFinite hx, signText, hn]
  exact String.empty_append

/-- **A finite number without a minus sign is written properly.** -/
theorem exists_numeral (hx : x.isFinite = true) (hn : isNegative x = false) :
    ∃ n : Numeral, n.IsProper ∧ plainText x = n.text := by
  by_cases hw : isWhole x = true ∧ (Binary.ofFloat x).whole < 10 ^ (15 : Nat)
  · exact ⟨_, natDigits_isProper _, plainText_of_isWhole hx hn hw.1 hw.2⟩
  · have htext := (plainText_of_not_isWhole hx hw).trans (fullText_eq hx hn)
    exact ⟨_, Decimal.numeral_isProper _, htext⟩

/-- **Plain texts read back where full ones do.** -/
theorem readFloat?_plainText (hx : x.isFinite = true) (hn : isNegative x = false)
    (hr : readFloat? (fullText x) = some x) : readFloat? (plainText x) = some x := by
  by_cases hw : isWhole x = true ∧ (Binary.ofFloat x).whole < 10 ^ (15 : Nat)
  · have hds := areDigits_natDigits (Binary.ofFloat x).whole
    rw [plainText_of_isWhole hx hn hw.1 hw.2, Numeral.text, Numeral.chars, List.append_nil,
      List.append_nil, readFloat?_digits hds (natDigits_ne_nil _), ofDigits_natDigits,
      Decimal.toFloat_whole hx hn hw.1 hw.2]
  · rw [plainText_of_not_isWhole hx hw]
    exact hr

/-! ## The extent of a number -/

open Token

/-- The text does not go on with a number. -/
def EndsNumber (cs : List Char) : Prop :=
  ∀ c ∈ cs.head?, isDigit c = false ∧ c ≠ '.' ∧ c ≠ 'e' ∧ c ≠ 'E'

/-- A run of characters ends where one that is not of the kind follows. -/
theorem takeWhile_append_of_head {p : Char → Bool} {cs rest : List Char}
    (h : ∀ c ∈ cs, p c = true) (hr : ∀ c ∈ rest.head?, p c = false) :
    (cs ++ rest).takeWhile p = cs := by
  rw [List.takeWhile_append_of_pos h]
  cases rest with
  | nil => rw [List.takeWhile_nil, List.append_nil]
  | cons c rest =>
    rw [List.takeWhile_cons_of_neg (Bool.eq_false_iff.1 (hr c rfl)), List.append_nil]

theorem dropWhile_append_of_head {p : Char → Bool} {cs rest : List Char}
    (h : ∀ c ∈ cs, p c = true) (hr : ∀ c ∈ rest.head?, p c = false) :
    (cs ++ rest).dropWhile p = rest := by
  rw [List.dropWhile_append_of_pos h]
  cases rest with
  | nil => rfl
  | cons c rest => exact List.dropWhile_cons_of_neg (Bool.eq_false_iff.1 (hr c rfl))

theorem takeWhile_isDigit {ds rest : List Char} (h : AreDigits ds)
    (hr : ∀ c ∈ rest.head?, isDigit c = false) : (ds ++ rest).takeWhile isDigit = ds :=
  takeWhile_append_of_head (fun c hc => isDigit_of_isAsciiDigit (h c hc)) hr

theorem dropWhile_isDigit {ds rest : List Char} (h : AreDigits ds)
    (hr : ∀ c ∈ rest.head?, isDigit c = false) : (ds ++ rest).dropWhile isDigit = rest :=
  dropWhile_append_of_head (fun c hc => isDigit_of_isAsciiDigit (h c hc)) hr

theorem decimalExtent_whole {ds rest : List Char} (h : AreDigits ds)
    (hr : ∀ c ∈ rest.head?, isDigit c = false ∧ c ≠ '.') :
    decimalExtent (ds ++ rest) = (ds, rest) := by
  have hd : ∀ c ∈ rest.head?, isDigit c = false := fun c hc => (hr c hc).1
  unfold decimalExtent
  rw [takeWhile_isDigit h hd, dropWhile_isDigit h hd]
  split
  · exact absurd rfl (hr '.' rfl).2
  · rfl

theorem decimalExtent_fraction {ds fs rest : List Char} (h : AreDigits ds) (hf : AreDigits fs)
    (hr : ∀ c ∈ rest.head?, isDigit c = false) :
    decimalExtent (ds ++ '.' :: (fs ++ rest)) = (ds ++ '.' :: fs, rest) := by
  have hd : ∀ c ∈ ('.' :: (fs ++ rest)).head?, isDigit c = false := by
    rintro _ ⟨⟩
    decide
  unfold decimalExtent
  rw [takeWhile_isDigit h hd, dropWhile_isDigit h hd]
  simp only [takeWhile_isDigit hf hr, dropWhile_isDigit hf hr]

theorem numberExtent_of_decimalExtent {cs decimal rest : List Char}
    (h : decimalExtent cs = (decimal, rest)) (hr : EndsNumber rest) :
    numberExtent cs = .ok (decimal, rest) := by
  unfold numberExtent
  rw [h]
  cases rest with
  | nil => rfl
  | cons e rest =>
    obtain ⟨-, -, he, hE⟩ := hr e rfl
    exact if_neg (not_or.2 ⟨he, hE⟩)

theorem numberExtent_exponent {cs decimal ds rest : List Char} {sign : Char}
    (h : decimalExtent cs = (decimal, 'e' :: sign :: (ds ++ rest)))
    (hs : sign = '+' ∨ sign = '-') (hne : ds ≠ []) (hd : AreDigits ds) (hr : EndsNumber rest) :
    numberExtent cs = .ok (decimal ++ 'e' :: sign :: ds, rest) := by
  have hr' : ∀ c ∈ rest.head?, isDigit c = false := fun c hc => (hr c hc).1
  have he : ds.isEmpty = false := List.isEmpty_eq_false_iff.2 hne
  have hsign : signExtent (sign :: (ds ++ rest)) = ([sign], ds ++ rest) := if_pos hs
  unfold numberExtent
  rw [h]
  simp only [true_or, if_true, hsign, takeWhile_isDigit hd hr', dropWhile_isDigit hd hr', he]
  rw [List.append_assoc]
  rfl

/-- **A written number is read up to its end.** -/
theorem Numeral.IsProper.numberExtent_append {n : Numeral} (h : n.IsProper) {rest : List Char}
    (hr : EndsNumber rest) : numberExtent (n.chars ++ rest) = .ok (n.chars, rest) := by
  obtain ⟨whole, fraction, exponent⟩ := n
  have hrest : ∀ c ∈ rest.head?, isDigit c = false ∧ c ≠ '.' :=
    fun c hc => ⟨(hr c hc).1, (hr c hc).2.1⟩
  cases exponent with
  | none =>
    cases fraction with
    | none =>
      have := numberExtent_of_decimalExtent (decimalExtent_whole h.whole hrest) hr
      simpa [Numeral.chars] using this
    | some fs =>
      have := numberExtent_of_decimalExtent
        (decimalExtent_fraction h.whole (h.fraction fs rfl) fun c hc => (hr c hc).1) hr
      simpa [Numeral.chars] using this
  | some e =>
    obtain ⟨sign, ds⟩ := e
    obtain ⟨hs, hne, hds⟩ := h.exponent sign ds rfl
    have he : ∀ c ∈ ('e' :: sign :: (ds ++ rest)).head?, isDigit c = false ∧ c ≠ '.' := by
      rintro _ ⟨⟩
      decide
    cases fraction with
    | none =>
      have := numberExtent_exponent (decimalExtent_whole h.whole he) hs hne hds hr
      simpa [Numeral.chars] using this
    | some fs =>
      have := numberExtent_exponent
        (decimalExtent_fraction h.whole (h.fraction fs rfl) fun c hc => (he c hc).1) hs hne hds hr
      simpa [Numeral.chars] using this

end ModelInputs.Number
