import ModelInputs.Proofs.Number.Packing

/-!
# Exact operations on numbers

A finite number without a minus sign is unpacked to its mantissa and exponent and packed again. So a
whole number that is not large is read back from its digits: it is a mantissa in the form of numbers
with zeros behind it, which rounding takes off.

* `unpack_eq`, `pack_eq`: a finite number is its mantissa and its exponent;
* `IsCanonical.exists_whole`: a whole number over a power of two;
* **`Decimal.toFloat_whole`**: a whole number below `10 ^ 15` is the number nearest to itself.
-/

namespace ModelInputs.Number

open Float.Model (Format UnpackedFloat)
open Float.Model.UnpackedFloat

/-! ## Mantissa and exponent -/

/-- The biased exponent is not the one of the infinities. -/
theorem exponent_ne_of_isFinite {x : Float} (hx : x.isFinite = true) :
    x.toBits.toNat / 2 ^ (52 : Nat) % 2 ^ (11 : Nat) ≠ 2047 := by
  intro h
  have hones : @unpackExponent Format.binary64 x.toModel.toBits.toBitVec = -1#11 := by
    rw [← BitVec.toNat_inj, toNat_unpackExponent]
    exact h
  have hf : x.toModel.unpack.isFinite = true := hx
  unfold Float.Model.unpack UnpackedFloat.unpack at hf
  rw [if_pos hones] at hf
  split at hf <;> cases hf

variable {x : Float}

theorem ofFloat_of_exponent_eq_zero (hn : isNegative x = false)
    (he : x.toBits.toNat / 2 ^ (52 : Nat) = 0) :
    Binary.ofFloat x = ⟨x.toBits.toNat % 2 ^ (52 : Nat), -1074⟩ := by
  rw [Binary.ofFloat, Nat.mod_eq_of_lt (toBits_lt_of_not_isNegative hn)]
  exact if_pos he

theorem ofFloat_of_exponent_ne_zero (hn : isNegative x = false)
    (he : x.toBits.toNat / 2 ^ (52 : Nat) ≠ 0) :
    Binary.ofFloat x =
      ⟨2 ^ (52 : Nat) + x.toBits.toNat % 2 ^ (52 : Nat),
        (x.toBits.toNat / 2 ^ (52 : Nat) : Nat) - 1075⟩ := by
  rw [Binary.ofFloat, Nat.mod_eq_of_lt (toBits_lt_of_not_isNegative hn)]
  exact if_neg he

theorem ofFloat_isCanonical (hx : x.isFinite = true) (hn : isNegative x = false)
    (hm : 0 < (Binary.ofFloat x).mantissa) :
    IsCanonical (Binary.ofFloat x).mantissa (Binary.ofFloat x).exponent := by
  have ho := exponent_ne_of_isFinite hx
  have hlt := toBits_lt_of_not_isNegative hn
  by_cases he : x.toBits.toNat / 2 ^ (52 : Nat) = 0
  · have hof := ofFloat_of_exponent_eq_zero hn he
    rw [hof] at hm ⊢
    have : x.toBits.toNat % 2 ^ (52 : Nat) < 2 ^ (52 : Nat) := Nat.mod_lt _ (by decide)
    exact ⟨hm, by simp only; omega, Int.le_refl _, fun h => absurd h (Int.lt_irrefl _)⟩
  · have hof := ofFloat_of_exponent_ne_zero hn he
    rw [hof] at hm ⊢
    exact ⟨hm, by simp only; omega, by simp only; omega, by simp only; omega⟩

/-- A finite number other than zero is unpacked to its mantissa and exponent. -/
theorem unpack_eq (hx : x.isFinite = true) (hn : isNegative x = false)
    (hm : 0 < (Binary.ofFloat x).mantissa) :
    x.toModel.unpack =
      .finite .positive (Binary.ofFloat x).mantissa (Binary.ofFloat x).exponent hm := by
  let b : BitVec Format.binary64.numBits := x.toModel.toBits.toBitVec
  have ho : (unpackExponent b).toNat ≠ 2047 := by
    rw [toNat_unpackExponent]
    exact exponent_ne_of_isFinite hx
  have hlt := toBits_lt_of_not_isNegative hn
  have hmant : (unpackMantissa b).toNat = x.toBits.toNat % 2 ^ (52 : Nat) := toNat_unpackMantissa b
  have hexp : (unpackExponent b).toNat = x.toBits.toNat / 2 ^ (52 : Nat) := by
    rw [toNat_unpackExponent]
    exact Nat.mod_eq_of_lt (Nat.div_lt_of_lt_mul hlt)
  rw [Float.Model.unpack]
  by_cases he : x.toBits.toNat / 2 ^ (52 : Nat) = 0
  · have hof := ofFloat_of_exponent_eq_zero hn he
    have hmant' := hmant.trans (congrArg Binary.mantissa hof).symm
    rw [unpack_subnormal (BitVec.eq_of_toNat_eq (hexp.trans he)) (hmant' ▸ hm),
      ofBitVec_unpackSign hn]
    exact finite_congr hmant' (congrArg Binary.exponent hof).symm
  · have hof := ofFloat_of_exponent_ne_zero hn he
    rw [unpack_normal, ofBitVec_unpackSign hn]
    · refine finite_congr ?_ ?_
      · rw [hof, hmant]
      · rw [hof, hexp]
    · intro h
      exact he (hexp.symm.trans (congrArg BitVec.toNat h))
    · intro h
      exact ho (congrArg BitVec.toNat h)

/-- A finite number other than zero is packed from its mantissa and exponent. -/
theorem pack_eq (hx : x.isFinite = true) (hn : isNegative x = false)
    (hm : 0 < (Binary.ofFloat x).mantissa) :
    Float.ofModel (.pack
      (.finite .positive (Binary.ofFloat x).mantissa (Binary.ofFloat x).exponent hm)) = x := by
  rw [← unpack_eq hx hn hm]
  exact pack_unpack x

theorem ofModel_pack_eq {u : UnpackedFloat}
    (h : (UnpackedFloat.pack Format.binary64 u).toNat = x.toBits.toNat) :
    Float.ofModel (.pack u) = x := by
  obtain ⟨⟨bits, valid⟩⟩ := x
  have hb : UInt64.ofBitVec (UnpackedFloat.pack Format.binary64 u) = bits :=
    UInt64.toNat_inj.1 h
  subst hb
  rfl

/-- The one number with the mantissa zero and no minus sign. -/
theorem eq_zero_of_mantissa_eq_zero (hn : isNegative x = false)
    (hm : (Binary.ofFloat x).mantissa = 0) : x = 0.0 := by
  have hlt := toBits_lt_of_not_isNegative hn
  have hzero : (0.0 : Float) = .ofModel (.pack (.zero .positive)) := by rfl
  rw [hzero]
  refine (ofModel_pack_eq ?_).symm
  by_cases he : x.toBits.toNat / 2 ^ (52 : Nat) = 0
  · have hof := ofFloat_of_exponent_eq_zero hn he
    rw [hof] at hm
    have : x.toBits.toNat = 0 := by
      simp only at hm
      omega
    rw [this]
    rfl
  · have hof := ofFloat_of_exponent_ne_zero hn he
    rw [hof] at hm
    simp only at hm
    omega

/-! ## Whole numbers -/

theorem toFloat_of_canonical {m n k : Nat} (h : IsCanonical m (-(k : Int))) (hn : m = n * 2 ^ k)
    (hlt : n < 2 ^ (64 : Nat)) :
    n.toUInt64.toFloat = .ofModel (.pack (.finite .positive m (-(k : Int)) h.pos)) := by
  have hpos : 0 < n := Nat.pos_of_mul_pos_right (hn ▸ h.pos)
  have hto : n.toUInt64.toNat = n := Nat.mod_eq_of_lt hlt
  have hu : UnpackedFloat.ofUInt64 Format.binary64 n.toUInt64 =
      .finite .positive m (-(k : Int)) h.pos := by
    rw [UnpackedFloat.ofUInt64, hto, UnpackedFloat.ofNat, UnpackedFloat.ofInt,
      UnpackedFloat.normalize]
    have hgt : compare (n : Int) 0 = .gt := Int.compare_eq_gt.2 (by omega)
    rw [hgt]
    exact h.round_eq .positive hn
  rw [UInt64.toFloat, Float.Model.ofUInt64, hu]

/-- A whole number that is not large is a natural number over a power of two. -/
theorem IsCanonical.exists_whole {b : Binary} (h : IsCanonical b.mantissa b.exponent)
    (hw : b.isWhole = true) (hlt : b.whole < 10 ^ (15 : Nat)) :
    ∃ k : Nat, b.exponent = -(k : Int) ∧ b.mantissa = b.whole * 2 ^ k := by
  have hneg : b.exponent < 0 := by
    by_contra hge
    have hwhole : b.whole = b.mantissa * 2 ^ b.exponent.toNat := by
      have hz : (-b.exponent).toNat = 0 := by omega
      rw [Binary.whole, hz, Nat.pow_zero, Nat.div_one]
    have hle := Nat.le_mul_of_pos_right b.mantissa (Nat.two_pow_pos b.exponent.toNat)
    have hnormal := h.normal (by omega)
    omega
  refine ⟨(-b.exponent).toNat, by omega, ?_⟩
  have hz : b.exponent.toNat = 0 := by omega
  rw [Binary.whole, hz, Nat.pow_zero, Nat.mul_one]
  exact (Nat.div_mul_cancel (Nat.dvd_of_mod_eq_zero (beq_iff_eq.1 hw))).symm

theorem toFloat_toUInt64_whole (hx : x.isFinite = true) (hn : isNegative x = false)
    (hw : isWhole x = true) (hlt : (Binary.ofFloat x).whole < 10 ^ (15 : Nat)) :
    (Binary.ofFloat x).whole.toUInt64.toFloat = x := by
  rcases Nat.eq_zero_or_pos (Binary.ofFloat x).mantissa with hm | hm
  · have hzero : (Binary.ofFloat x).whole = 0 := by
      rw [Binary.whole, hm, Nat.zero_mul, Nat.zero_div]
    rw [hzero, eq_zero_of_mantissa_eq_zero hn hm]
    rfl
  · have hc := ofFloat_isCanonical hx hn hm
    obtain ⟨k, hk, hmant⟩ := hc.exists_whole (Bool.and_eq_true_iff.1 hw).2 hlt
    have hc' := hk ▸ hc
    have hfinite : UnpackedFloat.finite .positive _ (-(k : Int)) hc'.pos =
        .finite .positive _ (Binary.ofFloat x).exponent hm := finite_congr rfl hk.symm
    rw [toFloat_of_canonical hc' hmant (by omega), hfinite, pack_eq hx hn hm]

/-- **A whole number that is not large is the number nearest to itself.** -/
theorem Decimal.toFloat_whole (hx : x.isFinite = true) (hn : isNegative x = false)
    (hw : isWhole x = true) (hlt : (Binary.ofFloat x).whole < 10 ^ (15 : Nat)) :
    Decimal.toFloat ⟨(Binary.ofFloat x).whole, 0⟩ = x := by
  have hread := toFloat_toUInt64_whole hx hn hw hlt
  generalize (Binary.ofFloat x).whole = n at hread hlt
  have hsize : (natDigits n).length ≤ 15 :=
    (Nat.length_toDigits_le_iff (by decide) (by decide)).2 hlt
  have hone : Float.exactlyRepresentablePowersOfTen[0] = (1.0 : Float) := by rfl
  rw [Decimal.toFloat]
  split
  · next hz =>
    simp only at hz
    rw [← hread, hz]
    rfl
  rw [if_neg (by simp only; omega), if_neg (by simp only; omega), Float.ofScientific]
  rw [dif_pos (by simp; omega)]
  simp only [Int.natAbs_zero, Int.lt_irrefl, decide_false]
  rw [hone, hread]
  exact mul_one x

end ModelInputs.Number
