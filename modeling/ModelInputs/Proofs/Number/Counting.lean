import ModelInputs.Proofs.Number.Exact

/-!
# Counting with numbers

Lengths and places are counted by natural numbers, but they are told as floating point numbers. A
natural number up to `2 ^ 53` is one of these: its bits, moved up to the highest place of a
mantissa, are the mantissa, and nothing is rounded. So it comes back as the whole part.

* `IsCanonical.ofNat`: the mantissa and the exponent of a natural number below `2 ^ 53`;
* `unpack_ofNat`, `ofFloat_ofNat`: the number that it is;
* **`ofNat_exact`**: it is whole and comes back, and it is at least one.
-/

namespace ModelInputs.Number

/-- The bits that a mantissa has below those of the natural number. -/
def room (n : Nat) : Nat :=
  52 - n.log2

section

variable {n : Nat}

theorem log2_add_room (hpos : 0 < n) (hlt : n < 2 ^ (53 : Nat)) : n.log2 + room n = 52 :=
  Nat.add_sub_of_le (Nat.lt_succ_iff.1 ((Nat.log2_lt hpos.ne').2 hlt))

/-- A natural number is moved up to fill the mantissa. -/
theorem IsCanonical.ofNat (hpos : 0 < n) (hlt : n < 2 ^ (53 : Nat)) :
    IsCanonical (n * 2 ^ room n) (-(room n : Int)) := by
  have hsum := log2_add_room hpos hlt
  refine ⟨Nat.mul_pos hpos (Nat.two_pow_pos _), ?_, by omega, fun _ => ?_⟩
  · calc n * 2 ^ room n < 2 ^ (n.log2 + 1) * 2 ^ room n :=
          Nat.mul_lt_mul_of_pos_right Nat.lt_log2_self (Nat.two_pow_pos _)
      _ = 2 ^ (53 : Nat) := by rw [← Nat.pow_add, Nat.add_right_comm, hsum]
  · calc 2 ^ (52 : Nat) = 2 ^ n.log2 * 2 ^ room n := by rw [← Nat.pow_add, hsum]
      _ ≤ n * 2 ^ room n := Nat.mul_le_mul_right _ (Nat.log2_self_le hpos.ne')

/-- A natural number is not rounded. -/
theorem unpack_ofNat (hpos : 0 < n) (hlt : n < 2 ^ (53 : Nat)) :
    (Float.ofNat n).toModel.unpack =
      .finite .positive (n * 2 ^ room n) (-(room n : Int)) (IsCanonical.ofNat hpos hlt).pos := by
  have hc := IsCanonical.ofNat hpos hlt
  have hone : Float.exactlyRepresentablePowersOfTen[0] = (1.0 : Float) := by rfl
  have hread : Float.ofNat n = n.toUInt64.toFloat := by
    show Float.ofScientific n false 0 = _
    rw [Float.ofScientific, dif_pos ⟨hlt, by decide⟩]
    simp only [Bool.false_eq_true, if_false]
    rw [hone]
    exact mul_one _
  rw [hread, toFloat_of_canonical hc rfl (by omega)]
  exact unpack_ofModel_pack (.finite hc (by omega))

theorem isNegative_ofNat (n : Nat) : isNegative (Float.ofNat n) = false :=
  isNegative_ofScientific n false 0

theorem isFinite_ofNat (hpos : 0 < n) (hlt : n < 2 ^ (53 : Nat)) :
    (Float.ofNat n).isFinite = true := by
  show (Float.ofNat n).toModel.unpack.isFinite = true
  rw [unpack_ofNat hpos hlt]
  rfl

theorem ofFloat_ofNat (hpos : 0 < n) (hlt : n < 2 ^ (53 : Nat)) :
    Binary.ofFloat (Float.ofNat n) = ⟨n * 2 ^ room n, -(room n : Int)⟩ := by
  have hn := isNegative_ofNat n
  have hunpack := unpack_ofNat hpos hlt
  have hm : 0 < (Binary.ofFloat (Float.ofNat n)).mantissa := by
    by_contra h
    rw [eq_zero_of_mantissa_eq_zero hn (Nat.eq_zero_of_not_pos h)] at hunpack
    cases hunpack
  rw [unpack_eq (isFinite_ofNat hpos hlt) hn hm] at hunpack
  injection hunpack with _ hmantissa hexponent
  exact (Binary.mk.injEq ..).mpr ⟨hmantissa, hexponent⟩

/-! ## Whole numbers -/

theorem Binary.isWhole_shifted (n k : Nat) : Binary.isWhole ⟨n * 2 ^ k, -(k : Int)⟩ = true := by
  simp [Binary.isWhole]

theorem Binary.whole_shifted (n k : Nat) : Binary.whole ⟨n * 2 ^ k, -(k : Int)⟩ = n := by
  simp [Binary.whole, Nat.mul_div_cancel _ (Nat.two_pow_pos k)]

theorem one_le_ofNat (hpos : 0 < n) (hlt : n < 2 ^ (53 : Nat)) : 1.0 ≤ Float.ofNat n := by
  have hone :
      (1.0 : Float).toModel.unpack = .finite .positive (2 ^ (52 : Nat)) (-52) (by decide) := by
    rfl
  have hsum := log2_add_room hpos hlt
  rw [le_iff_unpack, hone, unpack_ofNat hpos hlt]
  show ((compare (-52 : Int) (-(room n : Int))).then
    (compare (2 ^ (52 : Nat)) (n * 2 ^ room n))).isLE = true
  rcases Nat.lt_or_eq_of_le (show room n ≤ 52 by omega) with h | h
  · rw [Int.compare_eq_lt.2 (by omega)]
    rfl
  · -- one itself, with all the other bits below it
    have hle : 2 ^ (52 : Nat) ≤ n * 2 ^ room n := by
      rw [h]
      exact Nat.le_mul_of_pos_left _ hpos
    rw [Int.compare_eq_eq.2 (by omega), Ordering.then]
    exact Nat.isLE_compare.2 hle

/-- **A natural number up to `2 ^ 53` is told exactly**: as a whole number, which it comes back
from. -/
theorem ofNat_exact (hpos : 0 < n) (hle : n ≤ 2 ^ (53 : Nat)) :
    isWhole (Float.ofNat n) = true ∧ truncate (Float.ofNat n) = n ∧ 1.0 ≤ Float.ofNat n := by
  rcases Nat.lt_or_eq_of_le hle with hlt | rfl
  · refine ⟨?_, ?_, one_le_ofNat hpos hlt⟩
    · rw [isWhole, isFinite_ofNat hpos hlt, ofFloat_ofNat hpos hlt, Binary.isWhole_shifted]
      rfl
    · rw [truncate, isNegative_ofNat, ofFloat_ofNat hpos hlt, Binary.whole_shifted]
      rfl
  · -- the power itself has one bit more than a mantissa, and is a number all the same
    decide +kernel

end

end ModelInputs.Number
