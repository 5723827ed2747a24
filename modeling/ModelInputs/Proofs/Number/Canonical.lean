import Mathlib.Data.Nat.Log
import ModelInputs.Proofs.Number.Sign

/-!
# The form of numbers

A finite number is a mantissa times a power of two, in the one form where the mantissa has all its
bits or the exponent is the least one. Rounding a value that has such a form changes nothing,
however it is written at first, and the bits of a number are taken apart into this form.

* `IsCanonical`: that form, with **`IsCanonical.roundWithAccuracy_eq`** and `IsCanonical.round_eq`:
  rounding gives it;
* `unpack_subnormal`, `unpack_normal`: the bits of a finite number taken apart.
-/

namespace ModelInputs.Number

open Float.Model (Format UnpackedFloat totalExponent)
open Float.Model.UnpackedFloat

/-! ## The form of a number -/

theorem targetExponent_binary64 (t : Int) :
    Format.binary64.targetExponent t = max (t - 53) (-1074) :=
  rfl

theorem mantissaBits_binary64 : Format.binary64.mantissaBits = 53 :=
  rfl

/-- The value `m * 2 ^ e` in the form that numbers have: the mantissa has all its bits, or the
exponent is the least one. -/
structure IsCanonical (m : Nat) (e : Int) : Prop where
  pos : 0 < m
  lt : m < 2 ^ (53 : Nat)
  least : -1074 ≤ e
  normal : -1074 < e → 2 ^ (52 : Nat) ≤ m

/-- The exponent of the form is the one that rounding aims at. -/
theorem IsCanonical.targetExponent {m : Nat} {e : Int} (h : IsCanonical m e) :
    Format.binary64.targetExponent (totalExponent m e) = e := by
  have hl : m.log2 < 53 := (Nat.log2_lt h.pos.ne').2 h.lt
  rw [targetExponent_binary64, totalExponent]
  have := h.least
  rcases Int.lt_or_eq_of_le h.least with hlt | heq
  · have hl' : 52 ≤ m.log2 := (Nat.le_log2 h.pos.ne').2 (h.normal hlt)
    omega
  · omega

/-! ## Rounding what needs none -/

/-- Shifting out zeros is exact. -/
theorem repeat_shiftRightOne (m k : Nat) :
    k.repeat ExtendedMantissa.shiftRightOne ⟨m * 2 ^ k, false, false⟩ = ⟨m, false, false⟩ := by
  induction k generalizing m with
  | zero =>
    rw [Nat.pow_zero, Nat.mul_one]
    rfl
  | succ k ih =>
    rw [Nat.repeat, Nat.pow_succ', ← Nat.mul_assoc, ih]
    simp [ExtendedMantissa.shiftRightOne]

theorem log2_mul_two_pow {m : Nat} (hm : m ≠ 0) (k : Nat) : (m * 2 ^ k).log2 = m.log2 + k := by
  rw [Nat.log2_eq_iff (Nat.mul_ne_zero hm (Nat.two_pow_pos k).ne'), Nat.pow_add, Nat.add_right_comm,
    Nat.pow_add]
  exact ⟨Nat.mul_le_mul_right _ (Nat.log2_self_le hm),
    Nat.mul_lt_mul_of_pos_right Nat.lt_log2_self (Nat.two_pow_pos k)⟩

theorem totalExponent_mul {m : Nat} (hm : 0 < m) (e : Int) (k : Nat) :
    totalExponent (m * 2 ^ k) (e - k) = totalExponent m e := by
  rw [totalExponent, totalExponent, log2_mul_two_pow hm.ne']
  omega

theorem IsCanonical.shift {m : Nat} {e : Int} (h : IsCanonical m e) (k : Nat) :
    shiftToTargetExponent Format.binary64 (m * 2 ^ k) (e - k) .exact =
      (⟨m, false, false⟩, e) := by
  have hk : (e - (e - k)).toNat = k := by omega
  rw [shiftToTargetExponent, totalExponent_mul h.pos, h.targetExponent, shiftToExponent]
  simp only [hk, Prod.mk.injEq]
  exact ⟨repeat_shiftRightOne m k, by omega⟩

/-- **Rounding gives a canonical value back**, with any number of zeros behind its mantissa. -/
theorem IsCanonical.roundWithAccuracy_eq {m : Nat} {e : Int} (h : IsCanonical m e) (s : Sign)
    (k : Nat) :
    roundWithAccuracy Format.binary64 s (m * 2 ^ k) (e - k) .exact = .finite s m e h.pos := by
  have hself := h.shift 0
  rw [Nat.pow_zero, Nat.mul_one, Int.natCast_zero, Int.sub_zero] at hself
  have hr : ExtendedMantissa.roundedMantissa ⟨m, false, false⟩ = m := rfl
  unfold roundWithAccuracy
  rw [h.shift k]
  dsimp only
  rw [hr, hself]
  exact dif_neg h.pos.ne'

/-- A natural number is rounded to its canonical form. -/
theorem IsCanonical.round_eq {m n k : Nat} (h : IsCanonical m (-(k : Int))) (s : Sign)
    (hn : m = n * 2 ^ k) :
    UnpackedFloat.round Format.binary64 s n 0 = .finite s m (-(k : Int)) h.pos := by
  have hpos : 0 < n := Nat.pos_of_mul_pos_right (hn ▸ h.pos)
  have ht : Format.binary64.targetExponent (totalExponent n 0) = -(k : Int) := by
    have htotal := totalExponent_mul hpos 0 k
    rw [← hn, Int.zero_sub] at htotal
    rw [← htotal, h.targetExponent]
  have hself := h.roundWithAccuracy_eq s 0
  rw [Nat.pow_zero, Nat.mul_one, Int.natCast_zero, Int.sub_zero] at hself
  unfold UnpackedFloat.round decreaseExponent
  rw [ht]
  dsimp only
  rw [Int.zero_sub, Int.neg_neg, Int.toNat_natCast, Nat.shiftLeft_eq, ← hn, Int.zero_sub]
  exact hself

/-! ## Unpacking -/

theorem toNat_implicit (m : BitVec 52) : (1#1 ++ m).toNat = 2 ^ (52 : Nat) + m.toNat := by
  rw [BitVec.toNat_append, ← Nat.shiftLeft_add_eq_or_of_lt m.isLt]
  rfl

theorem finite_congr {s : Sign} {m m' : Nat} {e e' : Int} {h : 0 < m} {h' : 0 < m'}
    (hm : m = m') (he : e = e') :
    UnpackedFloat.finite s m e h = UnpackedFloat.finite s m' e' h' := by
  subst hm he
  rfl

theorem unpack_subnormal {b : BitVec Format.binary64.numBits} (he : unpackExponent b = 0#11)
    (hm : 0 < (unpackMantissa b).toNat) :
    UnpackedFloat.unpack Format.binary64 b =
      .finite (.ofBitVec (unpackSign b)) (unpackMantissa b).toNat (-1074) hm := by
  have hm' : unpackMantissa b ≠ 0#52 := fun h => by
    rw [h] at hm
    exact absurd hm (by decide)
  have ho : unpackExponent b ≠ -1#11 := by
    rw [he]
    decide
  unfold UnpackedFloat.unpack
  rw [if_neg ho, if_pos he, dif_neg hm']
  refine finite_congr rfl ?_
  rw [he]
  rfl

theorem unpack_normal {b : BitVec Format.binary64.numBits} (he : unpackExponent b ≠ 0#11)
    (ho : unpackExponent b ≠ -1#11) :
    UnpackedFloat.unpack Format.binary64 b =
      .finite (.ofBitVec (unpackSign b)) (2 ^ (52 : Nat) + (unpackMantissa b).toNat)
        ((unpackExponent b).toNat - 1075) (by omega) := by
  unfold UnpackedFloat.unpack
  rw [if_neg ho, if_neg he]
  exact finite_congr (toNat_implicit _) rfl

end ModelInputs.Number
