import ModelInputs.Number.Read

/-!
# Numbers without a minus sign

Products, quotients and roundings of numbers without a minus sign have none, so a number that is
read from digits has none either: a minus sign in an expression is always an operator. Everything is
shown on the bits of numbers, with the sign, the exponent and the mantissa taken apart.

* `toNat_unpackMantissa` and its like: the parts of the bits as natural numbers;
* `IsUnsigned`: an unpacked number without a minus sign, with what keeps it so;
* `isNegative_mul`, `isNegative_div`: products and quotients;
* **`Decimal.isNegative_toFloat`**: the number nearest to a decimal has no minus sign.
-/

namespace ModelInputs.Number

open Float.Model (Format UnpackedFloat totalExponent)
open Float.Model.UnpackedFloat

/-! ## The parts of the bits -/

theorem toNat_unpackMantissa (b : BitVec Format.binary64.numBits) :
    (unpackMantissa b).toNat = b.toNat % 2 ^ (52 : Nat) := by
  simp [unpackMantissa]

theorem toNat_unpackExponent (b : BitVec Format.binary64.numBits) :
    (unpackExponent b).toNat = b.toNat / 2 ^ (52 : Nat) % 2 ^ (11 : Nat) := by
  simp [unpackExponent, Nat.shiftRight_eq_div_pow]

theorem toNat_unpackSign (b : BitVec Format.binary64.numBits) :
    (unpackSign b).toNat = b.toNat / 2 ^ (63 : Nat) % 2 := by
  have hbits : (unpackSign b).toNat = (b.extractLsb 63 63).toNat := rfl
  rw [hbits, BitVec.extractLsb_toNat, Nat.shiftRight_eq_div_pow]

theorem toNat_packComponents_positive (e : BitVec 11) (m : BitVec 52) :
    (packComponents Format.binary64 .positive e m).toNat = e.toNat * 2 ^ (52 : Nat) + m.toNat := by
  have he : e.toNat < 2 ^ (11 : Nat) := e.isLt
  have hm : m.toNat < 2 ^ (52 : Nat) := m.isLt
  have hs : Sign.positive.toBitVec.toNat = 0 := rfl
  rw [packComponents, BitVec.toNat_append, BitVec.toNat_append, hs, Nat.zero_shiftLeft,
    Nat.zero_or, ← Nat.shiftLeft_add_eq_or_of_lt hm, Nat.shiftLeft_eq]

theorem packComponents_positive_lt (e : BitVec 11) (m : BitVec 52) :
    (packComponents Format.binary64 .positive e m).toNat < 2 ^ (63 : Nat) := by
  have he : e.toNat < 2 ^ (11 : Nat) := e.isLt
  have hm : m.toNat < 2 ^ (52 : Nat) := m.isLt
  rw [toNat_packComponents_positive]
  omega

/-! ## Sign -/

/-- An unpacked number without a minus sign; what is no number has none. -/
def IsUnsigned : UnpackedFloat → Prop
  | .notANumber => True
  | .infinity s | .zero s | .finite s _ _ _ => s = .positive

theorem IsUnsigned.ite {p : Prop} [Decidable p] {u v : UnpackedFloat} (hu : IsUnsigned u)
    (hv : IsUnsigned v) : IsUnsigned (if p then u else v) := by
  split
  · exact hu
  · exact hv

theorem IsUnsigned.dite {p : Prop} [Decidable p] {u : p → UnpackedFloat}
    {v : ¬ p → UnpackedFloat} (hu : ∀ h, IsUnsigned (u h)) (hv : ∀ h, IsUnsigned (v h)) :
    IsUnsigned (if h : p then u h else v h) := by
  by_cases h : p
  · rw [dif_pos h]
    exact hu h
  · rw [dif_neg h]
    exact hv h

theorem isNegative_ofModel_pack {u : UnpackedFloat} (hu : IsUnsigned u) :
    isNegative (.ofModel (.pack u)) = false := by
  have hlt : (UnpackedFloat.pack Format.binary64 u).toNat < 2 ^ (63 : Nat) := by
    cases u with
    | notANumber => exact packComponents_positive_lt _ _
    | infinity s =>
      cases hu
      exact packComponents_positive_lt _ _
    | zero s =>
      cases hu
      exact packComponents_positive_lt _ _
    | finite s m e hm =>
      cases hu
      unfold UnpackedFloat.pack
      simp only
      split
      · exact packComponents_positive_lt _ _
      split
      · exact packComponents_positive_lt _ _
      · exact packComponents_positive_lt _ _
  exact decide_eq_false (Nat.not_le.2 hlt)

theorem toBits_lt_of_not_isNegative {x : Float} (hx : isNegative x = false) :
    x.toBits.toNat < 2 ^ (63 : Nat) :=
  Nat.not_le.1 (of_decide_eq_false hx)

theorem ofBitVec_unpackSign {x : Float} (hx : isNegative x = false) :
    Sign.ofBitVec (@unpackSign Format.binary64 x.toModel.toBits.toBitVec) =
      .positive := by
  refine if_pos (BitVec.eq_of_toNat_eq ?_)
  have hlt : x.toModel.toBits.toBitVec.toNat < 2 ^ (63 : Nat) := toBits_lt_of_not_isNegative hx
  rw [toNat_unpackSign, Nat.div_eq_of_lt hlt]
  rfl

theorem isUnsigned_unpack {x : Float} (hx : isNegative x = false) :
    IsUnsigned x.toModel.unpack := by
  have hs := ofBitVec_unpackSign hx
  unfold Float.Model.unpack UnpackedFloat.unpack
  exact .ite (.ite hs trivial) (.ite (.dite (fun _ => hs) fun _ => hs) hs)

/-- Rounding keeps the sign. -/
theorem isUnsigned_roundWithAccuracy (m : Nat) (e : Int) (acc : Accuracy) :
    IsUnsigned (roundWithAccuracy Format.binary64 .positive m e acc) := by
  unfold roundWithAccuracy
  exact .dite (fun _ => rfl) fun _ => rfl

theorem IsUnsigned.mul {u v : UnpackedFloat} (hu : IsUnsigned u) (hv : IsUnsigned v) :
    IsUnsigned (UnpackedFloat.mul Format.binary64 u v) := by
  cases u <;> cases v <;> cases hu <;> cases hv
  case finite.finite => exact isUnsigned_roundWithAccuracy _ _ _
  all_goals first | rfl | trivial

theorem IsUnsigned.div {u v : UnpackedFloat} (hu : IsUnsigned u) (hv : IsUnsigned v) :
    IsUnsigned (UnpackedFloat.div Format.binary64 u v) := by
  cases u <;> cases v <;> cases hu <;> cases hv
  case finite.finite => exact isUnsigned_roundWithAccuracy _ _ _
  all_goals first | rfl | trivial

/-! ## Operations -/

theorem isNegative_mul {x y : Float} (hx : isNegative x = false) (hy : isNegative y = false) :
    isNegative (x * y) = false :=
  isNegative_ofModel_pack ((isUnsigned_unpack hx).mul (isUnsigned_unpack hy))

theorem isNegative_div {x y : Float} (hx : isNegative x = false) (hy : isNegative y = false) :
    isNegative (x / y) = false :=
  isNegative_ofModel_pack ((isUnsigned_unpack hx).div (isUnsigned_unpack hy))

theorem isNegative_toFloat (n : UInt64) : isNegative n.toFloat = false := by
  refine isNegative_ofModel_pack ?_
  unfold UnpackedFloat.ofUInt64 UnpackedFloat.ofNat UnpackedFloat.ofInt UnpackedFloat.normalize
  split
  · next h =>
    have := Int.compare_eq_lt.1 h
    omega
  · rfl
  · exact isUnsigned_roundWithAccuracy _ _ _

theorem isNegative_powerOfTen {e : Nat} (he : e < Float.exactlyRepresentablePowersOfTen.size) :
    isNegative (Float.exactlyRepresentablePowersOfTen[e]) = false := by
  have hall : ∀ x ∈ Float.exactlyRepresentablePowersOfTen.toList, isNegative x = false := by
    decide
  exact hall _ (Array.mem_toList_iff.2 (Array.getElem_mem he))

theorem isUnsigned_ofScientific (m : Nat) (e : Int) :
    IsUnsigned (UnpackedFloat.ofScientific Format.binary64 m e) := by
  unfold UnpackedFloat.ofScientific
  refine .dite (fun _ => rfl) fun _ => .ite rfl (.ite rfl (.ite ?_ ?_))
  · exact isUnsigned_roundWithAccuracy _ _ _
  · exact isUnsigned_roundWithAccuracy _ _ _

theorem isNegative_ofScientific (m : Nat) (s : Bool) (e : Nat) :
    isNegative (Float.ofScientific m s e) = false := by
  unfold Float.ofScientific
  split
  · split
    · exact isNegative_div (isNegative_toFloat _) (isNegative_powerOfTen _)
    · exact isNegative_mul (isNegative_toFloat _) (isNegative_powerOfTen _)
  · exact isNegative_ofModel_pack (isUnsigned_ofScientific _ _)

/-- **The number nearest to a decimal has no minus sign.** -/
theorem Decimal.isNegative_toFloat (d : Decimal) : isNegative d.toFloat = false := by
  unfold Decimal.toFloat
  simp only
  split
  · decide
  split
  · decide
  split
  · decide
  · exact isNegative_ofScientific _ _ _

end ModelInputs.Number
