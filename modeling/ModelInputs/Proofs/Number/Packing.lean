import ModelInputs.Proofs.Number.Canonical

/-!
# Numbers unpacked and packed again

Arithmetic takes numbers apart and puts the results together again. A number that is taken apart and
put together is the number it was, and what it is taken apart into comes back from it. So numbers
can be turned from positive to negative and back, one is neutral for all of them, and a number is
equal to itself unless it is none.

* `IsUnpacked`: what numbers are taken apart into, **`unpack_pack`**, **`pack_unpack`**;
* `neg_neg`, `unpack_neg`: numbers with the sign turned;
* **`mul_one`**: one is neutral;
* `beq_self`, `beq_comm`: equal numbers;
* `lt_iff_unpack`, `le_iff_unpack`, `not_lt_of_le`: comparisons;
* `isNaN_mul_eq_false`: a product with a finite number other than zero is a number.
-/

namespace ModelInputs.Number

open Float.Model (Format UnpackedFloat totalExponent)
open Float.Model.UnpackedFloat

/-! ## The bits of a number -/

theorem toBitVec_ofBitVec (b : BitVec 1) : (Sign.ofBitVec b).toBitVec = b := by
  revert b
  decide

/-- The bits are the sign, the exponent and the mantissa in a row. -/
theorem packComponents_unpack (b : BitVec Format.binary64.numBits) :
    packComponents Format.binary64 (.ofBitVec (unpackSign b)) (unpackExponent b)
      (unpackMantissa b) = b := by
  rw [packComponents, toBitVec_ofBitVec]
  refine BitVec.eq_of_toNat_eq ?_
  have he : (unpackExponent b).toNat < 2 ^ (11 : Nat) := (unpackExponent b).isLt
  have hm : (unpackMantissa b).toNat < 2 ^ (52 : Nat) := (unpackMantissa b).isLt
  have hb : b.toNat < 2 ^ (64 : Nat) := b.isLt
  rw [BitVec.toNat_append, ← Nat.shiftLeft_add_eq_or_of_lt hm, BitVec.toNat_append,
    ← Nat.shiftLeft_add_eq_or_of_lt he, toNat_unpackSign, toNat_unpackExponent,
    toNat_unpackMantissa, Nat.shiftLeft_eq, Nat.shiftLeft_eq]
  show (b.toNat / 2 ^ 63 % 2 * 2 ^ 11 + b.toNat / 2 ^ 52 % 2 ^ 11) * 2 ^ 52 +
    b.toNat % 2 ^ 52 = b.toNat
  omega

theorem unpackSign_packComponents (s : Sign) (e : BitVec 11) (m : BitVec 52) :
    Sign.ofBitVec (unpackSign (packComponents Format.binary64 s e m)) = s := by
  have he : e.toNat < 2 ^ (11 : Nat) := e.isLt
  have hm : m.toNat < 2 ^ (52 : Nat) := m.isLt
  have hsign : unpackSign (packComponents Format.binary64 s e m) = s.toBitVec := by
    refine BitVec.eq_of_toNat_eq ?_
    rw [toNat_unpackSign, packComponents, BitVec.toNat_append, ← Nat.shiftLeft_add_eq_or_of_lt hm,
      BitVec.toNat_append, ← Nat.shiftLeft_add_eq_or_of_lt he, Nat.shiftLeft_eq, Nat.shiftLeft_eq]
    have hs : s.toBitVec.toNat < 2 ^ (1 : Nat) := s.toBitVec.isLt
    show ((s.toBitVec.toNat * 2 ^ 11 + e.toNat) * 2 ^ 52 + m.toNat) / 2 ^ 63 % 2 =
      s.toBitVec.toNat
    omega
  rw [hsign]
  cases s <;> rfl

/-! ## What numbers are taken apart into -/

/-- What a number is taken apart into: if it is finite and not zero, in the one form that numbers
have. -/
inductive IsUnpacked : UnpackedFloat → Prop where
  | notANumber : IsUnpacked .notANumber
  | infinity {s : Sign} : IsUnpacked (.infinity s)
  | zero {s : Sign} : IsUnpacked (.zero s)
  | finite {s : Sign} {m : Nat} {e : Int} {h : 0 < m} :
    IsCanonical m e → e < 972 → IsUnpacked (.finite s m e h)

theorem isUnpacked_unpack (b : BitVec Format.binary64.numBits) :
    IsUnpacked (UnpackedFloat.unpack Format.binary64 b) := by
  have he : (unpackExponent b).toNat < 2 ^ (11 : Nat) := (unpackExponent b).isLt
  have hm : (unpackMantissa b).toNat < 2 ^ (52 : Nat) := (unpackMantissa b).isLt
  by_cases ho : unpackExponent b = -1#11
  · unfold UnpackedFloat.unpack
    rw [if_pos ho]
    split
    · exact .infinity
    · exact .notANumber
  have hones : (unpackExponent b).toNat ≠ 2047 := fun h => ho (BitVec.eq_of_toNat_eq h)
  by_cases hz : unpackExponent b = 0#11
  · by_cases hmz : unpackMantissa b = 0#52
    · unfold UnpackedFloat.unpack
      rw [if_neg ho, if_pos hz, dif_pos hmz]
      exact .zero
    · have hpos : 0 < (unpackMantissa b).toNat :=
        Nat.pos_of_ne_zero fun h => hmz (BitVec.eq_of_toNat_eq h)
      rw [unpack_subnormal hz hpos]
      exact .finite ⟨hpos, by omega, Int.le_refl _, fun h => absurd h (Int.lt_irrefl _)⟩ (by decide)
  · have hne : (unpackExponent b).toNat ≠ 0 := fun h => hz (BitVec.eq_of_toNat_eq h)
    rw [unpack_normal hz ho]
    exact .finite ⟨by omega, by omega, by omega, fun _ => by omega⟩ (by omega)

/-- A finite number is put together from its sign, its exponent and its mantissa. -/
theorem pack_finite {s : Sign} {m : Nat} {e : Int} {h : 0 < m} (hc : IsCanonical m e)
    (he : e < 972) :
    UnpackedFloat.pack Format.binary64 (.finite s m e h) =
      packComponents Format.binary64 s
        (if m < 2 ^ (52 : Nat) then 0#11 else .ofNat 11 (e + 1075).toNat) (.ofNat 52 m) := by
  have hbias : (e + Format.binary64.exponentBias + (52 : Nat)).toNat = (e + 1075).toNat := by
    have : Format.binary64.exponentBias = 1023 := by decide
    rw [this]
    congr 1
    omega
  have hb : ¬ 2 ^ Format.binary64.exponentBits ≤ (e + 1075).toNat + 1 := by
    have : 2 ^ Format.binary64.exponentBits = 2048 := by decide
    omega
  have hlt := hc.lt
  unfold UnpackedFloat.pack
  dsimp only
  rw [hbias, if_neg hb]
  by_cases hm : m < 2 ^ (52 : Nat)
  · have hl : ¬ m.log2 + 1 = Format.binary64.mantissaBits := by
      have := (Nat.log2_lt h.ne').2 hm
      have := mantissaBits_binary64
      omega
    rw [if_neg hl, if_pos hm]
  · have hl : m.log2 + 1 = Format.binary64.mantissaBits := by
      have := (Nat.log2_lt h.ne').2 hlt
      have := (Nat.le_log2 h.ne').2 (Nat.not_lt.1 hm)
      have := mantissaBits_binary64
      omega
    rw [if_pos hl, if_neg hm]

/-- **What a number is taken apart into comes back from the number.** -/
theorem unpack_pack {u : UnpackedFloat} (h : IsUnpacked u) :
    UnpackedFloat.unpack Format.binary64 (UnpackedFloat.pack Format.binary64 u) = u := by
  cases h with
  | notANumber => rfl
  | @infinity s => cases s <;> rfl
  | @zero s => cases s <;> rfl
  | @finite s m e h hc he =>
    have hlt := hc.lt
    rw [pack_finite hc he]
    by_cases hm : m < 2 ^ (52 : Nat)
    · have hmant : (BitVec.ofNat 52 m).toNat = m := Nat.mod_eq_of_lt hm
      have hleast : e = -1074 := by
        have := hc.least
        by_contra hne
        have := hc.normal (by omega)
        omega
      rw [if_pos hm, unpack_subnormal unpackExponent_packComponents, unpackSign_packComponents]
      · refine finite_congr ?_ hleast.symm
        rw [unpackMantissa_packComponents, hmant]
      · rw [unpackMantissa_packComponents, hmant]
        exact h
    · have hleast := hc.least
      have hexp : (BitVec.ofNat 11 (e + 1075).toNat).toNat = (e + 1075).toNat := by
        rw [BitVec.toNat_ofNat]
        omega
      have hmant : (BitVec.ofNat 52 m).toNat = m - 2 ^ (52 : Nat) := by
        rw [BitVec.toNat_ofNat]
        omega
      rw [if_neg hm, unpack_normal, unpackSign_packComponents]
      · refine finite_congr ?_ ?_
        · rw [unpackMantissa_packComponents, hmant]
          omega
        · rw [unpackExponent_packComponents, hexp]
          omega
      · rw [unpackExponent_packComponents]
        intro h
        have := congrArg BitVec.toNat h
        rw [hexp] at this
        simp only [BitVec.toNat_ofNat] at this
        omega
      · rw [unpackExponent_packComponents]
        intro h
        have := hexp.symm.trans (congrArg BitVec.toNat h)
        have hones : (-1#11).toNat = 2047 := rfl
        omega

theorem pack_unpack_of_valid {b : BitVec Format.binary64.numBits} (hv : Format.binary64.Valid b) :
    UnpackedFloat.pack Format.binary64 (UnpackedFloat.unpack Format.binary64 b) = b := by
  have hm : (unpackMantissa b).toNat < 2 ^ (52 : Nat) := (unpackMantissa b).isLt
  have he : (unpackExponent b).toNat < 2 ^ (11 : Nat) := (unpackExponent b).isLt
  have hself := packComponents_unpack b
  by_cases ho : unpackExponent b = -1#11
  · unfold UnpackedFloat.unpack
    rw [if_pos ho]
    split
    · next hmz =>
      rw [ho, hmz] at hself
      exact hself
    · next hmz => exact (hv.eq_packedNaN ho hmz).symm
  by_cases hz : unpackExponent b = 0#11
  · by_cases hmz : unpackMantissa b = 0#52
    · unfold UnpackedFloat.unpack
      rw [if_neg ho, if_pos hz, dif_pos hmz]
      rw [hz, hmz] at hself
      exact hself
    · have hpos : 0 < (unpackMantissa b).toNat :=
        Nat.pos_of_ne_zero fun h => hmz (BitVec.eq_of_toNat_eq h)
      have hunpacked := isUnpacked_unpack b
      rw [unpack_subnormal hz hpos] at hunpacked ⊢
      obtain ⟨hc, hlt⟩ : IsCanonical (unpackMantissa b).toNat (-1074) ∧ (-1074 : Int) < 972 := by
        cases hunpacked with
        | finite hc hlt => exact ⟨hc, hlt⟩
      rw [pack_finite hc hlt, if_pos hm, BitVec.ofNat_toNat, BitVec.setWidth_eq, ← hz]
      exact hself
  · have hunpacked := isUnpacked_unpack b
    rw [unpack_normal hz ho] at hunpacked ⊢
    have hne : (unpackExponent b).toNat ≠ 0 := fun h => hz (BitVec.eq_of_toNat_eq h)
    cases hunpacked with
    | finite hc hlt =>
      have hexp : BitVec.ofNat 11 (((unpackExponent b).toNat : Int) - 1075 + 1075).toNat =
          unpackExponent b := by
        refine BitVec.eq_of_toNat_eq ?_
        rw [BitVec.toNat_ofNat]
        omega
      have hmant : BitVec.ofNat 52 (2 ^ (52 : Nat) + (unpackMantissa b).toNat) =
          unpackMantissa b := by
        refine BitVec.eq_of_toNat_eq ?_
        rw [BitVec.toNat_ofNat]
        omega
      rw [pack_finite hc hlt, if_neg (by omega), hexp, hmant]
      exact hself

/-! ## Numbers -/

/-- **A number that is taken apart and put together is the number it was.** -/
theorem pack_unpack (x : Float) : Float.ofModel (.pack x.toModel.unpack) = x := by
  obtain ⟨⟨bits, hv⟩⟩ := x
  have hpack : UnpackedFloat.pack Format.binary64
      (UnpackedFloat.unpack Format.binary64 bits.toBitVec) = bits.toBitVec :=
    pack_unpack_of_valid hv
  have hmodel : Float.Model.pack (Float.Model.unpack ⟨bits, hv⟩) = ⟨bits, hv⟩ :=
    (Float.Model.mk.injEq ..).mpr (congrArg UInt64.ofBitVec hpack)
  exact congrArg Float.ofModel hmodel

theorem unpack_ofModel_pack {u : UnpackedFloat} (h : IsUnpacked u) :
    (Float.ofModel (.pack u)).toModel.unpack = u :=
  unpack_pack h

theorem isUnpacked (x : Float) : IsUnpacked x.toModel.unpack :=
  isUnpacked_unpack _

theorem IsUnpacked.neg {u : UnpackedFloat} (h : IsUnpacked u) : IsUnpacked u.neg := by
  cases h with
  | notANumber => exact .notANumber
  | infinity => exact .infinity
  | zero => exact .zero
  | finite hc he => exact .finite hc he

section

variable {x y : Float}

theorem unpack_neg (x : Float) : (-x).toModel.unpack = x.toModel.unpack.neg :=
  unpack_ofModel_pack (isUnpacked x).neg

/-- **A number whose sign is turned twice is the number it was.** -/
theorem neg_neg (x : Float) : - -x = x := by
  have hneg : (-x).toModel.unpack.neg = x.toModel.unpack := by
    rw [unpack_neg]
    cases x.toModel.unpack with
    | notANumber => rfl
    | infinity s | zero s | finite s m e h => cases s <;> rfl
  refine Eq.trans ?_ (pack_unpack x)
  exact congrArg (fun u => Float.ofModel (.pack u)) hneg

theorem isFinite_neg (x : Float) : (-x).isFinite = x.isFinite := by
  show (-x).toModel.unpack.isFinite = x.toModel.unpack.isFinite
  rw [unpack_neg]
  cases x.toModel.unpack <;> rfl

theorem toNat_packComponents (s : Sign) (e : BitVec 11) (m : BitVec 52) :
    (packComponents Format.binary64 s e m).toNat =
      s.toBitVec.toNat * 2 ^ (63 : Nat) + (e.toNat * 2 ^ (52 : Nat) + m.toNat) := by
  have he : e.toNat < 2 ^ (11 : Nat) := e.isLt
  have hm : m.toNat < 2 ^ (52 : Nat) := m.isLt
  rw [packComponents, BitVec.toNat_append, ← Nat.shiftLeft_add_eq_or_of_lt hm, BitVec.toNat_append,
    ← Nat.shiftLeft_add_eq_or_of_lt he, Nat.shiftLeft_eq, Nat.shiftLeft_eq]
  show (s.toBitVec.toNat * 2 ^ 11 + e.toNat) * 2 ^ 52 + m.toNat = _
  omega

/-- Turning the sign changes nothing but the sign. -/
theorem exists_components {u : UnpackedFloat} (h : IsUnpacked u) (hu : u.isNaN = false) :
    ∃ s e m, UnpackedFloat.pack Format.binary64 u = packComponents Format.binary64 s e m ∧
      UnpackedFloat.pack Format.binary64 u.neg = packComponents Format.binary64 (-s) e m := by
  cases h with
  | notANumber => cases hu
  | @infinity s => exact ⟨s, _, _, rfl, rfl⟩
  | @zero s => exact ⟨s, _, _, rfl, rfl⟩
  | @finite s m e h hc he => exact ⟨s, _, _, pack_finite hc he, pack_finite hc he⟩

theorem toBits_neg (hx : x.isNaN = false) :
    (-x).toBits.toNat % 2 ^ (63 : Nat) = x.toBits.toNat % 2 ^ (63 : Nat) ∧
      isNegative (-x) = !isNegative x := by
  obtain ⟨s, e, m, hpack, hneg⟩ := exists_components (isUnpacked x) hx
  have hbits : x.toBits.toNat =
      s.toBitVec.toNat * 2 ^ (63 : Nat) + (e.toNat * 2 ^ (52 : Nat) + m.toNat) := by
    rw [← toNat_packComponents, ← hpack]
    exact congrArg (fun y : Float => y.toBits.toNat) (pack_unpack x).symm
  have hbits' : (-x).toBits.toNat =
      (-s).toBitVec.toNat * 2 ^ (63 : Nat) + (e.toNat * 2 ^ (52 : Nat) + m.toNat) := by
    rw [← toNat_packComponents, ← hneg]
    rfl
  have he : e.toNat < 2 ^ (11 : Nat) := e.isLt
  have hm : m.toNat < 2 ^ (52 : Nat) := m.isLt
  rw [isNegative, isNegative, hbits, hbits']
  cases s with
  | negative =>
    have hone : Sign.negative.toBitVec.toNat = 1 := rfl
    have hzero : (-Sign.negative).toBitVec.toNat = 0 := rfl
    rw [hone, hzero]
    refine ⟨by omega, ?_⟩
    rw [decide_eq_false (by omega), decide_eq_true (by omega)]
    rfl
  | positive =>
    have hone : (-Sign.positive).toBitVec.toNat = 1 := rfl
    have hzero : Sign.positive.toBitVec.toNat = 0 := rfl
    rw [hone, hzero]
    refine ⟨by omega, ?_⟩
    rw [decide_eq_true (by omega), decide_eq_false (by omega)]
    rfl

theorem isNegative_neg (hx : x.isNaN = false) : isNegative (-x) = !isNegative x :=
  (toBits_neg hx).2

theorem ofFloat_neg (hx : x.isNaN = false) : Binary.ofFloat (-x) = Binary.ofFloat x := by
  rw [Binary.ofFloat, Binary.ofFloat, (toBits_neg hx).1]

/-! ## One -/

/-- **One is neutral**, for all numbers. -/
theorem mul_one (x : Float) : x * 1.0 = x := by
  have hone :
      (1.0 : Float).toModel.unpack = .finite .positive (2 ^ (52 : Nat)) (-52) (by decide) := by
    rfl
  have hsign (s : Sign) : s * .positive = s := by cases s <;> rfl
  have hmul : UnpackedFloat.mul Format.binary64 x.toModel.unpack (1.0 : Float).toModel.unpack =
      x.toModel.unpack := by
    have hx := isUnpacked x
    rw [hone]
    generalize x.toModel.unpack = u at hx
    cases hx with
    | notANumber => rfl
    | infinity => exact congrArg UnpackedFloat.infinity (hsign _)
    | zero => exact congrArg UnpackedFloat.zero (hsign _)
    | @finite s m e h hc he =>
      have hr := hc.roundWithAccuracy_eq s 52
      show roundWithAccuracy Format.binary64 (s * .positive) _ _ _ = _
      rw [hsign]
      exact hr
  refine Eq.trans ?_ (pack_unpack x)
  exact congrArg (fun u => Float.ofModel (.pack u)) hmul

/-! ## Equal numbers -/

/-- A number is equal to itself. -/
theorem beq_self (hx : x.isNaN = false) : (x == x) = true := by
  have hu : x.toModel.unpack.isNaN = false := hx
  show UnpackedFloat.beq x.toModel.unpack x.toModel.unpack = true
  unfold UnpackedFloat.beq
  cases hunpack : x.toModel.unpack with
  | notANumber =>
    rw [hunpack] at hu
    cases hu
  | infinity s => cases s <;> rfl
  | zero s => rfl
  | finite s m e h =>
    have hself : (compare e e).then (compare m m) = .eq := by
      rw [Int.compare_eq_eq.2 rfl, Nat.compare_eq_eq.2 rfl]
      rfl
    cases s with
    | negative => exact congrArg (fun o => some (Ordering.swap o) == some .eq) hself
    | positive => exact congrArg (fun o => some o == some .eq) hself

/-- A comparison the other way round has the opposite outcome. -/
theorem compare_swap (u v : UnpackedFloat) :
    UnpackedFloat.compare v u = (UnpackedFloat.compare u v).map Ordering.swap := by
  have hparts (m m' : Nat) (e e' : Int) : (compare e' e).then (compare m' m) =
      ((compare e e').then (compare m m')).swap := by
    rw [Ordering.swap_then, Int.compare_swap, Nat.compare_swap]
  cases u with
  | notANumber => cases v <;> rfl
  | infinity s =>
    cases v with
    | infinity s' => cases s <;> cases s' <;> rfl
    | _ => cases s <;> rfl
  | zero s =>
    cases v with
    | notANumber | zero s' => rfl
    | infinity s' => cases s' <;> rfl
    | finite s' m e h => cases s' <;> rfl
  | finite s m e h =>
    cases v with
    | notANumber => rfl
    | infinity s' => cases s' <;> rfl
    | zero s' => cases s <;> rfl
    | finite s' m' e' h' =>
      cases s with
      | negative =>
        cases s' with
        | negative => exact congrArg (fun o => some (Ordering.swap o)) (hparts m m' e e')
        | positive => rfl
      | positive =>
        cases s' with
        | negative => rfl
        | positive => exact congrArg some (hparts m m' e e')

theorem beq_comm (x y : Float) : (x == y) = (y == x) := by
  show (UnpackedFloat.compare x.toModel.unpack y.toModel.unpack == some .eq) =
    (UnpackedFloat.compare y.toModel.unpack x.toModel.unpack == some .eq)
  rw [compare_swap y.toModel.unpack]
  cases UnpackedFloat.compare y.toModel.unpack x.toModel.unpack with
  | none => rfl
  | some o => cases o <;> rfl

theorem lt_iff_unpack (x y : Float) : x < y ↔ x.toModel.unpack.lt y.toModel.unpack = true := by
  show decide (x.toModel < y.toModel) = true ↔ _
  rw [decide_eq_true_iff]
  exact Iff.rfl

theorem le_iff_unpack (x y : Float) : x ≤ y ↔ x.toModel.unpack.le y.toModel.unpack = true := by
  show decide (x.toModel ≤ y.toModel) = true ↔ _
  rw [decide_eq_true_iff]
  exact Iff.rfl

theorem not_lt_of_le (h : x ≤ y) : ¬ y < x := by
  rw [le_iff_unpack, UnpackedFloat.le] at h
  rw [lt_iff_unpack, UnpackedFloat.lt, compare_swap x.toModel.unpack]
  cases hc : UnpackedFloat.compare x.toModel.unpack y.toModel.unpack with
  | none => exact nofun
  | some o =>
    rw [hc] at h
    cases o with
    | gt => cases h
    | lt | eq => decide

/-- Of two numbers one is at most the other. -/
theorem le_of_not_lt (hx : x.isNaN = false) (hy : y.isNaN = false) (h : ¬ y < x) : x ≤ y := by
  have hx : x.toModel.unpack.isNaN = false := hx
  have hy : y.toModel.unpack.isNaN = false := hy
  rw [lt_iff_unpack, UnpackedFloat.lt, compare_swap x.toModel.unpack] at h
  rw [le_iff_unpack, UnpackedFloat.le]
  have hsome : (UnpackedFloat.compare x.toModel.unpack y.toModel.unpack).isSome = true := by
    generalize x.toModel.unpack = u at hx
    generalize y.toModel.unpack = v at hy
    cases u with
    | notANumber => cases hx
    | infinity s =>
      cases v with
      | notANumber => cases hy
      | infinity s' | zero s' | finite s' => cases s <;> rfl
    | zero s =>
      cases v with
      | notANumber => cases hy
      | zero s' => rfl
      | infinity s' | finite s' => cases s' <;> rfl
    | finite s =>
      cases v with
      | notANumber => cases hy
      | infinity s' => cases s' <;> rfl
      | zero s' => cases s <;> rfl
      | finite s' => cases s <;> cases s' <;> rfl
  obtain ⟨o, ho⟩ := Option.isSome_iff_exists.1 hsome
  rw [ho] at h ⊢
  cases o with
  | gt => exact absurd rfl h
  | lt | eq => rfl

/-- Numbers that can be compared are numbers. -/
theorem isNaN_of_le (h : x ≤ y) : y.isNaN = false := by
  rw [le_iff_unpack, UnpackedFloat.le] at h
  show y.toModel.unpack.isNaN = false
  cases hy : y.toModel.unpack with
  | notANumber =>
    rw [hy] at h
    cases hx : x.toModel.unpack with
    | _ =>
      rw [hx] at h
      cases h
  | infinity s | zero s | finite s m e hm => rfl

/-! ## Infinities and zeros -/

theorem eq_infinity (hx : x.isInf = true) :
    x = infinity ∧ isNegative x = false ∨ x = -infinity ∧ isNegative x = true := by
  have hu : x.toModel.unpack.isInf = true := hx
  cases hunpack : x.toModel.unpack with
  | infinity s =>
    have hself := pack_unpack x
    rw [hunpack] at hself
    subst hself
    cases s with
    | positive => exact .inl ⟨rfl, rfl⟩
    | negative => exact .inr ⟨rfl, rfl⟩
  | notANumber | zero s | finite s m e h =>
    rw [hunpack] at hu
    cases hu

/-- A number that is not finite is an infinity, or none. -/
theorem isInf_of_not_isFinite (hx : x.isNaN = false) (hf : x.isFinite = false) :
    x.isInf = true := by
  have hx : x.toModel.unpack.isNaN = false := hx
  have hf : x.toModel.unpack.isFinite = false := hf
  show x.toModel.unpack.isInf = true
  cases h : x.toModel.unpack with
  | infinity s => rfl
  | notANumber =>
    rw [h] at hx
    cases hx
  | zero s | finite s m e hm =>
    rw [h] at hf
    cases hf

/-! ## Products -/

theorem isNaN_unpack {b : BitVec Format.binary64.numBits} (h : unpackExponent b ≠ -1#11) :
    (UnpackedFloat.unpack Format.binary64 b).isNaN = false := by
  by_cases hz : unpackExponent b = 0#11
  · by_cases hmz : unpackMantissa b = 0#52
    · unfold UnpackedFloat.unpack
      rw [if_neg h, if_pos hz, dif_pos hmz]
      rfl
    · have hpos : 0 < (unpackMantissa b).toNat :=
        Nat.pos_of_ne_zero fun h => hmz (BitVec.eq_of_toNat_eq h)
      rw [unpack_subnormal hz hpos]
      rfl
  · rw [unpack_normal hz h]
    rfl

/-- What is put together from a number is a number. -/
theorem isNaN_unpack_pack {u : UnpackedFloat} (hu : u.isNaN = false) :
    (UnpackedFloat.unpack Format.binary64
      (UnpackedFloat.pack Format.binary64 u)).isNaN = false := by
  cases u with
  | notANumber => cases hu
  | infinity s => cases s <;> rfl
  | zero s => cases s <;> rfl
  | finite s m e h =>
    unfold UnpackedFloat.pack
    dsimp only
    split
    · cases s <;> rfl
    next hlt =>
    split
    · refine isNaN_unpack ?_
      rw [unpackExponent_packComponents]
      intro h
      have hnat := congrArg BitVec.toNat h
      have hones : (-1#11).toNat = 2047 := rfl
      have hbits : 2 ^ Format.binary64.exponentBits = 2048 := rfl
      have hbits' : (2 : Nat) ^ (11 : Nat) = 2048 := rfl
      rw [hones, BitVec.toNat_ofNat] at hnat
      have hmod := Nat.mod_le
        (e + Format.binary64.exponentBias + Format.binary64.mantissaBitsWithoutImplicit).toNat
        (2 ^ Format.binary64.exponentBits)
      omega
    · refine isNaN_unpack ?_
      rw [unpackExponent_packComponents]
      decide

/-- The product with a finite number other than zero is a number. -/
theorem isNaN_mul_eq_false (hx : x.isNaN = false) (hy : y.isFinite = true)
    (hzero : (y == 0.0) = false) : (x * y).isNaN = false := by
  have hx : x.toModel.unpack.isNaN = false := hx
  have hy : y.toModel.unpack.isFinite = true := hy
  have hzero : UnpackedFloat.beq y.toModel.unpack (.zero .positive) = false := hzero
  refine isNaN_unpack_pack (u := UnpackedFloat.mul Format.binary64 x.toModel.unpack
    y.toModel.unpack) ?_
  cases hv : y.toModel.unpack with
  | notANumber | infinity s =>
    rw [hv] at hy
    cases hy
  | zero s =>
    rw [hv] at hzero
    cases hzero
  | finite s m e h =>
    cases hu : x.toModel.unpack with
    | notANumber =>
      rw [hu] at hx
      cases hx
    | infinity s' | zero s' => rfl
    | finite s' m' e' h' =>
      show (roundWithAccuracy Format.binary64 (s' * s) (m' * m) (e' + e) .exact).isNaN = false
      unfold roundWithAccuracy
      dsimp only
      rw [apply_dite UnpackedFloat.isNaN]
      exact ite_self _

end

end ModelInputs.Number
