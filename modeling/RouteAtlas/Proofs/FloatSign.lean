import Mathlib
import RouteAtlas.Numeral.FloatText

/-!
# Floating-point numbers that are not negative

What `0 ≤ x` says of the bits of `x`: it is a number, it is not below zero, and if it is infinite it is
the positive infinity. A number that is not below zero is one (`nonneg_iff`), and so a whole number that is
not below zero is rounded to one (`isNaN_of_floatOfInt?`).
-/

namespace RouteAtlas.Numeral

open Float.Model (Format UnpackedFloat)
open Float.Model.UnpackedFloat (Sign)

variable {x : Float}

theorem unpack_zero : (0 : Float).toModel.unpack = .zero .positive := rfl

theorem compare_of_nonneg (h : 0 ≤ x) :
    ((UnpackedFloat.zero .positive).compare x.toModel.unpack).any (·.isLE) = true := by
  have hle : (0 : Float).toModel ≤ x.toModel := of_decide_eq_true h
  rw [← unpack_zero]
  exact hle

theorem isNaN_of_nonneg (h : 0 ≤ x) : x.isNaN = false := by
  have hcompare := compare_of_nonneg h
  unfold Float.isNaN Float.Model.isNaN
  cases hx : x.toModel.unpack with
  | notANumber =>
    rw [hx] at hcompare
    exact absurd hcompare (by decide)
  | infinity s => rfl
  | zero s => rfl
  | finite s m e hm => rfl

theorem not_lt_of_nonneg (h : 0 ≤ x) : ¬ x < 0 := by
  intro hlt
  have hcompare := compare_of_nonneg h
  have hbelow : x.toModel < (0 : Float).toModel := of_decide_eq_true hlt
  have hbelow' : (x.toModel.unpack.compare (.zero .positive) == some .lt) = true := by
    rw [← unpack_zero]
    exact hbelow
  cases hx : x.toModel.unpack with
  | notANumber =>
    rw [hx] at hcompare
    exact absurd hcompare (by decide)
  | infinity s =>
    rw [hx] at hcompare hbelow'
    cases s with
    | positive => exact absurd hbelow' (by decide)
    | negative => exact absurd hcompare (by decide)
  | zero s =>
    rw [hx] at hbelow'
    cases s <;> exact absurd hbelow' (by decide)
  | finite s m e hm =>
    rw [hx] at hcompare hbelow'
    cases s with
    | positive => exact absurd hbelow' (by simp [UnpackedFloat.compare])
    | negative => exact absurd hcompare (by simp [UnpackedFloat.compare])

/-- The bits of the positive infinity. -/
theorem eq_of_unpack_infinity {b : BitVec Format.binary64.numBits}
    (h : UnpackedFloat.unpack Format.binary64 b = .infinity .positive) :
    b = 0x7FF0000000000000#64 := by
  unfold UnpackedFloat.unpack at h
  dsimp only at h
  split at h
  · rename_i hexponent
    split at h
    · rename_i hmantissa
      have hsign : UnpackedFloat.unpackSign b = 0#1 := by
        have hpositive := UnpackedFloat.infinity.inj h
        unfold Sign.ofBitVec at hpositive
        split at hpositive
        · assumption
        · exact absurd hpositive (by simp)
      have he : b.toNat >>> 52 % 2048 = 2047 := by
        simpa [UnpackedFloat.unpackExponent] using congrArg BitVec.toNat hexponent
      have hm : b.toNat % 4503599627370496 = 0 := by
        simpa [UnpackedFloat.unpackMantissa] using congrArg BitVec.toNat hmantissa
      have hs : b.toNat >>> 63 % 2 = 0 := by
        simpa [UnpackedFloat.unpackSign] using congrArg BitVec.toNat hsign
      have hlt : b.toNat < 18446744073709551616 := b.isLt
      rw [Nat.shiftRight_eq_div_pow] at he hs
      refine BitVec.eq_of_toNat_eq ?_
      show b.toNat = 9218868437227405312
      omega
    · exact absurd h (by simp)
  · split at h
    · split at h <;> exact absurd h (by simp)
    · exact absurd h (by simp)

/-- There is one infinite number that is not negative. -/
theorem eq_infinity_of_nonneg (h : 0 ≤ x) (hinf : x.isInf = true) : x = 1 / 0 := by
  have hcompare := compare_of_nonneg h
  have hbits : x.toModel.toBits.toBitVec = 0x7FF0000000000000#64 := by
    refine eq_of_unpack_infinity ?_
    show x.toModel.unpack = .infinity .positive
    have hinf' : x.toModel.unpack.isInf = true := hinf
    cases hx : x.toModel.unpack with
    | infinity s =>
      rw [hx] at hcompare
      cases s with
      | positive => rfl
      | negative => exact absurd hcompare (by decide)
    | notANumber | zero | finite =>
      rw [hx] at hinf'
      exact absurd hinf' (by simp [UnpackedFloat.isInf])
  have hbits' : (1 / 0 : Float).toModel.toBits.toBitVec = 0x7FF0000000000000#64 := by
    decide +kernel
  generalize (1 / 0 : Float) = y at hbits' ⊢
  obtain ⟨⟨⟨bits⟩, valid⟩⟩ := x
  obtain ⟨⟨⟨bits'⟩, valid'⟩⟩ := y
  cases hbits.trans hbits'.symm
  rfl

theorem isNaN_eq_false_iff : x.isNaN = false ↔ x.toModel.unpack ≠ .notANumber := by
  unfold Float.isNaN Float.Model.isNaN
  cases x.toModel.unpack <;> simp [UnpackedFloat.isNaN]

/-- A number that is not below zero is at least zero. -/
theorem nonneg_iff : 0 ≤ x ↔ x.isNaN = false ∧ ¬ x < 0 := by
  refine ⟨fun h => ⟨isNaN_of_nonneg h, not_lt_of_nonneg h⟩, fun ⟨hnumber, hlt⟩ => ?_⟩
  rw [isNaN_eq_false_iff] at hnumber
  have hbelow : (x.toModel.unpack.compare (.zero .positive) == some .lt) = false := by
    rw [← unpack_zero]
    exact Bool.eq_false_iff.mpr fun h => hlt (decide_eq_true h)
  refine decide_eq_true ?_
  show ((UnpackedFloat.zero .positive).compare x.toModel.unpack).any (·.isLE) = true
  cases hx : x.toModel.unpack with
  | notANumber => exact absurd hx hnumber
  | infinity s =>
    rw [hx] at hbelow
    cases s with
    | positive => rfl
    | negative => exact absurd hbelow (by decide)
  | zero s => cases s <;> rfl
  | finite s m e hm =>
    rw [hx] at hbelow
    cases s with
    | positive => rfl
    | negative => exact absurd hbelow (by simp [UnpackedFloat.compare])

/-! ## Operations that give a number

Neither rounding nor packing gives the number that is none, and neither does a product with a finite
number. -/

theorem unpack_packComponents_ne_notANumber {spec : Format} {sign : Sign}
    {exponent : BitVec spec.exponentBits} {mantissa : BitVec spec.mantissaBitsWithoutImplicit}
    (h : exponent ≠ -1#_ ∨ mantissa = 0#_) :
    UnpackedFloat.unpack spec (UnpackedFloat.packComponents spec sign exponent mantissa) ≠
      .notANumber := by
  unfold UnpackedFloat.unpack
  simp only [UnpackedFloat.unpackExponent_packComponents, UnpackedFloat.unpackMantissa_packComponents]
  split
  · rename_i hexponent
    rw [if_pos (h.resolve_left (not_not.mpr hexponent))]
    simp
  · split
    · split <;> simp
    · simp

/-- A number is still one when it has been packed. -/
theorem unpack_pack_ne_notANumber {u : UnpackedFloat} (h : u ≠ .notANumber) :
    (Float.Model.pack u).unpack ≠ .notANumber := by
  show UnpackedFloat.unpack Format.binary64 (UnpackedFloat.pack Format.binary64 u) ≠ .notANumber
  fun_cases UnpackedFloat.pack Format.binary64 u with
  | case1 => exact absurd rfl h
  | case2 s => exact unpack_packComponents_ne_notANumber (Or.inr rfl)
  | case3 s => exact unpack_packComponents_ne_notANumber (Or.inr rfl)
  | case4 s m e hm biased hlarge => exact unpack_packComponents_ne_notANumber (Or.inr rfl)
  | case5 s m e hm bits biased hsmall hnormal =>
    refine unpack_packComponents_ne_notANumber (Or.inl fun hexponent => ?_)
    have hbound : biased + 1 < 2048 := Nat.not_le.mp hsmall
    have hones : (BitVec.ofNat 11 biased).toNat = 2047 := congrArg BitVec.toNat hexponent
    rw [BitVec.toNat_ofNat] at hones
    omega
  | case6 s m e hm bits biased hsmall hsubnormal =>
    exact unpack_packComponents_ne_notANumber (Or.inl (by decide))

theorem roundWithAccuracy_ne_notANumber (spec : Format) (sign : Sign) (m : Nat) (e : Int)
    (accuracy : UnpackedFloat.Accuracy) :
    UnpackedFloat.roundWithAccuracy spec sign m e accuracy ≠ .notANumber := by
  unfold UnpackedFloat.roundWithAccuracy
  dsimp only
  split <;> simp

/-- A product with a finite number is a number. -/
theorem mul_finite_ne_notANumber {u : UnpackedFloat} (h : u ≠ .notANumber) (spec : Format) (sign : Sign)
    (m : Nat) (e : Int) (hm : 0 < m) : UnpackedFloat.mul spec u (.finite sign m e hm) ≠ .notANumber := by
  cases u with
  | notANumber => exact absurd rfl h
  | finite => exact roundWithAccuracy_ne_notANumber _ _ _ _ _
  | infinity | zero => simp [UnpackedFloat.mul]

theorem ofNat_ne_notANumber (spec : Format) (n : Nat) : UnpackedFloat.ofNat spec n ≠ .notANumber := by
  unfold UnpackedFloat.ofNat UnpackedFloat.ofInt UnpackedFloat.normalize
  split
  · exact roundWithAccuracy_ne_notANumber _ _ _ _ _
  · simp
  · exact roundWithAccuracy_ne_notANumber _ _ _ _ _

theorem neg_ne_notANumber {u : UnpackedFloat} (h : u ≠ .notANumber) : u.neg ≠ .notANumber := by
  cases u with
  | notANumber => exact absurd rfl h
  | finite | infinity | zero => simp [UnpackedFloat.neg]

theorem ofScientific_ne_notANumber (n : Nat) :
    UnpackedFloat.ofScientific Format.binary64 n 0 ≠ .notANumber := by
  unfold UnpackedFloat.ofScientific
  split
  · simp
  split
  · simp
  split
  · simp
  split
  · exact mul_finite_ne_notANumber (u := .finite ..) (by simp) _ _ _ _ _
  · rename_i h
    exact absurd (Int.le_refl 0) h

theorem isNaN_neg (h : x.isNaN = false) : (-x).isNaN = false := by
  rw [isNaN_eq_false_iff] at h ⊢
  exact unpack_pack_ne_notANumber (neg_ne_notANumber h)

theorem isNaN_ofScientific (n : Nat) : (Float.ofScientific n false 0).isNaN = false := by
  rw [isNaN_eq_false_iff]
  unfold Float.ofScientific
  split
  · have hone : (Float.ofBits 0x3FF0000000000000).toModel.unpack =
        .finite .positive 4503599627370496 (-52) (by decide) := rfl
    show (Float.Model.pack (UnpackedFloat.mul _ (Float.Model.pack _).unpack
      (Float.ofBits 0x3FF0000000000000).toModel.unpack)).unpack ≠ .notANumber
    rw [hone]
    have hwhole := unpack_pack_ne_notANumber (ofNat_ne_notANumber Format.binary64 n.toUInt64.toNat)
    exact unpack_pack_ne_notANumber (mul_finite_ne_notANumber hwhole _ _ _ _ _)
  · exact unpack_pack_ne_notANumber (ofScientific_ne_notANumber n)

/-- What a whole number is rounded to is a number. -/
theorem isNaN_of_floatOfInt? {n : Int} (h : floatOfInt? n = some x) : x.isNaN = false := by
  have hmagnitude : ∀ digits : Nat, (floatOfDecimal false digits 0).isNaN = false := by
    intro digits
    unfold floatOfDecimal
    simp only [Bool.false_eq_true, if_false]
    split
    · decide +kernel
    split
    · decide +kernel
    split
    · decide +kernel
    · exact isNaN_ofScientific digits
  have hsigned : ∀ (negative : Bool) (digits : Nat),
      (floatOfDecimal negative digits 0).isNaN = false := by
    intro negative digits
    cases negative with
    | false => exact hmagnitude digits
    | true => exact isNaN_neg (hmagnitude digits)
  unfold floatOfInt? at h
  dsimp only at h
  split at h
  · contradiction
  · cases h
    exact hsigned _ _

end RouteAtlas.Numeral
