import DotScript.Proofs.Number.Equality
import DotScript.Proofs.Number.Literal
import Mathlib.Algebra.Order.Field.Rat
import Mathlib.Tactic.FieldSimp

/-!
# Integers as numbers

A number is an integer of its sign if its magnitude is a natural. Below `wholeLimit` the integer is
found, and as a number it is the same but for the sign of zero, `Integral.exists_whole`.
-/

namespace DotScript.Number

variable {x : Number} {k : Nat}

/-- The exact value of the parts of a number. -/
def Binary.value (b : Binary) : ℚ := b.mantissa * 2 ^ b.exponent

/-- Whether a number is an integer of magnitude below `2 ^ 53`. -/
def Integral (x : Number) : Prop :=
  x.isFinite = true ∧ ∃ k : Nat, k < 2 ^ 53 ∧ x.toBinary.value = k

theorem Binary.natural?_of_value {b : Binary} (h : b.value = k) : b.natural? = some k := by
  rw [value] at h
  unfold natural?
  split
  · next hneg =>
    obtain ⟨n, hn⟩ : ∃ n : Nat, b.exponent = -n := ⟨b.exponent.natAbs, by omega⟩
    have hmantissa : b.mantissa = 2 ^ n * k := by
      rw [hn, zpow_neg, zpow_natCast] at h
      field_simp at h
      exact_mod_cast h
    simp only [hn, Int.natAbs_neg, Int.natAbs_natCast, Nat.shiftLeft_eq, Nat.one_mul, hmantissa,
      Nat.mul_mod_right, if_true, Nat.mul_div_cancel_left _ (Nat.two_pow_pos n)]
  · next hneg =>
    obtain ⟨n, hn⟩ : ∃ n : Nat, b.exponent = n := ⟨b.exponent.natAbs, by omega⟩
    rw [hn, zpow_natCast] at h
    rw [hn, Int.natAbs_natCast, Nat.shiftLeft_eq]
    exact congrArg some (by exact_mod_cast h)

theorem whole?_of_value (hfinite : x.isFinite = true) (h : x.toBinary.value = k)
    (hk : k < 2 ^ 53) : x.whole? = some (if x.isNegative then -(k : Int) else k) := by
  have hlimit : k < wholeLimit := hk
  simp only [whole?, if_pos hfinite, Binary.natural?_of_value h, if_pos hlimit]

/-! ## Magnitudes -/

theorem magnitude_mk_magnitude (x : Number) : (⟨x.magnitude⟩ : Number).magnitude = x.magnitude := by
  apply UInt64.toNat_inj.mp
  rw [magnitude_toNat, magnitude_toNat, Nat.mod_mod]

theorem toBinary_mk_magnitude (x : Number) : (⟨x.magnitude⟩ : Number).toBinary = x.toBinary := by
  rw [toBinary, toBinary, magnitude_mk_magnitude]

/-- The natural that a magnitude is, as a number. -/
theorem ofNat_of_value (hfinite : x.isFinite = true) (h : x.toBinary.value = k) :
    ofNat k = ⟨x.magnitude⟩ := by
  have hlt : x.magnitude < infinityBits := of_decide_eq_true hfinite
  have hlexable : (⟨x.magnitude⟩ : Number).lexable = true := decide_eq_true (UInt64.le_of_lt hlt)
  have hinfinite : (⟨x.magnitude⟩ : Number).isInfinite = false := by
    rw [isInfinite, magnitude_mk_magnitude, beq_eq_false_iff_ne]
    exact UInt64.ne_of_lt hlt
  have hliteral : (⟨x.magnitude⟩ : Number).literal = (Nat.toDigits 10 k, []) := by
    simp only [literal, hinfinite, Bool.false_eq_true, if_false, toBinary_mk_magnitude,
      Binary.natural?_of_value h]
  have := ofDigits_literal hlexable
  rwa [hliteral, ofDigits_nil, digitsValue_toDigits] at this

theorem mod_xor_two_pow {n i : Nat} (hle : 2 ^ i ≤ n) (hlt : n < 2 ^ (i + 1)) :
    (n % 2 ^ i) ^^^ 2 ^ i = n := by
  apply Nat.eq_of_testBit_eq
  intro j
  rw [Nat.testBit_xor, Nat.testBit_mod_two_pow, Nat.testBit_two_pow]
  rcases Nat.lt_trichotomy j i with h | rfl | h
  · simp [h, h.ne']
  · simp [Nat.testBit_of_two_pow_le_and_two_pow_add_one_gt hle hlt]
  · have hbit : n.testBit j = false :=
      Nat.testBit_lt_two_pow (Nat.lt_of_lt_of_le hlt (Nat.pow_le_pow_right (by decide) h))
    simp [hbit, h.ne, Nat.lt_asymm h]

/-- A number is its magnitude with its sign. -/
theorem eq_of_magnitude (x : Number) :
    (if x.isNegative then Number.neg ⟨x.magnitude⟩ else ⟨x.magnitude⟩) = x := by
  obtain ⟨bits⟩ := x
  have hsign : (0x8000000000000000 : UInt64).toNat = 2 ^ 63 := rfl
  have hmagnitude := magnitude_toNat ⟨bits⟩
  split
  · next hneg =>
    refine congrArg Number.mk (UInt64.toNat_inj.mp ?_)
    rw [UInt64.toNat_xor, hmagnitude, hsign]
    exact mod_xor_two_pow (UInt64.le_iff_toNat_le.mp (of_decide_eq_true hneg)) bits.toNat_lt
  · next hpos =>
    refine congrArg Number.mk (UInt64.toNat_inj.mp ?_)
    have hlt : ¬ 2 ^ 63 ≤ bits.toNat := fun h => hpos (decide_eq_true (UInt64.le_iff_toNat_le.mpr h))
    rw [hmagnitude, Nat.mod_eq_of_lt (Nat.lt_of_not_le hlt)]

/-! ## The sign of zero -/

theorem isZero_iff_of_value (hfinite : x.isFinite = true) (h : x.toBinary.value = k) :
    x.isZero = true ↔ k = 0 := by
  rw [isZero, beq_iff_eq]
  constructor
  · intro hzero
    have hbinary : x.toBinary = ⟨0, -1074, 2⟩ := by
      rw [toBinary, hzero]
      rfl
    rw [hbinary, Binary.value, Nat.cast_zero, zero_mul] at h
    exact_mod_cast h.symm
  · rintro rfl
    exact congrArg Number.bits (ofNat_of_value hfinite h).symm

/-- An integer is the natural of its magnitude, with its sign unless that is zero. -/
theorem unsigned_of_value (hfinite : x.isFinite = true) (h : x.toBinary.value = k) :
    x.unsigned = if x.isNegative ∧ k ≠ 0 then (ofNat k).neg else ofNat k := by
  rw [unsigned]
  by_cases hk : k = 0
  · rw [if_pos ((isZero_iff_of_value hfinite h).mpr hk), if_neg fun hand => hand.2 hk, hk]
    rfl
  · rw [if_neg ((isZero_iff_of_value hfinite h).not.mpr hk), ofNat_of_value hfinite h]
    simp only [hk, ne_eq, not_false_eq_true, and_true]
    exact (eq_of_magnitude x).symm

theorem ofInt_of_value (hfinite : x.isFinite = true) (h : x.toBinary.value = k) :
    ofInt (if x.isNegative then -(k : Int) else k) = x.unsigned := by
  rw [unsigned_of_value hfinite h, ofInt]
  cases x.isNegative with
  | false =>
    simp only [Bool.false_eq_true, if_false, false_and, Int.natAbs_natCast]
    exact if_neg (Int.natCast_nonneg k).not_gt
  | true =>
    simp only [if_true, true_and, Int.natAbs_neg, Int.natAbs_natCast]
    exact if_congr (by omega) rfl rfl

/-- The integer of a number is the number again but for the sign of zero. -/
theorem Integral.exists_whole (h : x.Integral) :
    ∃ i : Int, x.whole? = some i ∧ i.natAbs < 2 ^ 53 ∧ ofInt i = x.unsigned := by
  obtain ⟨hfinite, k, hk, hvalue⟩ := h
  refine ⟨_, whole?_of_value hfinite hvalue hk, ?_, ofInt_of_value hfinite hvalue⟩
  split
  · rwa [Int.natAbs_neg, Int.natAbs_natCast]
  · rwa [Int.natAbs_natCast]

end DotScript.Number
