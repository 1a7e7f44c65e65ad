import DotScript.Number.Basic
import Mathlib.Logic.Basic

/-!
# Equality of numbers

Numbers that are not a not-a-number are equal iff they have one bit pattern or are both zeros. With
zero for the negative zero, `Number.unsigned`, only the pattern is left to compare.
-/

namespace DotScript.Number

variable {x y z : Number}

theorem eq_iff : x.eq y = true ↔
    x.isNaN = false ∧ y.isNaN = false ∧ (x = y ∨ x.isZero = true ∧ y.isZero = true) := by
  have hbits : x.bits = y.bits ↔ x = y := ⟨congrArg Number.mk, congrArg Number.bits⟩
  simp only [eq, Bool.and_eq_true, Bool.not_eq_true', Bool.or_eq_true, beq_iff_eq, hbits, and_assoc]

theorem eq_self_iff (x : Number) : x.eq x = true ↔ x.isNaN = false := by
  rw [eq_iff]
  exact ⟨fun h => h.1, fun h => ⟨h, h, .inl rfl⟩⟩

theorem eq_symm (h : x.eq y = true) : y.eq x = true := by
  rw [eq_iff] at h ⊢
  exact ⟨h.2.1, h.1, h.2.2.imp Eq.symm And.symm⟩

theorem eq_trans (h : x.eq y = true) (h' : y.eq z = true) : x.eq z = true := by
  rw [eq_iff] at h h' ⊢
  refine ⟨h.1, h'.2.1, ?_⟩
  rcases h.2.2 with rfl | ⟨hx, hy⟩
  · exact h'.2.2
  · rcases h'.2.2 with rfl | ⟨-, hz⟩
    · exact .inr ⟨hx, hy⟩
    · exact .inr ⟨hx, hz⟩

/-! ## One zero -/

/-- The number, with zero for the negative zero. -/
def unsigned (x : Number) : Number := if x.isZero then zero else x

theorem isZero_zero : zero.isZero = true := by decide

theorem isNaN_of_isZero (h : x.isZero = true) : x.isNaN = false := by
  rw [isZero, beq_iff_eq] at h
  rw [isNaN, h]
  decide

theorem isNaN_of_isFinite (h : x.isFinite = true) : x.isNaN = false :=
  decide_eq_false (UInt64.not_lt.mpr (UInt64.le_of_lt (of_decide_eq_true h)))

theorem unsigned_eq (h : x.isNaN = false) : x.unsigned.eq x = true := by
  unfold unsigned
  split
  · next hzero => exact eq_iff.mpr ⟨isNaN_of_isZero isZero_zero, h, .inr ⟨isZero_zero, hzero⟩⟩
  · exact (eq_self_iff x).mpr h

theorem unsigned_inj : x.unsigned = y.unsigned ↔ x = y ∨ x.isZero = true ∧ y.isZero = true := by
  unfold unsigned
  constructor
  · intro h
    split at h <;> split at h
    · next hx hy => exact .inr ⟨hx, hy⟩
    · next hy => exact absurd (h ▸ isZero_zero) hy
    · next hx _ => exact absurd (h ▸ isZero_zero) hx
    · exact .inl h
  · rintro (rfl | ⟨hx, hy⟩)
    · rfl
    · rw [if_pos hx, if_pos hy]

end DotScript.Number
