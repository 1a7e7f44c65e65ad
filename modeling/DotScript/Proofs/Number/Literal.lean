import DotScript.Number.Rounding
import DotScript.Number.Whole
import Mathlib.Tactic.Ring

/-!
# Numbers as literals

A number that is not below zero and not a not-a-number can be written with digits and a point:
`literal` writes its exact value, or for infinity a value beyond the largest number. Reading the
literal gives the number back, `ofDigits_literal`, and nothing else can be read, `lexable_ofDigits`.
-/

namespace DotScript.Number

/-- Whether a literal is read as the number. -/
def lexable (x : Number) : Bool := x.bits ≤ infinityBits

/-- The digits of a natural behind enough zeros to make `n` of them. -/
def padded (n k : Nat) : List Char :=
  List.replicate (n - (Nat.toDigits 10 k).length) '0' ++ Nat.toDigits 10 k

/-- The least power of two that is beyond the largest number. -/
def overflow : Nat := 2 ^ 1024

/-- The digits of a number before and behind the point. -/
def literal (x : Number) : List Char × List Char :=
  if x.isInfinite then (Nat.toDigits 10 overflow, [])
  else
    let b := x.toBinary
    match b.natural? with
    | some n => (Nat.toDigits 10 n, [])
    | none =>
      let places := b.exponent.natAbs
      let digits := b.mantissa * 5 ^ places
      (Nat.toDigits 10 (digits / 10 ^ places), padded places (digits % 10 ^ places))

/-! ## Rounding leaves exact values alone -/

theorem lexable_ofRatio (num den : Nat) : (ofRatio num den).lexable = true := by
  unfold ofRatio
  split
  · rfl
  · simp only
    split
    · next hlt =>
      simp only [lexable, decide_eq_true_eq, UInt64.le_iff_toNat_le]
      rw [Nat.toUInt64, UInt64.toNat_ofNat']
      exact Nat.le_trans (Nat.mod_le _ _) (Nat.le_of_lt hlt)
    · rfl

/-- Whatever a literal is read as can be written. -/
theorem lexable_ofDigits (whole fraction : List Char) : (ofDigits whole fraction).lexable = true := by
  unfold ofDigits ofDecimal
  split <;> exact lexable_ofRatio ..

theorem roundDiv_mul (n : Nat) {d : Nat} (hd : 0 < d) : roundDiv (n * d) d = n := by
  simp [roundDiv, Nat.mul_div_cancel _ hd, hd]

theorem scaled_snd_pos (num : Nat) {den : Nat} (h : 0 < den) (e : Int) : 0 < (scaled num den e).2 := by
  unfold scaled
  split
  · exact h
  · exact Nat.shiftLeft_eq .. ▸ Nat.mul_pos h (Nat.two_pow_pos _)

/-- One place higher the quotient is half as large. -/
theorem scaled_succ (num den : Nat) (e : Int) :
    2 * (scaled num den (e + 1)).1 * (scaled num den e).2 =
      (scaled num den e).1 * (scaled num den (e + 1)).2 := by
  unfold scaled
  rcases Int.lt_trichotomy e (-1) with h | rfl | h
  · have habs : e.natAbs = (e + 1).natAbs + 1 := by omega
    simp only [if_pos (show e < 0 by omega), if_pos (show e + 1 < 0 by omega), habs,
      Nat.shiftLeft_eq, Nat.pow_succ]
    ring
  · show 2 * num * den = (num <<< 1) * (den <<< 0)
    simp only [Nat.shiftLeft_eq, Nat.pow_zero, Nat.pow_one]
    ring
  · have habs : (e + 1).natAbs = e.natAbs + 1 := by omega
    simp only [if_neg (show ¬ e < 0 by omega), if_neg (show ¬ e + 1 < 0 by omega), habs,
      Nat.shiftLeft_eq, Nat.pow_succ]
    ring

theorem log2_shiftLeft {n : Nat} (hn : n ≠ 0) (k : Nat) : (n <<< k).log2 = n.log2 + k := by
  have hpos : n <<< k ≠ 0 := by simp [hn]
  rw [Nat.log2_eq_iff hpos, Nat.shiftLeft_eq]
  constructor
  · rw [Nat.pow_add]
    exact Nat.mul_le_mul_right _ (Nat.log2_self_le hn)
  · rw [Nat.add_right_comm, Nat.pow_add]
    exact Nat.mul_lt_mul_of_pos_right Nat.lt_log2_self (Nat.two_pow_pos k)

theorem log2_mul {m n : Nat} (hm : m ≠ 0) (hn : n ≠ 0) :
    m.log2 + n.log2 ≤ (m * n).log2 ∧ (m * n).log2 ≤ m.log2 + n.log2 + 1 := by
  have hmn : m * n ≠ 0 := Nat.mul_ne_zero hm hn
  constructor
  · rw [Nat.le_log2 hmn, Nat.pow_add]
    exact Nat.mul_le_mul (Nat.log2_self_le hm) (Nat.log2_self_le hn)
  · rw [← Nat.lt_succ_iff, Nat.log2_lt hmn,
      show (m.log2 + n.log2 + 1).succ = (m.log2 + 1) + (n.log2 + 1) by omega, Nat.pow_add]
    exact Nat.mul_lt_mul'' Nat.lt_log2_self Nat.lt_log2_self

theorem log2_scaled {num den : Nat} (hnum : num ≠ 0) (hden : den ≠ 0) (e : Int) :
    ((scaled num den e).1.log2 : Int) - (scaled num den e).2.log2 =
      (num.log2 : Int) - den.log2 - e := by
  unfold scaled
  split
  · simp only [log2_shiftLeft hnum]
    omega
  · simp only [log2_shiftLeft hden]
    omega

/-- The exponent of a number is found again from its exact value. -/
theorem lastBit_eq {num den m : Nat} {e : Int} (hden : 0 < den) (hm : 0 < m)
    (hlt : m < 2 * fractionUnit) (hleast : -1074 ≤ e) (hunit : fractionUnit ≤ m ∨ e = -1074)
    (hexact : (scaled num den e).1 = m * (scaled num den e).2) : lastBit num den = e := by
  have hd := scaled_snd_pos num hden e
  have hnum : num ≠ 0 := by
    rintro rfl
    have hzero : (scaled 0 den e).1 = 0 := by
      unfold scaled
      split <;> simp
    rw [hzero] at hexact
    exact absurd hexact.symm (Nat.mul_pos hm hd).ne'
  have hlog := log2_scaled hnum hden.ne' e
  obtain ⟨hlow, hhigh⟩ := log2_mul hm.ne' hd.ne'
  rw [hexact] at hlog
  have hmlog : m.log2 ≤ 52 :=
    Nat.lt_succ_iff.1 ((Nat.log2_lt hm.ne').2 (Nat.lt_of_lt_of_eq hlt (by decide)))
  have hquotient : (scaled num den e).1 / (scaled num den e).2 = m := by
    rw [hexact, Nat.mul_div_cancel _ hd]
  have hguess : (num.log2 : Int) - den.log2 - 52 = e + (m.log2 - 52) ∨
      (num.log2 : Int) - den.log2 - 52 = e + (m.log2 - 52) + 1 := by omega
  unfold lastBit
  simp only
  by_cases hfull : fractionUnit ≤ m
  · -- With all bits the guess is right or one too large, and then the quotient is too small.
    have hmlog' : 52 ≤ m.log2 := (Nat.le_log2 hm.ne').2 (Nat.le_trans (by decide) hfull)
    rcases hguess with hguess | hguess
    · rw [hguess, show e + ((m.log2 : Int) - 52) = e by omega, hquotient, if_neg (by omega)]
      omega
    · have hhalf : (scaled num den (e + 1)).1 / (scaled num den (e + 1)).2 < fractionUnit := by
        rw [Nat.div_lt_iff_lt_mul (scaled_snd_pos _ hden _)]
        have hsucc := scaled_succ num den e
        rw [hexact] at hsucc
        have hhalf : 2 * (scaled num den (e + 1)).1 = m * (scaled num den (e + 1)).2 :=
          Nat.eq_of_mul_eq_mul_right hd (by rw [hsucc]; ring)
        have := Nat.mul_lt_mul_of_pos_right hlt (scaled_snd_pos num hden (e + 1))
        rw [Nat.mul_assoc] at this
        omega
      rw [hguess, show e + ((m.log2 : Int) - 52) + 1 = e + 1 by omega, if_pos hhalf]
      omega
  · -- With fewer bits the guess is at most the least exponent, which is the exponent then.
    have hmlog' : m.log2 < 52 :=
      (Nat.log2_lt hm.ne').2 (Nat.lt_of_lt_of_eq (Nat.lt_of_not_le hfull) (by decide))
    have heq : e = -1074 := hunit.resolve_left hfull
    split <;> omega

/-- The parts of a number that is finite and not below zero make up its bit pattern. -/
structure Binary.Composes (b : Binary) (bits : Nat) : Prop where
  total : (b.exponent + 1074).toNat * fractionUnit + b.mantissa = bits
  lt : b.mantissa < 2 * fractionUnit
  least : -1074 ≤ b.exponent
  unit : fractionUnit ≤ b.mantissa ∨ b.exponent = -1074

theorem magnitude_toNat (x : Number) : x.magnitude.toNat = x.bits.toNat % 2 ^ 63 := by
  rw [magnitude, UInt64.toNat_and, show (0x7FFFFFFFFFFFFFFF : UInt64).toNat = 2 ^ 63 - 1 from rfl,
    Nat.and_two_pow_sub_one_eq_mod]

theorem magnitude_of_lexable {x : Number} (hx : x.lexable = true) : x.magnitude = x.bits := by
  have hle : x.bits.toNat ≤ infinityBits.toNat :=
    UInt64.le_iff_toNat_le.1 (of_decide_eq_true hx)
  apply UInt64.toNat_inj.1
  rw [magnitude_toNat]
  exact Nat.mod_eq_of_lt (Nat.lt_of_le_of_lt hle (by decide))

theorem toBinary_composes {x : Number} (hx : x.lexable = true) :
    x.toBinary.Composes x.bits.toNat := by
  have hunit : 0 < fractionUnit := by decide
  have hmod := Nat.mod_lt x.bits.toNat hunit
  have hdiv := Nat.div_add_mod' x.bits.toNat fractionUnit
  unfold toBinary
  rw [magnitude_of_lexable hx]
  simp only
  split
  · next h =>
    rw [h] at hdiv
    exact ⟨by simpa using hdiv, by simp only; omega, Int.le_refl _, .inr rfl⟩
  · next h =>
    obtain ⟨e, he⟩ := Nat.exists_eq_succ_of_ne_zero h
    rw [he, Nat.succ_mul] at hdiv
    rw [he]
    have hexponent : (Int.ofNat e.succ - 1075 + 1074).toNat = e := by
      rw [Int.ofNat_eq_natCast]
      omega
    have hleast : (-1074 : Int) ≤ Int.ofNat e.succ - 1075 := by
      rw [Int.ofNat_eq_natCast]
      omega
    refine ⟨?_, by simp only; omega, hleast, .inl (Nat.le_add_right _ _)⟩
    simp only [hexponent]
    omega

/-- The exact value of a number rounds to the number. -/
theorem ofRatio_eq {x : Number} {num den : Nat} (hx : x.lexable = true)
    (hfinite : x.isInfinite = false) (hden : 0 < den)
    (hexact : (scaled num den x.toBinary.exponent).1 =
      x.toBinary.mantissa * (scaled num den x.toBinary.exponent).2) : ofRatio num den = x := by
  have hparts := toBinary_composes hx
  have hlt : x.bits.toNat < infinityBits.toNat := by
    have hle : x.bits.toNat ≤ infinityBits.toNat :=
      UInt64.le_iff_toNat_le.1 (of_decide_eq_true hx)
    apply Nat.lt_of_le_of_ne hle
    intro heq
    rw [isInfinite, magnitude_of_lexable hx, UInt64.toNat_inj.1 heq] at hfinite
    exact absurd hfinite (by decide)
  have hbits : x = ⟨x.bits.toNat.toUInt64⟩ := by
    rw [Nat.toUInt64, UInt64.ofNat_toNat]
  unfold ofRatio
  split
  · next hnum =>
    have hmantissa : x.toBinary.mantissa = 0 := by
      subst hnum
      have hzero : (scaled 0 den x.toBinary.exponent).1 = 0 := by
        unfold scaled
        split <;> simp
      rw [hzero] at hexact
      exact (Nat.mul_eq_zero.1 hexact.symm).resolve_right (scaled_snd_pos _ hden _).ne'
    have hexponent : x.toBinary.exponent = -1074 :=
      hparts.unit.resolve_left (by rw [hmantissa]; decide)
    have htotal := hparts.total
    rw [hmantissa, hexponent] at htotal
    rw [hbits, ← htotal]
    rfl
  · next hnum =>
    have hmantissa : 0 < x.toBinary.mantissa := by
      apply Nat.pos_of_ne_zero
      intro h
      rw [h, Nat.zero_mul] at hexact
      unfold scaled at hexact
      split at hexact
      · simp [Nat.shiftLeft_eq] at hexact
        exact hnum hexact
      · exact hnum hexact
    have hlast := lastBit_eq hden hmantissa hparts.lt hparts.least hparts.unit hexact
    have htotal := hparts.total
    simp only [hlast, hexact, roundDiv_mul _ (scaled_snd_pos _ hden _), htotal, if_pos hlt]
    exact hbits.symm

/-! ## Reading a literal -/

theorem digitsValue_eq (cs : List Char) : digitsValue cs = Nat.ofDigitChars 10 cs 0 := rfl

theorem digitsValue_append (cs ds : List Char) :
    digitsValue (cs ++ ds) = 10 ^ ds.length * digitsValue cs + digitsValue ds := by
  simp only [digitsValue_eq, Nat.ofDigitChars_append]
  exact Nat.ofDigitChars_eq_ofDigitChars_zero

theorem digitsValue_toDigits (n : Nat) : digitsValue (Nat.toDigits 10 n) = n :=
  Nat.ofDigitChars_ten_toDigits

theorem digitsValue_padded (n k : Nat) : digitsValue (padded n k) = k := by
  rw [padded, digitsValue_append, digitsValue_toDigits, digitsValue_eq,
    Nat.ofDigitChars_replicate_zero, Nat.mul_zero, Nat.mul_zero, Nat.zero_add]

theorem length_padded {n k : Nat} (hn : 0 < n) (h : k < 10 ^ n) : (padded n k).length = n := by
  have := (Nat.length_toDigits_le_iff (by decide) hn).2 h
  rw [padded, List.length_append, List.length_replicate]
  omega

theorem ofDigits_nil (whole : List Char) : ofDigits whole [] = ofRatio (digitsValue whole) 1 := by
  simp [ofDigits, ofDecimal]

/-- Reading the literal of a number gives the number back. -/
theorem ofDigits_literal {x : Number} (hx : x.lexable = true) :
    ofDigits x.literal.1 x.literal.2 = x := by
  unfold literal
  cases hinfinite : x.isInfinite with
  | true =>
    rw [if_pos rfl, ofDigits_nil, digitsValue_toDigits]
    have hbits : x.bits = infinityBits := by
      rw [← magnitude_of_lexable hx]
      exact eq_of_beq hinfinite
    obtain ⟨bits⟩ := x
    subst hbits
    decide +kernel
  | false =>
    rw [if_neg Bool.false_ne_true]
    simp only
    cases hnatural : x.toBinary.natural? with
    | some n =>
      simp only [ofDigits_nil, digitsValue_toDigits]
      apply ofRatio_eq hx hinfinite Nat.one_pos
      unfold Binary.natural? at hnatural
      unfold scaled
      split at hnatural
      · next hneg =>
        simp only [Nat.shiftLeft_eq, Nat.one_mul] at hnatural
        split at hnatural
        · next hmod =>
          simp only [Option.some.injEq] at hnatural
          simp only [if_pos hneg, Nat.shiftLeft_eq, ← hnatural, Nat.mul_one]
          exact Nat.div_mul_cancel (Nat.dvd_of_mod_eq_zero hmod)
        · simp at hnatural
      · next hneg =>
        simp only [Nat.shiftLeft_eq, Option.some.injEq] at hnatural
        simp only [if_neg hneg, Nat.shiftLeft_eq, ← hnatural, Nat.one_mul]
    | none =>
      have hneg : x.toBinary.exponent < 0 := by
        apply Decidable.by_contra
        intro h
        simp [Binary.natural?, h] at hnatural
      have hplaces : 0 < x.toBinary.exponent.natAbs := by omega
      have hpower : 0 < 10 ^ x.toBinary.exponent.natAbs := Nat.pow_pos (by decide)
      have hlength := length_padded hplaces
        (Nat.mod_lt (x.toBinary.mantissa * 5 ^ x.toBinary.exponent.natAbs) hpower)
      simp only [ofDigits, ofDecimal, digitsValue_append, digitsValue_toDigits, digitsValue_padded,
        hlength, Nat.div_add_mod, Int.natAbs_neg, Int.natAbs_natCast]
      rw [if_pos (by omega)]
      apply ofRatio_eq hx hinfinite hpower
      simp only [scaled, if_pos hneg, Nat.shiftLeft_eq]
      rw [Nat.mul_assoc, ← Nat.mul_pow]

end DotScript.Number
