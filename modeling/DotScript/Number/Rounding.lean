import DotScript.Number.Basic

/-!
# Rounding to a number

The number nearest to a quotient of naturals, by exact arithmetic; of two equally near ones the one
with the even fraction. Reading a decimal is the case of a denominator that is a power of ten.
-/

namespace DotScript.Number

/-- The quotient rounded to the nearest natural, a half going to the even one. -/
def roundDiv (num den : Nat) : Nat :=
  let q := num / den
  let r := 2 * (num % den)
  if r < den then q else if den < r then q + 1 else q + q % 2

/-- `num / (den * 2 ^ e)` as a quotient of naturals. -/
def scaled (num den : Nat) (e : Int) : Nat × Nat :=
  if e < 0 then (num <<< e.natAbs, den) else (num, den <<< e.natAbs)

/-- The exponent of the last fraction bit for a positive quotient: it leaves 53 bits before the
point, or fewer at the lower end of the range. -/
def lastBit (num den : Nat) : Int :=
  let e : Int := (num.log2 : Int) - den.log2 - 52
  let (n, d) := scaled num den e
  max (if n / d < fractionUnit then e - 1 else e) (-1074)

/-- The number nearest to `num / den`, which is infinite when it is beyond the largest one. -/
def ofRatio (num den : Nat) : Number :=
  if num = 0 then zero
  else
    let e := lastBit num den
    let (n, d) := scaled num den e
    let bits := (e + 1074).toNat * fractionUnit + roundDiv n d
    if bits < infinityBits.toNat then ⟨bits.toUInt64⟩ else infinity

/-- The number nearest to `digits * 10 ^ exponent`. -/
def ofDecimal (digits : Nat) (exponent : Int) : Number :=
  if exponent < 0 then ofRatio digits (Nat.pow 10 exponent.natAbs)
  else ofRatio (digits * Nat.pow 10 exponent.natAbs) 1

def ofNat (n : Nat) : Number := ofRatio n 1

/-- The number nearest to an integer. -/
def ofInt (i : Int) : Number := if i < 0 then (ofNat i.natAbs).neg else ofNat i.natAbs

/-- The value of a run of decimal digits. -/
def digitsValue (cs : List Char) : Nat :=
  cs.foldl (fun n c => 10 * n + (c.toNat - '0'.toNat)) 0

/-- The number written as digits with an optional fraction. -/
def ofDigits (whole fraction : List Char) : Number :=
  ofDecimal (digitsValue (whole ++ fraction)) (-(fraction.length : Int))

end DotScript.Number
