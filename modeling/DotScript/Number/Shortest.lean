import DotScript.Number.Basic

/-!
# Shortest decimals

The decimal with the fewest digits that still rounds to a given number, and of those the nearest to
it. The decimals that round to a number form an interval around it; for one, two, up to seventeen
digits the two decimals next to the number are tried against that interval.
-/

namespace DotScript.Number

/-- Which of two equally near decimals is taken. -/
inductive Tie
  | larger
  /-- The one with an even last digit. -/
  | even
  deriving DecidableEq, Repr

/-- The value `digits * 10 ^ exponent`. -/
structure Decimal where
  digits : Nat
  exponent : Int
  deriving DecidableEq, Repr

/-- Drop the zeros at the end of the digits, at most `fuel` of them. -/
def Decimal.strip : Nat → Decimal → Decimal
  | 0, d => d
  | fuel + 1, d =>
    if d.digits ≠ 0 ∧ d.digits % 10 = 0 then strip fuel ⟨d.digits / 10, d.exponent + 1⟩ else d

/-- A positive number as `mantissa * 2 ^ exponent`. The decimals that round to it are those from
`below` quarter steps below it to two quarter steps above, the ends included iff the mantissa is
even. -/
structure Binary where
  mantissa : Nat
  exponent : Int
  below : Nat
  deriving DecidableEq, Repr

/-- The parts of a finite number. Below a power of two the neighbour is half as far away, except at
the lower end of the range. -/
def toBinary (x : Number) : Binary :=
  let m := x.magnitude.toNat
  let fraction : Nat := m % fractionUnit
  let e : Nat := m / fractionUnit
  if e = 0 then ⟨fraction, -1074, 2⟩
  else ⟨fractionUnit + fraction, Int.ofNat e - 1075, if fraction = 0 ∧ 1 < e then 1 else 2⟩

namespace Binary

/-- Compare `quarters * 2 ^ (exponent - 2)` with `digits * 10 ^ power`: both sides multiplied by
what makes them natural. -/
def sides (b : Binary) (quarters digits : Nat) (power : Int) : Nat × Nat :=
  let e := b.exponent - 2
  let (l, r) := if e < 0 then (quarters, digits <<< e.natAbs) else (quarters <<< e.natAbs, digits)
  if power < 0 then (l * Nat.pow 10 power.natAbs, r) else (l, r * Nat.pow 10 power.natAbs)

/-- Whether `digits * 10 ^ power` rounds to the number. -/
def rounds (b : Binary) (digits : Nat) (power : Int) : Bool :=
  let (lo, d) := b.sides (4 * b.mantissa - b.below) digits power
  let (hi, d') := b.sides (4 * b.mantissa + 2) digits power
  if b.mantissa % 2 = 0 then lo ≤ d && d' ≤ hi else lo < d && d' < hi

/-- The greatest natural `d` with `d * 10 ^ power` not above the number. -/
def floorAt (b : Binary) (power : Int) : Nat :=
  let (v, unit) := b.sides (4 * b.mantissa) 1 power
  v / unit

/-- Whether `d * 10 ^ power` is taken rather than `(d + 1) * 10 ^ power`, which lies on the other side
of the number. -/
def takesLower (b : Binary) (tie : Tie) (d : Nat) (power : Int) : Bool :=
  let (v, mid) := b.sides (8 * b.mantissa) (2 * d + 1) power
  v < mid || (v == mid && tie == .even && d % 2 == 0)

/-- The decimal of `n` digits that rounds to the number, if there is one; `power` is the place of
the last digit. Of two, the nearer. -/
def atPower? (b : Binary) (tie : Tie) (power : Int) : Option Decimal :=
  let d := b.floorAt power
  match b.rounds d power, b.rounds (d + 1) power with
  | true, true => some (if b.takesLower tie d power then ⟨d, power⟩ else ⟨d + 1, power⟩)
  | true, false => some ⟨d, power⟩
  | false, true => some ⟨d + 1, power⟩
  | false, false => none

/-- Try ever finer places for the last digit, `fuel` of them. -/
def search (b : Binary) (tie : Tie) : Nat → Int → Decimal
  | 0, power => ⟨b.floorAt power, power⟩
  | fuel + 1, power =>
    match b.atPower? tie power with
    | some d => d
    | none => search b tie fuel (power - 1)

/-- A place at or above that of the first digit: from the number of bits, by the ratio of the
logarithms of two and ten. -/
def topPower (b : Binary) : Int :=
  ((b.mantissa.log2 : Int) + b.exponent + 1) * 30103 / 100000 + 1

end Binary

/-- The shortest decimal of the magnitude of a finite number. -/
def shortest (tie : Tie) (x : Number) : Decimal :=
  let b := x.toBinary
  if b.mantissa = 0 then ⟨0, 0⟩ else (b.search tie 20 b.topPower).strip 20

end DotScript.Number
