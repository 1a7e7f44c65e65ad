import DotScript.Number.Shortest

/-!
# Whole numbers

The integer that a number is, for the numbers whose integer neighbours are numbers too.
-/

namespace DotScript.Number

/-- Whole numbers below this magnitude, and no others, are told apart from both integers next to
them. -/
def wholeLimit : Nat := 0x20000000000000

/-- The natural that the magnitude of a finite number is, if it is one. -/
def Binary.natural? (b : Binary) : Option Nat :=
  if b.exponent < 0 then
    let unit := 1 <<< b.exponent.natAbs
    if b.mantissa % unit = 0 then some (b.mantissa / unit) else none
  else some (b.mantissa <<< b.exponent.natAbs)

/-- The integer that a number is, if it is one of magnitude below `wholeLimit`. Both zeros are
zero. -/
def whole? (x : Number) : Option Int :=
  if x.isFinite then
    match x.toBinary.natural? with
    | some n => if n < wholeLimit then some (if x.isNegative then -(n : Int) else n) else none
    | none => none
  else none

end DotScript.Number
