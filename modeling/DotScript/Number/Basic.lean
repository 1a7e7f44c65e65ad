/-!
# Numbers

A number is a 64-bit binary floating point datum, kept as its bit pattern. Comparison is read off
the pattern: numbers other than not-a-number are ordered as sign and magnitude, and the two zeros
are equal. Arithmetic is that of `Float`, with the pattern of a not-a-number operand passed on.
-/

namespace DotScript

/-- A 64-bit floating point datum: one sign bit, eleven exponent bits, 52 fraction bits. -/
structure Number where
  bits : UInt64
  deriving DecidableEq, Repr, Inhabited

namespace Number

/-- The magnitude bits of infinity; what lies above is not a number. -/
def infinityBits : UInt64 := 0x7FF0000000000000

/-- The least number of units that the fraction bits do not hold. -/
def fractionUnit : Nat := 0x10000000000000

def zero : Number := ⟨0⟩

def infinity : Number := ⟨infinityBits⟩

/-- The not-a-number with a clear sign. -/
def nan : Number := ⟨0x7FF8000000000000⟩

/-- What an operation without a meaningful result gives, such as zero divided by zero. -/
def undefinedResult : Number := ⟨0xFFF8000000000000⟩

/-- Whether the sign bit is set. -/
def isNegative (x : Number) : Bool := 0x8000000000000000 ≤ x.bits

/-- All bits but the sign. -/
def magnitude (x : Number) : UInt64 := x.bits &&& 0x7FFFFFFFFFFFFFFF

def isNaN (x : Number) : Bool := infinityBits < x.magnitude

def isInfinite (x : Number) : Bool := x.magnitude == infinityBits

def isFinite (x : Number) : Bool := x.magnitude < infinityBits

def isZero (x : Number) : Bool := x.magnitude == 0

/-- The same magnitude with the other sign. -/
def neg (x : Number) : Number := ⟨x.bits ^^^ 0x8000000000000000⟩

/-- The magnitude with its sign, which orders all numbers but not-a-number. -/
def rank (x : Number) : Int :=
  if x.isNegative then -(x.magnitude.toNat : Int) else x.magnitude.toNat

/-- Equality of numbers: equal patterns or two zeros; not-a-number equals nothing. -/
def eq (x y : Number) : Bool :=
  !x.isNaN && !y.isNaN && (x.bits == y.bits || (x.isZero && y.isZero))

/-- Strictly below; never with not-a-number. -/
def lt (x y : Number) : Bool := !x.isNaN && !y.isNaN && decide (x.rank < y.rank)

/-- Below or equal; never with not-a-number. -/
def le (x y : Number) : Bool := !x.isNaN && !y.isNaN && decide (x.rank ≤ y.rank)

def toFloat (x : Number) : Float := Float.ofBits x.bits

def ofFloat (f : Float) : Number := ⟨f.toBits⟩

/-- An arithmetic operation. A not-a-number operand is passed on, the left one first; a result that
is not a number has the pattern of `undefinedResult`. -/
def arithmetic (op : Float → Float → Float) (x y : Number) : Number :=
  if x.isNaN then x
  else if y.isNaN then y
  else
    let r := op x.toFloat y.toFloat
    if r.isNaN then undefinedResult else ofFloat r

def add : Number → Number → Number := arithmetic (· + ·)

def sub : Number → Number → Number := arithmetic (· - ·)

def mul : Number → Number → Number := arithmetic (· * ·)

def div : Number → Number → Number := arithmetic (· / ·)

end Number

end DotScript
