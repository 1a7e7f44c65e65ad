import DotScript.Number.Shortest

/-!
# Numbers as text

A `Layout` fixes how a shortest decimal is written: up to which magnitudes positionally, whether a
whole number keeps a fraction, and how an exponent looks.
-/

namespace DotScript.Number

/-- How decimals are written. -/
structure Layout where
  /-- Least power of ten of the first digit that is written positionally. -/
  least : Option Int
  /-- Greatest power of ten of the first digit that is written positionally. -/
  greatest : Option Int
  /-- Whether a whole number is followed by `.0`. -/
  keepsFraction : Bool
  /-- The sign of a positive exponent. -/
  positiveExponent : String
  /-- Which of two shortest decimals is written. -/
  tie : Tie

def zeros (n : Nat) : List Char := List.replicate n '0'

namespace Layout

/-- The digits with the point in its place. -/
def positional (l : Layout) (digits : List Char) (exponent : Int) : List Char :=
  let point : Int := digits.length + exponent
  if point ≤ 0 then '0' :: '.' :: (zeros (-point).toNat ++ digits)
  else if (digits.length : Int) ≤ point then
    digits ++ zeros (point - digits.length).toNat ++ (if l.keepsFraction then ['.', '0'] else [])
  else digits.take point.toNat ++ '.' :: digits.drop point.toNat

/-- One digit, the others behind a point, and the power of ten of the first. -/
def scientific (l : Layout) (digits : List Char) (power : Int) : List Char :=
  let body := match digits with
    | [] => []
    | [d] => [d]
    | d :: ds => d :: '.' :: ds
  let sign := if power < 0 then "-" else l.positiveExponent
  body ++ 'e' :: (sign.toList ++ (toString power.natAbs).toList)

/-- The text of a decimal. -/
def write (l : Layout) (d : Decimal) : List Char :=
  let digits := (toString d.digits).toList
  let power := digits.length + d.exponent - 1
  let fits := l.least.all (· ≤ power) && l.greatest.all (power ≤ ·)
  if fits then l.positional digits d.exponent else l.scientific digits power

end Layout

/-- Numbers of the language are written positionally at every magnitude, whole ones without a
fraction. -/
def plain : Layout where
  least := none
  greatest := none
  keepsFraction := false
  positiveExponent := ""
  tie := .larger

def finiteText (l : Layout) (x : Number) : String :=
  (if x.isNegative then "-" else "") ++ String.ofList (l.write (x.shortest l.tie))

def text (x : Number) : String :=
  if x.isNaN then "NaN"
  else if x.isInfinite then (if x.isNegative then "-inf" else "inf")
  else finiteText plain x

end DotScript.Number
