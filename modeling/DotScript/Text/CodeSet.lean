/-!
# Sets of code points

A `CodeSet` lists the code points that share a property, as closed ranges and, for the scripts
that interleave capital and small letters, as ranges of which every second point belongs.
-/

namespace DotScript.Text

/-- Code points given by closed ranges, and by closed ranges of which every second point counts. -/
structure CodeSet where
  ranges : List (Nat × Nat)
  alternating : List (Nat × Nat) := []

namespace CodeSet

def containsPoint (s : CodeSet) (n : Nat) : Bool :=
  s.ranges.any (fun r => r.1 ≤ n && n ≤ r.2) ||
    s.alternating.any (fun r => r.1 ≤ n && n ≤ r.2 && (n - r.1) % 2 == 0)

def contains (s : CodeSet) (c : Char) : Bool := s.containsPoint c.toNat

end CodeSet

end DotScript.Text
