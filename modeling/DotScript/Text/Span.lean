/-!
# Spans

A half-open range of byte offsets into a source text. Offsets are 32-bit words; a larger offset is
reduced to its low 32 bits.
-/

namespace DotScript.Text

/-- The bytes from `start` up to and not including `stop`. -/
structure Span where
  start : UInt32
  stop : UInt32
  deriving DecidableEq, Repr, Inhabited

namespace Span

/-- The span between two byte offsets. -/
def ofOffsets (start stop : Nat) : Span := ⟨start.toUInt32, stop.toUInt32⟩

/-- The empty span at an offset. -/
def point (pos : Nat) : Span := ofOffsets pos pos

/-- The smallest span that covers both. -/
def cover (a b : Span) : Span :=
  ⟨if a.start ≤ b.start then a.start else b.start, if a.stop ≤ b.stop then b.stop else a.stop⟩

/-- The number of bytes covered; none when the span ends before it starts. -/
def length (s : Span) : Nat := s.stop.toNat - s.start.toNat

def isEmpty (s : Span) : Bool := s.stop ≤ s.start

/-- A span as `start..stop`. -/
def text (s : Span) : String := toString s.start.toNat ++ ".." ++ toString s.stop.toNat

end Span

end DotScript.Text
