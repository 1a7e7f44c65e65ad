import DotScript.Text.Span
import DotScript.Text.Quoted

/-!
# Source texts

A named text with its lines. Positions are byte offsets; a position has a line, counted from one,
and a column, counted in bytes from one.

* `Source.lineStarts`: the offset at which each line begins;
* `Source.position`: line and column of an offset, by binary search in that table;
* `Source.slice`: the text of a span.
-/

namespace DotScript.Text

/-- The number of bytes of a text. -/
def byteLength : List Char → Nat
  | [] => 0
  | c :: cs => c.utf8Size + byteLength cs

/-- What is left of a text behind its first `n` bytes, if a character ends there. -/
def dropBytes : Nat → List Char → Option (List Char)
  | 0, cs => some cs
  | _ + 1, [] => none
  | n + 1, c :: cs => if c.utf8Size ≤ n + 1 then dropBytes (n + 1 - c.utf8Size) cs else none

/-- The first `n` bytes of a text, if a character ends there. -/
def takeBytes : Nat → List Char → Option (List Char)
  | 0, _ => some []
  | _ + 1, [] => none
  | n + 1, c :: cs =>
    if c.utf8Size ≤ n + 1 then (takeBytes (n + 1 - c.utf8Size) cs).map (c :: ·) else none

/-- A named source text. -/
structure Source where
  name : String
  text : String
  deriving DecidableEq, Inhabited

/-- A line and a column, both counted from one; columns count bytes. -/
structure Position where
  line : UInt32
  column : UInt32
  deriving DecidableEq, Repr

/-- A position as `line:column`. -/
def Position.text (p : Position) : String :=
  toString p.line.toNat ++ ":" ++ toString p.column.toNat

namespace Source

/-- The offsets behind the line feeds of a text that begins at offset `pos`. -/
def startsFrom (pos : Nat) : List Char → List UInt32
  | [] => []
  | c :: cs =>
    if c == '\n' then (pos + 1).toUInt32 :: startsFrom (pos + 1) cs
    else startsFrom (pos + c.utf8Size) cs

/-- The offsets at which the lines begin; the first line begins at zero. -/
def lineStarts (s : Source) : Array UInt32 := (0 :: startsFrom 0 s.text.toList).toArray

def lineCount (s : Source) : Nat := s.lineStarts.size

/-- The first index from `lo` up to `hi` at which the table exceeds `pos`, or `hi`; by halving. -/
def firstAbove (starts : Array UInt32) (pos : UInt32) (lo hi : Nat) : Nat :=
  if lo < hi then
    let mid := (lo + hi) / 2
    if starts.getD mid 0 ≤ pos then firstAbove starts pos (mid + 1) hi
    else firstAbove starts pos lo mid
  else lo
termination_by hi - lo

/-- The index of the line that holds an offset: the last line that begins at or before it. -/
def lineIndex (starts : Array UInt32) (pos : UInt32) : Nat :=
  firstAbove starts pos 0 starts.size - 1

/-- Line and column of an offset. An offset behind the text counts from its last line. -/
def position (s : Source) (pos : UInt32) : Position :=
  let starts := s.lineStarts
  let line := lineIndex starts pos
  let start := starts.getD line 0
  ⟨(line + 1).toUInt32, (if pos ≤ start then 0 else pos - start) + 1⟩

/-- The text of a span, cut to the source; empty if an end falls inside a character. -/
def slice (s : Source) (span : Span) : String :=
  let cs := s.text.toList
  let size := s.text.utf8ByteSize
  let start := min span.start.toNat size
  let stop := min span.stop.toNat size
  if stop < start then ""
  else
    match (dropBytes start cs).bind (takeBytes (stop - start)) with
    | some cs => String.ofList cs
    | none => ""

/-- A one-line description: the name, the number of bytes and the number of lines. -/
def summary (s : Source) : String :=
  "SourceFile \x7b name: " ++ quote s.name ++ ", len: " ++ toString s.text.utf8ByteSize ++
    ", lines: " ++ toString s.lineCount ++ " \x7d"

end Source

end DotScript.Text
