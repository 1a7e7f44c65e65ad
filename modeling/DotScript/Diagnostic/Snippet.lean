import DotScript.Diagnostic.Basic
import DotScript.Text.Lines
import DotScript.Text.Width

/-!
# Snippets

The long form of a diagnostic: the message, the place, and the lines of source it is about with the
span marked. A span inside one line is underlined with carets. A span over several lines is drawn as
a bracket in the margin, from the caret under its first character to the caret under its end; of a
long one only the first lines and the last two are shown.
-/

namespace DotScript.Diagnostic

open DotScript.Text

/-- A character of a line with its offset in bytes and the columns it takes. -/
structure Cell where
  offset : Nat
  width : Nat
  char : Char

/-- Tab stops are this many columns apart. -/
def tabWidth : Nat := 4

/-- The cells of a line, from an offset and a column on. A tab reaches to the next tab stop. -/
def cellsFrom (offset column : Nat) : List Char → List Cell
  | [] => []
  | c :: cs =>
    let width := if c == '\t' then tabWidth - column % tabWidth else displayWidth c
    ⟨offset, width, c⟩ :: cellsFrom (offset + c.utf8Size) (column + width) cs

def cells (line : List Char) : List Cell := cellsFrom 0 0 line

/-- The same character a number of times. -/
def repeated (n : Nat) (c : Char) : String := String.ofList (List.replicate n c)

/-- A line of source as shown: tabs become blanks. -/
def shownLine (line : List Char) : String :=
  (cells line).foldl
    (fun acc x => acc ++ if x.char == '\t' then repeated x.width ' ' else x.char.toString) ""

/-- The lines of a text without their line feeds, the part already read kept backwards. -/
def rawLinesFrom (line : List Char) : List Char → List (List Char)
  | [] => [line.reverse]
  | c :: cs =>
    if c == '\n' then line.reverse :: rawLinesFrom [] cs else rawLinesFrom (c :: line) cs

/-- A line without the carriage returns and null characters at its end. -/
def withoutBreak (line : List Char) : List Char :=
  (line.reverse.dropWhile (fun c => c == '\r' || c == '\x00')).reverse

/-- The number of characters that lie wholly before an offset. -/
def charsBefore : Nat → List Char → Nat
  | _, [] => 0
  | n, c :: cs => if c.utf8Size ≤ n then charsBefore (n - c.utf8Size) cs + 1 else 0

/-- The bytes of white space a line begins with. -/
def indentation (line : List Char) : Nat := byteLength (line.takeWhile isBlank)

/-- Carets under the columns of a range of bytes; a place one past the line counts as a column. -/
def underline (line : List Char) (start stop : Nat) : String :=
  let row := cells line ++ [⟨byteLength line, 1, '\x00'⟩]
  row.foldl (fun acc x =>
    let overlaps := max start x.offset < min stop (x.offset + x.char.utf8Size)
    if overlaps then acc ++ repeated x.width '^'
    else if x.offset < stop then acc ++ repeated x.width ' '
    else acc) ""

/-- Horizontal strokes over the columns of the first `stop` bytes. -/
def strokes (line : List Char) (stop : Nat) : String :=
  ((cells line).takeWhile (fun x => x.offset < stop)).foldl
    (fun acc x => acc ++ repeated x.width '─') ""

/-- Lines shown behind the first line of a long span. -/
def leadingContext : Nat := 3

/-- Lines shown before the last line of a long span. -/
def trailingContext : Nat := 1

/-- The margin of a drawing: room for line numbers of a width, and a border. -/
structure Margin where
  width : Nat

namespace Margin

def blank (m : Margin) : String := repeated m.width ' ' ++ " "

def border (m : Margin) : String := m.blank ++ "│"

def numbered (m : Margin) (line : Nat) : String := padLeft m.width (toString line) ++ " │"

end Margin

/-- A note: its first line behind a bullet, the others in line with it. -/
def noteLines (m : Margin) (note : String) : List String :=
  (lines note).mapIdx fun i line => m.blank ++ (if i = 0 then "= " else "  ") ++ line

/-- The marked lines of a span inside one line. -/
def singleLine (m : Margin) (number : Nat) (line : List Char) (start stop : Nat) : List String :=
  [m.border, m.numbered number ++ " " ++ shownLine line,
    m.border ++ " " ++ underline line start (max stop (start + 1))]

/-- The first line of a bracket. It begins beside the line if nothing but white space stands before
the span, otherwise under it. -/
def bracketTop (m : Margin) (number : Nat) (line : List Char) (start : Nat) : List String :=
  if start ≤ indentation line then [m.numbered number ++ " ╭ " ++ shownLine line]
  else
    [m.numbered number ++ "   " ++ shownLine line,
      m.border ++ " ╭" ++ strokes line (start + 1) ++ "^"]

/-- A line inside a bracket. -/
def bracketMiddle (m : Margin) (number : Nat) (line : List Char) : String :=
  m.numbered number ++ " │ " ++ shownLine line

/-- The last line of a bracket. -/
def bracketBottom (m : Margin) (number : Nat) (line : List Char) (stop : Nat) : List String :=
  [bracketMiddle m number line, m.border ++ " ╰" ++ strokes line stop ++ "^"]

/-- The lines inside a bracket from line `first + 1` to line `last - 1`. Lines far from both ends
are left out; a gap of more than one is shown as a break. -/
def bracketInside (m : Margin) (all : List (List Char)) (first last : Nat) : List String :=
  let shown (i : Nat) := bracketMiddle m (i + 1) (withoutBreak (all.getD i []))
  if last - first ≤ leadingContext + trailingContext + 2 then
    (List.range (last - first - 1)).map fun k => shown (first + 1 + k)
  else
    (List.range leadingContext).map (fun k => shown (first + 1 + k)) ++
      [m.blank ++ "· │"] ++
      (List.range trailingContext).map fun k => shown (last - trailingContext + k)

/-- The long form of a diagnostic, line by line. -/
def renderedLines (d : Diagnostic) (source : Source) : List String :=
  let header := "error: " ++ d.message
  match d.span? with
  | none => header :: d.notes.flatMap (noteLines ⟨0⟩)
  | some span =>
    let size := source.text.utf8ByteSize
    let stop := min span.stop.toNat size
    let start := min span.start.toNat stop
    let starts := source.lineStarts
    let all := rawLinesFrom [] source.text.toList
    let first := Source.lineIndex starts start.toUInt32
    let last := Source.lineIndex starts stop.toUInt32
    let startColumn := start - (starts.getD first 0).toNat
    let stopColumn := stop - (starts.getD last 0).toNat
    let firstLine := all.getD first []
    let m : Margin := ⟨(toString (last + 1)).length⟩
    let place := source.name ++ ":" ++ toString (first + 1) ++ ":" ++
      toString (charsBefore startColumn firstLine + 1)
    let locus := m.blank ++ "┌─ " ++ place
    let isSingle := first = last
    let empty := if isSingle then m.border else m.border ++ "  "
    let body :=
      if isSingle then singleLine m (first + 1) (withoutBreak firstLine) startColumn stopColumn
      else
        empty :: bracketTop m (first + 1) (withoutBreak firstLine) startColumn ++
          bracketInside m all first last ++
          bracketBottom m (last + 1) (withoutBreak (all.getD last [])) stopColumn
    let trailer := if d.notes.isEmpty then [] else [empty]
    header :: locus :: body ++ trailer ++ d.notes.flatMap (noteLines m)

/-- The long form of a diagnostic, with an empty line behind it. -/
def rendered (d : Diagnostic) (source : Source) : String :=
  String.join ((d.renderedLines source).map (· ++ "\n")) ++ "\n"

end DotScript.Diagnostic
