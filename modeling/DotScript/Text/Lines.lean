import DotScript.Text.Character

/-!
# Lines and trimming
-/

namespace DotScript.Text

/-- A text without the white space at its ends. -/
def trimChars (cs : List Char) : List Char :=
  ((cs.dropWhile isBlank).reverse.dropWhile isBlank).reverse

/-- A string without the white space at its ends. -/
def trim (s : String) : String := String.ofList (trimChars s.toList)

/-- Whether a string holds nothing but white space. -/
def isBlankText (s : String) : Bool := s.toList.all isBlank

/-- The line that a line feed ended, given backwards: a carriage return before the line feed belongs
to the line break. -/
def endedLine : List Char → List Char
  | '\r' :: cs => cs.reverse
  | cs => cs.reverse

/-- The lines of a text after the part of the current line already read, which is kept backwards.
A last line without a line feed counts if it is not empty. -/
def linesFrom (line : List Char) : List Char → List (List Char)
  | [] => if line.isEmpty then [] else [line.reverse]
  | c :: cs => if c == '\n' then endedLine line :: linesFrom [] cs else linesFrom (c :: line) cs

/-- The lines of a string, without their line breaks. -/
def lines (s : String) : List String := (linesFrom [] s.toList).map String.ofList

/-- Pad a text with blanks on the left up to a width. -/
def padLeft (width : Nat) (s : String) : String :=
  String.ofList (List.replicate (width - s.length) ' ') ++ s

/-- Pad a text with blanks on the right up to a width. -/
def padRight (width : Nat) (s : String) : String :=
  s ++ String.ofList (List.replicate (width - s.length) ' ')

/-- An integer with at least `width` characters, filled with zeros behind the sign. -/
def zeroPadded (width : Nat) (n : Int) : String :=
  let digits := toString n.natAbs
  let sign := if n < 0 then "-" else ""
  sign ++ String.ofList (List.replicate (width - digits.length - sign.length) '0') ++ digits

end DotScript.Text
