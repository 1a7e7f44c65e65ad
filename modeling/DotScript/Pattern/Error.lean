import DotScript.Text.Lines

/-!
# Errors in patterns

A pattern that cannot be read is shown with the faulty region marked by carets. A pattern of several
lines is shown between rules, with line numbers.
-/

namespace DotScript.Pattern

open DotScript.Text

/-- A line and a column of a pattern, both counted from one; columns count characters. -/
structure Place where
  line : Nat := 1
  column : Nat := 1
  deriving DecidableEq, Repr

/-- The place behind a character. -/
def Place.after (p : Place) (c : Char) : Place :=
  if c == '\n' then ⟨p.line + 1, 1⟩ else ⟨p.line, p.column + 1⟩

/-- Whether a place stands before another. -/
def Place.before (p q : Place) : Bool :=
  p.line < q.line || (p.line == q.line && p.column < q.column)

/-- The characters from one place up to another. -/
structure Region where
  start : Place
  stop : Place
  deriving DecidableEq, Repr

/-- The empty region at a place. -/
def Region.at (p : Place) : Region := ⟨p, p⟩

/-- What is wrong with a pattern. -/
inductive Fault
  | classEscape | classRange | classRangeBound | classUnclosed
  | decimalInvalid
  | hexEmpty | hexInvalid | hexDigit
  | escapeUnfinished | escapeUnknown
  | flagDangling | flagDuplicate | flagRepeatedNegation | flagUnfinished | flagUnknown
  | groupNameDuplicate | groupNameEmpty | groupNameInvalid | groupNameUnclosed
  | groupUnclosed | groupUnopened
  | nestedTooDeep (limit : Nat)
  | countRange | countEmpty | countUnclosed
  | repetitionMissing
  | boundaryUnclosed | boundaryUnknown | boundaryUnfinished
  | propertyEscaped
  | backreference | lookAround
  | unicodeNotAllowed | invalidUtf8
  | propertyNotFound | propertyValueNotFound
  deriving DecidableEq, Repr

def Fault.message : Fault → String
  | classEscape => "invalid escape sequence found in character class"
  | classRange => "invalid character class range, the start must be <= the end"
  | classRangeBound => "invalid range boundary, must be a literal"
  | classUnclosed => "unclosed character class"
  | decimalInvalid => "decimal literal invalid"
  | hexEmpty => "hexadecimal literal empty"
  | hexInvalid => "hexadecimal literal is not a Unicode scalar value"
  | hexDigit => "invalid hexadecimal digit"
  | escapeUnfinished => "incomplete escape sequence, reached end of pattern prematurely"
  | escapeUnknown => "unrecognized escape sequence"
  | flagDangling => "dangling flag negation operator"
  | flagDuplicate => "duplicate flag"
  | flagRepeatedNegation => "flag negation operator repeated"
  | flagUnfinished => "expected flag but got end of regex"
  | flagUnknown => "unrecognized flag"
  | groupNameDuplicate => "duplicate capture group name"
  | groupNameEmpty => "empty capture group name"
  | groupNameInvalid => "invalid capture group character"
  | groupNameUnclosed => "unclosed capture group name"
  | groupUnclosed => "unclosed group"
  | groupUnopened => "unopened group"
  | nestedTooDeep limit =>
    "exceed the maximum number of nested parentheses/brackets (" ++ toString limit ++ ")"
  | countRange => "invalid repetition count range, the start must be <= the end"
  | countEmpty => "repetition quantifier expects a valid decimal"
  | countUnclosed => "unclosed counted repetition"
  | repetitionMissing => "repetition operator missing expression"
  | boundaryUnclosed =>
    "special word boundary assertion is either unclosed or contains an invalid character"
  | boundaryUnknown =>
    "unrecognized special word boundary assertion, valid choices are: start, end, start-half or " ++
      "end-half"
  | boundaryUnfinished =>
    "found either the beginning of a special word boundary or a bounded repetition on a \\b with " ++
      "an opening brace, but no closing brace"
  | propertyEscaped => "invalid Unicode character class"
  | backreference => "backreferences are not supported"
  | lookAround => "look-around, including look-ahead and look-behind, is not supported"
  | unicodeNotAllowed => "Unicode not allowed here"
  | invalidUtf8 => "pattern can match invalid UTF-8"
  | propertyNotFound => "Unicode property not found"
  | propertyValueNotFound => "Unicode property value not found"

/-- A fault in a region; a second region shows what it conflicts with. -/
structure SyntaxError where
  fault : Fault
  region : Region
  other? : Option Region := none
  deriving DecidableEq, Repr

/-- Why a pattern cannot be used. -/
inductive PatternError
  | unreadable (e : SyntaxError)
  /-- The pattern would take more room than the limit. -/
  | tooLarge (limit : Nat)
  deriving DecidableEq, Repr

/-! ## Showing the pattern -/

namespace Region

/-- Whether a region begins and ends on one line. -/
def isOneLine (r : Region) : Bool := r.start.line == r.stop.line

/-- Two regions in the order of their places. -/
def ordered (r s : Region) : List Region :=
  if s.start.before r.start || (s.start == r.start && s.stop.before r.stop) then [s, r] else [r, s]

end Region

/-- The regions of an error in the order of their places. -/
def SyntaxError.regions (e : SyntaxError) : List Region :=
  match e.other? with
  | none => [e.region]
  | some r => e.region.ordered r

def times (n : Nat) (c : Char) : List Char := List.replicate n c

/-- Carets under regions of one line; `column` columns are already written. -/
def carets (column : Nat) : List Region → List Char
  | [] => []
  | r :: rs =>
    let blanks := r.start.column - 1 - column
    let width := max 1 (r.stop.column - r.start.column)
    times blanks ' ' ++ times width '^' ++ carets (column + blanks + width) rs

/-- The lines of a pattern, each with the carets below it. -/
def annotated (pattern : String) (regions : List Region) : List String :=
  let shown := lines pattern
  let count := if pattern.endsWith "\n" then shown.length + 1 else shown.length
  let width := if count ≤ 1 then 0 else (toString count).length
  let padding := if width = 0 then 4 else width + 2
  (shown.mapIdx fun i line =>
    let label := if width = 0 then "    " else padLeft width (toString (i + 1)) ++ ": "
    let marked := regions.filter fun r => r.isOneLine && r.start.line == i + 1
    (label ++ line) ::
      if marked.isEmpty then [] else [String.ofList (times padding ' ' ++ carets 0 marked)]).flatten

/-- A region over several lines, in words. -/
def Region.inWords (r : Region) : String :=
  "on line " ++ toString r.start.line ++ " (column " ++ toString r.start.column ++
    ") through line " ++ toString r.stop.line ++ " (column " ++ toString (r.stop.column - 1) ++ ")"

def SyntaxError.message (pattern : String) (e : SyntaxError) : String :=
  let rule := String.ofList (times 79 '~')
  let body := annotated pattern e.regions
  let shown :=
    if pattern.contains '\n' then
      rule :: body ++ [rule] ++ (e.regions.filter fun r => !r.isOneLine).map Region.inWords
    else body
  "\n".intercalate ("regex parse error:" :: shown ++ ["error: " ++ e.fault.message])

def PatternError.message (pattern : String) : PatternError → String
  | unreadable e => e.message pattern
  | tooLarge limit => "Compiled regex exceeds size limit of " ++ toString limit ++ " bytes."

end DotScript.Pattern
