import DotScript.Pattern.Parser.Cursor
import DotScript.Number.Rounding

/-!
# Escapes

What a backslash begins: a literal, a class, or a condition on the place.
-/

namespace DotScript.Pattern.Parser

/-- What stands for one character or one place. -/
inductive Primitive
  | literal (l : Literal)
  | assertion (kind : Assertion) (region : Region)
  | dot (region : Region)
  | cls (set : ClassTree)

namespace Primitive

def region : Primitive → Region
  | literal l => l.region
  | assertion _ r | dot r => r
  | cls set => set.region

/-- A primitive as a pattern. -/
def tree : Primitive → Tree
  | literal l => .literal l
  | assertion k r => .assertion k r
  | dot r => .dot r
  | cls set => .cls set

/-- A primitive as a member of a set. -/
def inClass : Primitive → Parse ClassTree
  | literal l => return .literal l
  | cls set => return set
  | p => fail .classEscape p.region

/-- A primitive as the end of a range. -/
def bound : Primitive → Parse Literal
  | literal l => return l
  | p => fail .classRangeBound p.region

end Primitive

/-- The value of a hexadecimal digit. -/
def hexDigit? (c : Char) : Option Nat :=
  if '0' ≤ c ∧ c ≤ '9' then some (c.toNat - '0'.toNat)
  else if 'a' ≤ c ∧ c ≤ 'f' then some (c.toNat - 'a'.toNat + 10)
  else if 'A' ≤ c ∧ c ≤ 'F' then some (c.toNat - 'A'.toNat + 10)
  else none

/-- The character with a code in hexadecimal digits, if there is one. -/
def scalar? (digits : List Char) : Option Char :=
  let n := digits.foldl (fun n c => 16 * n + (hexDigit? c).getD 0) 0
  if n < 0xD800 ∨ (0xDFFF < n ∧ n < 0x110000) then some (Char.ofNat n) else none

/-- Hexadecimal digits up to a closing brace; the cursor is at what stands before them. -/
def hexUntilBrace : Nat → Parse (List Char)
  | 0 => return []
  | fuel + 1 => do
    if ← bumpSpace then
      match ← current? with
      | some c =>
        if c == '\x7d' then return []
        else if (hexDigit? c).isNone then failHere .hexDigit
        else return c :: (← hexUntilBrace fuel)
      | none => return []
    else return []

/-- A number of hexadecimal digits, the cursor at the first; it ends at the last. -/
def hexDigits : Nat → Parse (List Char)
  | 0 => return []
  | count + 1 => do
    match ← current? with
    | some c =>
      if (hexDigit? c).isNone then failHere .hexDigit
      else if count = 0 then return [c]
      else if ← bumpSpace then return c :: (← hexDigits count)
      else failAtPlace .escapeUnfinished
    | none => failAtPlace .escapeUnfinished

/-- A character given by its code; the cursor is at the letter that says how many digits follow. -/
def hexLiteral (start : Place) (letter : Char) : Parse Literal := do
  let count := if letter == 'x' then 2 else if letter == 'u' then 4 else 8
  if !(← bumpSpace) then failAtPlace .escapeUnfinished
  let brace ← here
  if ← isAt '\x7b' then
    let first := (← currentRegion).stop
    let digits ← hexUntilBrace (← remaining)
    if ← atEnd then fail .escapeUnfinished (← since brace)
    let stop ← here
    discard bumpSpace
    if digits.isEmpty then fail .hexEmpty (← since brace)
    match scalar? digits with
    | some c => return { char := c, region := ← since start }
    | none => fail .hexInvalid ⟨first, stop⟩
  else
    let digits ← hexDigits count
    discard bumpSpace
    match scalar? digits with
    | some c => return { char := c, isByte := letter == 'x', region := ← since start }
    | none => fail .hexInvalid (← since brace)

/-- The texts before and behind the first occurrence of a separator. -/
def cut? (sep : List Char) (before : List Char) : List Char → Option (List Char × List Char)
  | [] => none
  | c :: cs =>
    if sep.isPrefixOf (c :: cs) then some (before.reverse, (c :: cs).drop sep.length)
    else cut? sep (c :: before) cs

/-- The query written between braces, and whether it asks for the opposite. -/
def queryOf (name : List Char) : Query × Bool :=
  let valued (p : List Char × List Char) : Query := .valued (.ofList p.1) (.ofList p.2)
  match cut? ['!', '='] [] name with
  | some p => (valued p, true)
  | none =>
    match cut? [':'] [] name with
    | some p => (valued p, false)
    | none =>
      match cut? ['='] [] name with
      | some p => (valued p, false)
      | none => (.named (.ofList name), false)

/-- The characters up to a closing brace; the cursor is at what stands before them. -/
def untilBrace : Nat → Parse (List Char)
  | 0 => return []
  | fuel + 1 => do
    if ← bumpSpace then
      match ← current? with
      | some c => if c == '\x7d' then return [] else return c :: (← untilBrace fuel)
      | none => return []
    else return []

/-- A class of characters with a property; the cursor is at the letter behind the backslash. -/
def propertyClass (start : Place) (negated : Bool) : Parse ClassTree := do
  if !(← bumpSpace) then failAtPlace .escapeUnfinished
  match ← current? with
  | some '\x7b' =>
    let name ← untilBrace (← remaining)
    if ← atEnd then failAtPlace .escapeUnfinished
    discard bump
    let (query, opposite) := queryOf name
    return .property query (negated != opposite) (← since start)
  | some '\\' => failHere .propertyEscaped
  | some c =>
    discard bumpSpace
    return .property (.named c.toString) negated (← since start)
  | none => failAtPlace .escapeUnfinished

/-- Characters with a meaning of their own. -/
def isMeta (c : Char) : Bool := "\\.+*?()|[]\x7b\x7d^$#&-~".contains c

/-- Characters that a backslash leaves as they are. -/
def isEscapable (c : Char) : Bool :=
  isMeta c || (c.toNat < 128 && !c.isAlphanum && c != '<' && c != '>')

/-- The kinds of word boundary by name. -/
def boundaryKind? (name : String) : Option Assertion :=
  match name with
  | "start" => some .wordStart
  | "end" => some .wordEnd
  | "start-half" => some .wordStartHalf
  | "end-half" => some .wordEndHalf
  | _ => none

/-- The kind of a word boundary written between braces; none, and nothing read, if the brace begins a
count. -/
def boundaryName (start : Place) : Parse (Option Assertion) := do
  let saved ← get
  let isNameChar (c : Char) : Bool := c.isAlpha || c == '-'
  if !(← bumpSpace) then fail .boundaryUnfinished (← since start)
  let contents ← here
  match ← current? with
  | some c =>
    if isNameChar c then
      let name ← takeSpaced isNameChar (← remaining)
      if !(← isAt '\x7d') then fail .boundaryUnclosed (← since saved.place)
      let stop ← here
      discard bump
      match boundaryKind? (.ofList name) with
      | some k => return some k
      | none => fail .boundaryUnknown ⟨contents, stop⟩
    else
      set saved
      return none
  | none => return none

/-- The character that a letter behind a backslash stands for. -/
def controlEscape? (c : Char) : Option Char :=
  match c with
  | 'a' => some '\x07'
  | 'f' => some '\x0c'
  | 't' => some '\t'
  | 'n' => some '\n'
  | 'r' => some '\r'
  | 'v' => some '\x0b'
  | _ => none

/-- The class that a letter behind a backslash stands for, and whether it is the opposite. -/
def shorthand? (c : Char) : Option (Shorthand × Bool) :=
  match c with
  | 'd' => some (.digit, false)
  | 'D' => some (.digit, true)
  | 's' => some (.space, false)
  | 'S' => some (.space, true)
  | 'w' => some (.word, false)
  | 'W' => some (.word, true)
  | _ => none

/-- The condition that a letter behind a backslash stands for. -/
def assertion? (c : Char) : Option Assertion :=
  match c with
  | 'A' => some .startText
  | 'z' => some .endText
  | 'b' => some .wordBoundary
  | 'B' => some .notWordBoundary
  | '<' => some .wordStart
  | '>' => some .wordEnd
  | _ => none

/-- Read an escape; the cursor is at the backslash. -/
def escape : Parse Primitive := do
  let start ← here
  if !(← bump) then fail .escapeUnfinished (← since start)
  match ← current? with
  | none => fail .escapeUnfinished (← since start)
  | some c =>
    if c.isDigit then fail .backreference ⟨start, (← currentRegion).stop⟩
    else if c == 'x' || c == 'u' || c == 'U' then return .literal (← hexLiteral start c)
    else if c == 'p' || c == 'P' then return .cls (← propertyClass start (c == 'P'))
    else
      discard bump
      let region ← since start
      match shorthand? c with
      | some (kind, negated) => return .cls (.shorthand kind negated region)
      | none =>
        if isEscapable c then return .literal { char := c, region }
        else
          match controlEscape? c, assertion? c with
          | some ch, _ => return .literal { char := ch, region }
          | none, some .wordBoundary =>
            if ← isAt '\x7b' then
              match ← boundaryName start with
              | some kind => return .assertion kind (← since start)
              | none => return .assertion .wordBoundary region
            else return .assertion .wordBoundary region
          | none, some kind => return .assertion kind region
          | none, none => fail .escapeUnknown region

end DotScript.Pattern.Parser
