import DotScript.Json.Basic
import DotScript.Number.Rounding

/-!
# Reading JSON

A reader takes characters from a cursor and gives the cursor behind them. Errors lie at a byte
offset: that of the cursor, or one byte further when the character at the cursor is to blame.

* `Json.read`: the document of a text, or what is wrong with it, by line and column;
* `maxDepth`: how deep arrays and objects may nest;
* `numberOfParts`: the value of a number with a fraction, an exponent or many digits.
-/

namespace DotScript.Json

/-- What is wrong with a text. -/
inductive Fault
  | endInList | endInObject | endInString | endInValue
  | expectedColon | expectedListEnd | expectedObjectEnd | expectedIdent | expectedValue
  | invalidEscape | invalidNumber | numberOutOfRange
  | controlCharacter | keyNotString
  | loneSurrogate | unfinishedEscape
  | trailingComma | trailingCharacters
  | tooDeep
  deriving DecidableEq, Repr

def Fault.message : Fault → String
  | endInList => "EOF while parsing a list"
  | endInObject => "EOF while parsing an object"
  | endInString => "EOF while parsing a string"
  | endInValue => "EOF while parsing a value"
  | expectedColon => "expected `:`"
  | expectedListEnd => "expected `,` or `]`"
  | expectedObjectEnd => "expected `,` or `\x7d`"
  | expectedIdent => "expected ident"
  | expectedValue => "expected value"
  | invalidEscape => "invalid escape"
  | invalidNumber => "invalid number"
  | numberOutOfRange => "number out of range"
  | controlCharacter => "control character (\\u0000-\\u001F) found while parsing a string"
  | keyNotString => "key must be a string"
  | loneSurrogate => "lone leading surrogate in hex escape"
  | unfinishedEscape => "unexpected end of hex escape"
  | trailingComma => "trailing comma"
  | trailingCharacters => "trailing characters"
  | tooDeep => "recursion limit exceeded"

/-- A fault at a place: lines count from one, columns are bytes of the line before the place. -/
structure ReadError where
  fault : Fault
  line : Nat
  column : Nat
  deriving DecidableEq, Repr

def ReadError.message (e : ReadError) : String :=
  e.fault.message ++ " at line " ++ toString e.line ++ " column " ++ toString e.column

/-- The characters still to be read, and the number of bytes before them. -/
structure Cursor where
  rest : List Char
  offset : Nat

/-- Reads something and gives the cursor behind it; a fault comes with its byte offset. -/
abbrev Reader (α : Type) := Cursor → Except (Fault × Nat) (α × Cursor)

namespace Cursor

def advance (c : Cursor) : Cursor :=
  match c.rest with
  | [] => c
  | ch :: cs => ⟨cs, c.offset + ch.utf8Size⟩

def fail {α : Type} (c : Cursor) (f : Fault) : Except (Fault × Nat) α := .error (f, c.offset)

/-- A fault of the character at the cursor, or of the end of the text. -/
def failAtNext {α : Type} (c : Cursor) (f : Fault) : Except (Fault × Nat) α :=
  .error (f, if c.rest.isEmpty then c.offset else c.offset + 1)

end Cursor

def skipSpace (c : Cursor) : Cursor :=
  ⟨c.rest.dropWhile isSpace, c.offset + (c.rest.takeWhile isSpace).length⟩

/-- Pass over the characters of a word. -/
def expectWord : List Char → Cursor → Except (Fault × Nat) Cursor
  | [], c => .ok c
  | w :: ws, c =>
    match c.rest with
    | [] => c.fail .endInValue
    | ch :: _ => if ch = w then expectWord ws c.advance else .error (.expectedIdent, c.offset + 1)

/-! ## Numbers -/

/-- The greatest significand that is kept. -/
def maxSignificand : Nat := 0xFFFFFFFFFFFFFFFF

/-- The greatest exponent that can be written. -/
def maxExponent : Nat := 0x7FFFFFFF

/-- The greatest power of ten that is a number. -/
def maxPower : Nat := 308

/-- Append digits to a significand as long as it fits; gives also how many were appended. -/
def appendDigits (significand : Nat) : List Char → Nat × Nat
  | [] => (significand, 0)
  | d :: ds =>
    let next := 10 * significand + (d.toNat - '0'.toNat)
    if next ≤ maxSignificand then
      let (s, n) := appendDigits next ds
      (s, n + 1)
    else (significand, 0)

/-- A number times a power of ten: one multiplication or division, after divisions by the greatest
power while the exponent is below its range. None if the result is not finite. -/
def timesPower (x : Number) (exponent : Int) : Option Number :=
  if exponent.natAbs ≤ maxPower then
    let power := Number.ofDecimal 1 exponent.natAbs
    if 0 ≤ exponent then
      let y := x.mul power
      if y.isInfinite then none else some y
    else some (x.div power)
  else if x.isZero then some x
  else if 0 ≤ exponent then none
  else timesPower (x.div (.ofDecimal 1 maxPower)) (exponent + maxPower)
termination_by exponent.natAbs
decreasing_by
  simp only [maxPower] at *
  omega

/-- A number with or without a minus sign. -/
def signed (negative : Bool) (x : Number) : Number := if negative then x.neg else x

/-- The digits at the cursor. -/
def digits (c : Cursor) : List Char × Cursor :=
  let ds := c.rest.takeWhile Char.isDigit
  (ds, ⟨c.rest.dropWhile Char.isDigit, c.offset + ds.length⟩)

/-- The value of the digits of an exponent, or how many of them it takes to exceed the greatest
one. -/
def exponentOf (value read : Nat) : List Char → Except Nat Nat
  | [] => .ok value
  | d :: ds =>
    let next := 10 * value + (d.toNat - '0'.toNat)
    if next ≤ maxExponent then exponentOf next (read + 1) ds else .error (read + 1)

/-- The number of an integer that fits its significand. The negative zero and integers below those of
64 bits are no integers. -/
def numberOfInteger (negative : Bool) (significand : Nat) : Json :=
  if !negative then .int significand
  else if significand = 0 ∨ 0x8000000000000000 < significand then
    .float (Number.neg (.ofNat significand))
  else .int (-significand)

/-- The number with a significand and an exponent so far, at the cursor behind it. -/
def numberOfParts (negative : Bool) (significand : Nat) (exponent : Int) : Reader Json := fun c =>
  match timesPower (.ofNat significand) exponent with
  | some x => .ok (.float (signed negative x), c)
  | none => c.fail .numberOutOfRange

/-- Read an exponent; the cursor is behind the `e`. -/
def readExponent (negative : Bool) (significand : Nat) (before : Int) : Reader Json := fun c =>
  let (minus, c) := match c.rest with
    | '+' :: _ => (false, c.advance)
    | '-' :: _ => (true, c.advance)
    | _ => (false, c)
  match c.rest with
  | [] => c.fail .endInValue
  | ch :: _ =>
    if ch.isDigit then
      let (ds, c') := digits c
      match exponentOf 0 0 ds with
      | .ok e => numberOfParts negative significand (if minus then before - e else before + e) c'
      | .error read =>
        if significand = 0 ∨ minus then .ok (.float (signed negative .zero), c')
        else .error (.numberOutOfRange, c.offset + read)
    else .error (.invalidNumber, c.offset + 1)

/-- Read what follows the digits before and behind the point: an exponent or nothing. -/
def readNumberEnd (negative : Bool) (significand : Nat) (exponent : Int) : Reader Json := fun c =>
  match c.rest with
  | 'e' :: _ | 'E' :: _ => readExponent negative significand exponent c.advance
  | _ => numberOfParts negative significand exponent c

/-- Read the rest of a number behind the digits of its whole part. -/
def readFraction (negative : Bool) (whole : List Char) : Reader Json := fun c =>
  let (significand, used) := appendDigits 0 whole
  let dropped : Int := whole.length - used
  match c.rest with
  | '.' :: _ =>
    let (ds, c) := digits c.advance
    if ds.isEmpty then c.failAtNext (if c.rest.isEmpty then .endInValue else .invalidNumber)
    else
      let (significand, used) := appendDigits significand ds
      readNumberEnd negative significand (dropped - used) c
  | 'e' :: _ | 'E' :: _ => readExponent negative significand dropped c.advance
  | _ =>
    if dropped = 0 then .ok (numberOfInteger negative significand, c)
    else numberOfParts negative significand dropped c

/-- Read a number; the cursor is behind the sign. A zero at the front stands alone. -/
def readNumber (negative : Bool) : Reader Json := fun c =>
  match c.rest with
  | [] => c.fail .endInValue
  | '0' :: _ =>
    let c' := c.advance
    match c'.rest with
    | ch :: _ => if ch.isDigit then c'.failAtNext .invalidNumber else readFraction negative ['0'] c'
    | [] => readFraction negative ['0'] c'
  | ch :: _ =>
    if ch.isDigit then
      let (ds, c) := digits c
      readFraction negative ds c
    else .error (.invalidNumber, c.offset + 1)

/-! ## Strings -/

/-- The number of bytes of some characters. -/
def bytes (cs : List Char) : Nat := cs.foldl (fun n c => n + c.utf8Size) 0

/-- Read the four digits of an escape. A fault lies behind the four bytes that should be they. -/
def readHex : Reader Nat := fun c =>
  let size := bytes (c.rest.take 4)
  if size < 4 then .error (.endInString, c.offset + size)
  else
    match c.rest with
    | w :: x :: y :: z :: rest =>
      match hexValue? w x y z with
      | some n => .ok (n, ⟨rest, c.offset + 4⟩)
      | none => .error (.invalidEscape, c.offset + 4)
    | _ => .error (.invalidEscape, c.offset + 4)

/-- Pass over one character of the second half of a surrogate pair. -/
def expectPart (ch : Char) (c : Cursor) : Except (Fault × Nat) Cursor :=
  match c.rest with
  | [] => c.fail .endInString
  | x :: _ => if x = ch then .ok c.advance else .error (.unfinishedEscape, c.offset + 1)

/-- Read a character given by its code; the cursor is behind the `u`. Two surrogates make one
character. -/
def readCode : Reader Char := fun c => do
  let (n, c) ← readHex c
  if 0xDC00 ≤ n ∧ n ≤ 0xDFFF then c.fail .loneSurrogate
  else if n < 0xD800 ∨ 0xDBFF < n then .ok (Char.ofNat n, c)
  else
    let c ← expectPart '\\' c
    let c ← expectPart 'u' c
    let (m, c) ← readHex c
    if m < 0xDC00 ∨ 0xDFFF < m then c.fail .loneSurrogate
    else .ok (Char.ofNat ((n - 0xD800) * 0x400 + (m - 0xDC00) + 0x10000), c)

/-- Read an escape; the cursor is behind the backslash. -/
def readEscape : Reader Char := fun c =>
  match c.rest with
  | [] => c.fail .endInString
  | ch :: _ =>
    let c' := c.advance
    match ch with
    | '"' => .ok ('"', c')
    | '\\' => .ok ('\\', c')
    | '/' => .ok ('/', c')
    | 'b' => .ok ('\x08', c')
    | 'f' => .ok ('\x0c', c')
    | 'n' => .ok ('\n', c')
    | 'r' => .ok ('\r', c')
    | 't' => .ok ('\t', c')
    | 'u' => readCode c'
    | _ => .error (.invalidEscape, c.offset + 1)

/-- Read the rest of a string up to its closing quote; every step but the last takes a character.
The characters read so far are kept backwards. -/
def readStringFrom (read : List Char) : Nat → Reader String
  | 0, c => c.fail .endInString
  | fuel + 1, c =>
    match c.rest with
    | [] => c.fail .endInString
    | '"' :: _ => .ok (String.ofList read.reverse, c.advance)
    | '\\' :: _ => do
      let (ch, c) ← readEscape c.advance
      readStringFrom (ch :: read) fuel c
    | ch :: _ =>
      if ch.toNat < 32 then .error (.controlCharacter, c.offset + 1)
      else readStringFrom (ch :: read) fuel c.advance

/-- Read a string; the cursor is behind the opening quote. -/
def readString : Reader String := fun c => readStringFrom [] (c.rest.length + 1) c

/-! ## Documents -/

/-- Arrays and objects may nest up to, and not including, this depth. -/
def maxDepth : Nat := 128

mutual

/-- Read a document. `depth` is how many levels may still be opened; `fuel` bounds the reading. -/
def readValue (depth : Nat) : Nat → Reader Json
  | 0, c => c.fail .endInValue
  | fuel + 1, c =>
    let c := skipSpace c
    match c.rest with
    | [] => c.failAtNext .endInValue
    | ch :: _ =>
      match ch with
      | 'n' => do return (.null, ← expectWord "ull".toList c.advance)
      | 't' => do return (.bool true, ← expectWord "rue".toList c.advance)
      | 'f' => do return (.bool false, ← expectWord "alse".toList c.advance)
      | '-' => readNumber true c.advance
      | '"' => do
        let (s, c) ← readString c.advance
        return (.str s, c)
      | '[' =>
        if depth ≤ 1 then c.failAtNext .tooDeep
        else do
          let (items, c) ← readFirstItem (depth - 1) fuel c.advance
          return (.array items, c)
      | '\x7b' =>
        if depth ≤ 1 then c.failAtNext .tooDeep
        else do
          let (fields, c) ← readFirstField (depth - 1) fuel c.advance
          return (.object fields, c)
      | _ => if ch.isDigit then readNumber false c else c.failAtNext .expectedValue

/-- Read the items of an array; the cursor is behind the bracket. -/
def readFirstItem (depth : Nat) : Nat → Reader (List Json)
  | 0, c => c.fail .endInList
  | fuel + 1, c =>
    let c := skipSpace c
    match c.rest with
    | [] => c.failAtNext .endInList
    | ']' :: _ => .ok ([], c.advance)
    | _ => do
      let (j, c) ← readValue depth fuel c
      let (js, c) ← readMoreItems depth fuel c
      return (j :: js, c)

/-- Read the items behind an item. -/
def readMoreItems (depth : Nat) : Nat → Reader (List Json)
  | 0, c => c.fail .endInList
  | fuel + 1, c =>
    let c := skipSpace c
    match c.rest with
    | [] => c.failAtNext .endInList
    | ']' :: _ => .ok ([], c.advance)
    | ',' :: _ =>
      let c := skipSpace c.advance
      match c.rest with
      | [] => c.failAtNext .endInValue
      | ']' :: _ => c.failAtNext .trailingComma
      | _ => do
        let (j, c) ← readValue depth fuel c
        let (js, c) ← readMoreItems depth fuel c
        return (j :: js, c)
    | _ => c.failAtNext .expectedListEnd

/-- Read the fields of an object; the cursor is behind the brace. -/
def readFirstField (depth : Nat) : Nat → Reader (Table String Json)
  | 0, c => c.fail .endInObject
  | fuel + 1, c =>
    let c := skipSpace c
    match c.rest with
    | [] => c.failAtNext .endInObject
    | '\x7d' :: _ => .ok ({}, c.advance)
    | '"' :: _ => readField depth fuel {} c
    | _ => c.failAtNext .keyNotString

/-- Read a field and those behind it, into a table; the cursor is before the quote of its key. -/
def readField (depth : Nat) : Nat → Table String Json → Reader (Table String Json)
  | 0, _, c => c.fail .endInObject
  | fuel + 1, table, c => do
    let (key, c) ← readString c.advance
    let c := skipSpace c
    match c.rest with
    | [] => c.failAtNext .endInObject
    | ':' :: _ =>
      let (j, c) ← readValue depth fuel c.advance
      readMoreFields depth fuel (table.insert key j) c
    | _ => c.failAtNext .expectedColon

/-- Read the fields behind a field. -/
def readMoreFields (depth : Nat) : Nat → Table String Json → Reader (Table String Json)
  | 0, _, c => c.fail .endInObject
  | fuel + 1, table, c =>
    let c := skipSpace c
    match c.rest with
    | [] => c.failAtNext .endInObject
    | '\x7d' :: _ => .ok (table, c.advance)
    | ',' :: _ =>
      let c := skipSpace c.advance
      match c.rest with
      | [] => c.failAtNext .endInValue
      | '"' :: _ => readField depth fuel table c
      | '\x7d' :: _ => c.failAtNext .trailingComma
      | _ => c.failAtNext .keyNotString
    | _ => c.failAtNext .expectedObjectEnd

end

/-- Read a document and nothing behind it but white space. -/
def readAll : Reader Json := fun c => do
  let (j, c) ← readValue maxDepth (3 * c.rest.length + 3) c
  let c := skipSpace c
  if c.rest.isEmpty then .ok (j, c) else c.failAtNext .trailingCharacters

/-- Line and column of a byte offset, counted on from a line and a column. -/
def placeFrom (line column : Nat) : Nat → List Char → Nat × Nat
  | _, [] => (line, column)
  | offset, ch :: cs =>
    if offset < ch.utf8Size then (line, column + offset)
    else if ch == '\n' then placeFrom (line + 1) 0 (offset - 1) cs
    else placeFrom line (column + ch.utf8Size) (offset - ch.utf8Size) cs

def read (text : String) : Except ReadError Json :=
  match readAll ⟨text.toList, 0⟩ with
  | .ok (j, _) => .ok j
  | .error (fault, offset) =>
    let (line, column) := placeFrom 1 0 offset text.toList
    .error ⟨fault, line, column⟩

end DotScript.Json
