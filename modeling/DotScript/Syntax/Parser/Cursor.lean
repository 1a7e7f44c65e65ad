import DotScript.Syntax.Tree

/-!
# Reading tokens

A `Cursor` stands before the tokens not yet read; behind the last one it stands at the end of file
and stays there. A `Parser` reads something off the front of a cursor and gives the cursor behind it,
or fails with the cause and the place.
-/

namespace DotScript.Syntax

open DotScript.Text

/-- The tokens not yet read, the end of file apart. -/
structure Cursor where
  rest : List Token
  /-- Where the end of file stands. -/
  eof : Span

/-- Why a text is not a program. -/
inductive ParseCause
  /-- Something else was needed at a token. -/
  | expected (what : String) (found : TokenKind)
  | invalidChar (c : Char)
  | unterminatedString
  | reserved (k : Keyword)
  /-- More nesting than there are tokens. -/
  | exhausted
  deriving DecidableEq, Repr

def ParseCause.message : ParseCause → String
  | expected what found => "expected " ++ what ++ ", found " ++ found.name
  | invalidChar c => "unexpected character '" ++ c.toString ++ "'"
  | unterminatedString => "unterminated string"
  | reserved k => "'" ++ k.text ++ "' is reserved"
  | exhausted => "nesting too deep"

/-- Why and where a text is not a program. -/
structure ParseError where
  cause : ParseCause
  span : Span
  deriving DecidableEq, Repr

def ParseError.message (e : ParseError) : String := e.cause.message

/-- Whether the text ended where more was needed, so that further text could complete it. -/
def ParseError.isIncomplete (e : ParseError) : Bool :=
  match e.cause with
  | .expected _ .endOfFile => true
  | _ => false

/-- Reads something and gives the cursor behind it. -/
abbrev Parser (α : Type) := Cursor → Except ParseError (α × Cursor)

namespace Cursor

/-- A cursor before all tokens of a list that ends with the end of file. -/
def ofTokens : List Token → Cursor
  | [] => ⟨[], .point 0⟩
  | [t] => ⟨[], t.span⟩
  | t :: ts => let c := ofTokens ts; ⟨t :: c.rest, c.eof⟩

/-- The token at the cursor. -/
def current (c : Cursor) : Token :=
  match c.rest with
  | [] => ⟨.endOfFile, c.eof⟩
  | t :: _ => t

def kind (c : Cursor) : TokenKind := c.current.kind

def span (c : Cursor) : Span := c.current.span

/-- The cursor behind the current token. -/
def advance (c : Cursor) : Cursor := { c with rest := c.rest.tail }

def isAt (c : Cursor) (s : Symbol) : Bool := c.kind == .symbol s

def atKeyword (c : Cursor) (k : Keyword) : Bool := c.kind == .keyword k

def atEnd (c : Cursor) : Bool := c.kind == .endOfFile

/-- The error at the current token when something else was needed. Characters and strings that are
no tokens are reported as such. -/
def unexpected (c : Cursor) (what : String) : ParseError :=
  let cause := match c.kind with
    | .invalid ch => .invalidChar ch
    | .unterminated => .unterminatedString
    | found => .expected what found
  ⟨cause, c.span⟩

/-- The error when the bound on nesting is reached. -/
def exhausted (c : Cursor) : ParseError := ⟨.exhausted, c.span⟩

end Cursor

namespace Parser

/-- Read a token of one kind and give its span. -/
def expect (kind : TokenKind) : Parser Span := fun c =>
  if c.kind = kind then .ok (c.span, c.advance) else .error (c.unexpected kind.name)

def symbol (s : Symbol) : Parser Span := expect (.symbol s)

def keyword (k : Keyword) : Parser Span := expect (.keyword k)

def ident : Parser Ident := fun c =>
  match c.kind with
  | .ident name => .ok (⟨name, c.span⟩, c.advance)
  | _ => .error (c.unexpected "identifier")

/-- One or more items with commas between them, at most `fuel`. -/
def commaSeparated {α : Type} (item : Parser α) : Nat → Parser (List α)
  | 0, c => .error c.exhausted
  | fuel + 1, c => do
    let (x, c) ← item c
    if c.isAt .comma then
      let (xs, c) ← commaSeparated item fuel c.advance
      return (x :: xs, c)
    else
      return ([x], c)

end Parser

end DotScript.Syntax
