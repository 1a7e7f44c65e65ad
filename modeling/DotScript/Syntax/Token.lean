import DotScript.Text.Span
import DotScript.Number.Rounding

/-!
# Tokens

The words of the language. A dot comes in two kinds: followed by more code on its line it reaches
into an object, otherwise it closes a block.
-/

namespace DotScript.Syntax

open DotScript.Text

inductive Keyword
  | kwFun | kwClass | kwImport
  | kwIf | kwElse | kwWhile | kwReturn | kwTry | kwCatch | kwSpawn | kwPrint
  | kwFor | kwIn
  | kwThis | kwTrue | kwFalse | kwNull
  deriving DecidableEq, Repr

namespace Keyword

def all : List Keyword :=
  [kwFun, kwClass, kwImport, kwIf, kwElse, kwWhile, kwReturn, kwTry, kwCatch, kwSpawn, kwPrint,
    kwFor, kwIn, kwThis, kwTrue, kwFalse, kwNull]

/-- The spelling of a reserved word. -/
def text : Keyword → String
  | kwFun => "fun"
  | kwClass => "class"
  | kwImport => "import"
  | kwIf => "if"
  | kwElse => "else"
  | kwWhile => "while"
  | kwReturn => "return"
  | kwTry => "try"
  | kwCatch => "catch"
  | kwSpawn => "spawn"
  | kwPrint => "print"
  | kwFor => "for"
  | kwIn => "in"
  | kwThis => "this"
  | kwTrue => "true"
  | kwFalse => "false"
  | kwNull => "null"

/-- The reserved word with a spelling. -/
def ofText? (s : String) : Option Keyword := all.find? (fun k => k.text == s)

end Keyword

/-- Operators and delimiters. -/
inductive Symbol
  | plus | minus | star | slash | bang
  | eqEq | bangEq | lt | ltEq | gt | gtEq
  | assign
  | lParen | rParen | lBracket | rBracket | lBrace | rBrace
  | comma | colon
  /-- A dot followed by more code on its line. -/
  | dot
  /-- A dot with nothing but blanks or a comment behind it on its line. -/
  | blockDot
  deriving DecidableEq, Repr

/-- The name of a symbol in messages. -/
def Symbol.text : Symbol → String
  | plus => "+"
  | minus => "-"
  | star => "*"
  | slash => "/"
  | bang => "!"
  | eqEq => "=="
  | bangEq => "!="
  | lt => "<"
  | ltEq => "<="
  | gt => ">"
  | gtEq => ">="
  | assign => "="
  | lParen => "("
  | rParen => ")"
  | lBracket => "["
  | rBracket => "]"
  | lBrace => "\x7b"
  | rBrace => "\x7d"
  | comma => ","
  | colon => ":"
  | dot => "."
  | blockDot => "block-closing '.'"

/-- What a token is. -/
inductive TokenKind
  | ident (name : String)
  | number (value : Number)
  | str (value : String)
  | keyword (k : Keyword)
  | symbol (s : Symbol)
  | endOfFile
  /-- A character that begins no token. -/
  | invalid (c : Char)
  /-- A string literal that the end of the text cuts off. -/
  | unterminated
  deriving DecidableEq, Repr

/-- The name of a kind of token in messages. -/
def TokenKind.name : TokenKind → String
  | ident _ => "identifier"
  | number _ => "number"
  | str _ => "string"
  | keyword k => k.text
  | symbol s => s.text
  | endOfFile => "end of file"
  | invalid _ => "invalid character"
  | unterminated => "unterminated string"

structure Token where
  kind : TokenKind
  span : Span
  deriving DecidableEq, Repr

end DotScript.Syntax
