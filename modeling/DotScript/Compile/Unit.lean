import DotScript.Compile.Code
import DotScript.Syntax.Parser.Stmt
import DotScript.Diagnostic.Snippet

/-!
# Compile units

From a source text to a chunk of the same name. A text is refused either because it cannot be parsed
or because no code can be made for it; both refusals say why, and nearly all say where.
-/

namespace DotScript.Compile

open DotScript.Text DotScript.Syntax DotScript.Bytecode

/-- Why a source text is refused. -/
inductive UnitCause
  | parse (e : ParseError)
  | code (e : CompileError)

/-- A refused source text. -/
structure UnitError where
  source : Source
  cause : UnitCause

namespace UnitError

/-- The message without the place. -/
def message (e : UnitError) : String :=
  match e.cause with
  | .parse e => e.message
  | .code e => e.message

def span? (e : UnitError) : Option Span :=
  match e.cause with
  | .parse e => some e.span
  | .code e => e.span?

/-- The refusal as a diagnostic. -/
def diagnostic (e : UnitError) : Diagnostic := { message := e.message, span? := e.span? }

/-- The message on one line, with the place before it. -/
def summary (e : UnitError) : String := e.diagnostic.short e.source

/-- The message with the lines of the text it is about. -/
def rendered (e : UnitError) : String := e.diagnostic.rendered e.source

/-- What a user is shown: the lines in question if there is a place, otherwise one line. -/
def report (e : UnitError) : String :=
  match e.span? with
  | some _ => e.rendered
  | none => e.summary ++ "\n"

end UnitError

def compileSource (source : Source) : Except UnitError Chunk :=
  match parse source.text with
  | .error e => .error ⟨source, .parse e⟩
  | .ok program =>
    match compile program source.name with
    | .error e => .error ⟨source, .code e⟩
    | .ok chunk => .ok chunk

end DotScript.Compile
