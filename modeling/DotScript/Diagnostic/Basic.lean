import DotScript.Text.Source

/-!
# Diagnostics

An error message, with the span it is about where there is one, and notes. The short form is one
line; `Diagnostic.Snippet` draws the long one.
-/

namespace DotScript

open DotScript.Text

/-- An error message with an optional place and notes. -/
structure Diagnostic where
  message : String
  span? : Option Span := none
  notes : List String := []

/-- `name:line:column: message`, or `name: message` without a place. -/
def Diagnostic.short (d : Diagnostic) (source : Source) : String :=
  match d.span? with
  | some span => source.name ++ ":" ++ (source.position span.start).text ++ ": " ++ d.message
  | none => source.name ++ ": " ++ d.message

end DotScript
