/-!
# Responses

What a command writes and how it ends.
-/

namespace DotScript.CommandLine

inductive Exit
  | success
  | failure
  /-- The arguments were not understood. -/
  | misuse
  deriving DecidableEq, Repr

def Exit.code : Exit → Nat
  | success => 0
  | failure => 1
  | misuse => 2

/-- What a command writes on its two channels, and how it ends. -/
structure Response where
  exit : Exit := .success
  out : String := ""
  err : String := ""
  deriving DecidableEq, Repr

end DotScript.CommandLine
