import DotScript.Json.Basic

/-!
# What natives take from outside

Natives rest on libraries for JSON and for patterns, on the clock and on the net. None of these is part
of the program, so what they answer is given. Questions to the clock and the net are numbered, since the
same question may be answered differently later.

* `Matcher`: a pattern that can be searched for;
* `Outside`: all that natives take from outside.
-/

namespace DotScript.Natives

/-- A pattern that can be searched for, as far as texts are split by it. -/
structure Matcher where
  /-- Where the first match in a text begins and ends, in bytes. -/
  first? : String → Option (Nat × Nat)
  /-- What lies before, between and behind the matches in a text. -/
  pieces : String → List String

/-- What natives take from outside. A refusal comes with its message. -/
structure Outside where
  /-- The time when a session begins, in seconds. -/
  now : Number
  /-- What the clock says to a question, in a session that began at a time. -/
  clock : Number → Nat → Except String Number
  /-- The body of the answer to a request for an address; none if the request fails. -/
  fetch : Nat → String → Option String
  /-- The document of a JSON text. -/
  readJson : String → Except String Json
  /-- A JSON text of a document. -/
  writeJson : Json → Except String String
  /-- The pattern of a text. -/
  pattern : String → Except String Matcher

end DotScript.Natives
