import DotScript.Json.Basic

/-!
# Writing JSON

Documents as text without white space.
-/

namespace DotScript.Json

open DotScript.Text

/-- Numbers from `0.00001` up to sixteen digits before the point are written positionally and keep a
fraction; beyond, the exponent carries its sign. -/
def numberLayout : Number.Layout where
  least := some (-5)
  greatest := some 15
  keepsFraction := true
  positiveExponent := "+"
  tie := .even

/-- The escape of a control character that has no short one. -/
def codeEscape (c : Char) : List Char :=
  '\\' :: 'u' :: '0' :: '0' :: Nat.digitChar (c.toNat / 16) :: [Nat.digitChar (c.toNat % 16)]

/-- One character of a string. -/
def escapeChar (c : Char) : List Char :=
  if c == '"' then ['\\', '"']
  else if c == '\\' then ['\\', '\\']
  else if c == '\x08' then ['\\', 'b']
  else if c == '\x0c' then ['\\', 'f']
  else if c == '\n' then ['\\', 'n']
  else if c == '\r' then ['\\', 'r']
  else if c == '\t' then ['\\', 't']
  else if c.toNat < 32 then codeEscape c
  else [c]

/-- The text of a string. -/
def stringText (s : String) : List Char := '"' :: s.toList.flatMap escapeChar ++ ['"']

mutual

def write : Json → List Char
  | null => "null".toList
  | bool b => (boolText b).toList
  | int i => (toString i).toList
  | float n => (n.finiteText numberLayout).toList
  | str s => stringText s
  | array items => '[' :: writeItems items ++ [']']
  | object ⟨fields⟩ => '\x7b' :: writeFields fields ++ ['\x7d']

/-- Documents with commas between them. -/
def writeItems : List Json → List Char
  | [] => []
  | [j] => write j
  | j :: js => write j ++ ',' :: writeItems js

def writeFields : List (String × Json) → List Char
  | [] => []
  | [(k, j)] => stringText k ++ ':' :: write j
  | (k, j) :: fs => stringText k ++ ':' :: write j ++ ',' :: writeFields fs

end

def render (j : Json) : String := String.ofList j.write

end DotScript.Json
