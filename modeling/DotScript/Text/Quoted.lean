import DotScript.Text.Character

/-!
# Quoted text

A text between double quotes on one line, every character of it visible: the form in which
listings and nested values show strings.
-/

namespace DotScript.Text

/-- The digits of a number in base sixteen, small letters. -/
def hexDigits (n : Nat) : String := String.ofList (Nat.toDigits 16 n)

/-- One character of a quoted text. Quote, backslash and the common controls have a short escape;
what has no shape, or would join the character before it, is written by its code point. -/
def quoteChar (c : Char) : String :=
  if c == '"' then "\\\""
  else if c == '\\' then "\\\\"
  else if c == '\n' then "\\n"
  else if c == '\r' then "\\r"
  else if c == '\t' then "\\t"
  else if c.toNat == 0 then "\\0"
  else if isExtending c || !isPrintable c then "\\u\x7b" ++ hexDigits c.toNat ++ "\x7d"
  else c.toString

/-- A text in double quotes. -/
def quote (s : String) : String :=
  "\"" ++ s.toList.foldl (fun acc c => acc ++ quoteChar c) "" ++ "\""

end DotScript.Text
