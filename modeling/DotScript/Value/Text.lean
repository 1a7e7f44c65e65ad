import DotScript.Value.Basic
import DotScript.Number.Text
import DotScript.Text.Quoted

/-!
# Values as text

`Value.text` is what printing shows. `Value.quoted` shows strings inside a value in quotes, and keys
with their types.
-/

namespace DotScript

open DotScript.Text

def boolText (b : Bool) : String := if b then "true" else "false"

/-- The text of a key: that of its value. -/
def MapKey.text : MapKey → String
  | null => "null"
  | bool b => boolText b
  | number n => n.text
  | str s => s

/-- A key with its type. -/
def MapKey.quoted : MapKey → String
  | null => "Null"
  | bool b => "Bool(" ++ boolText b ++ ")"
  | number n => "Number(" ++ toString n.bits.toNat ++ ")"
  | str s => "Str(" ++ quote s ++ ")"

namespace Value

mutual

/-- The text of a value. -/
def text : Value → String
  | null => "null"
  | bool b => boolText b
  | number n => n.text
  | str s => s
  | list items => "[" ++ textItems items ++ "]"
  | map ⟨entries⟩ => "\x7b" ++ textEntries entries ++ "\x7d"
  | function f => "<fn " ++ f.name ++ ">"
  | bound _ f => "<bound " ++ f.name ++ ">"
  | classRef c => "<class " ++ c.name ++ ">"
  | inst i => "<" ++ i.ofClass.name ++ " instance>"
  | native n => "<native " ++ n.name ++ ">"

/-- Texts with commas between them. -/
def textItems : List Value → String
  | [] => ""
  | [v] => v.text
  | v :: vs => v.text ++ ", " ++ textItems vs

/-- Keys and values with commas between them. -/
def textEntries : List (MapKey × Value) → String
  | [] => ""
  | [(k, v)] => k.text ++ ": " ++ v.text
  | (k, v) :: es => k.text ++ ": " ++ v.text ++ ", " ++ textEntries es

end

mutual

/-- The text of a value with the strings in it quoted. -/
def quoted : Value → String
  | str s => quote s
  | list items => "[" ++ quotedItems items ++ "]"
  | map ⟨entries⟩ => "\x7b" ++ quotedEntries entries ++ "\x7d"
  | v => v.text

/-- Quoted texts with commas between them. -/
def quotedItems : List Value → String
  | [] => ""
  | [v] => v.quoted
  | v :: vs => v.quoted ++ ", " ++ quotedItems vs

/-- Typed keys and quoted values with commas between them. -/
def quotedEntries : List (MapKey × Value) → String
  | [] => ""
  | [(k, v)] => k.quoted ++ ": " ++ v.quoted
  | (k, v) :: es => k.quoted ++ ": " ++ v.quoted ++ ", " ++ quotedEntries es

end

end Value

end DotScript
