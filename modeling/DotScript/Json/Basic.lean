import DotScript.Number.Rounding
import DotScript.Number.Whole
import DotScript.Value.Text

/-!
# JSON documents

The values of the data format, and how they correspond to the values of programs. A program value
without a counterpart becomes the string of its text; all keys become strings.
-/

namespace DotScript

/-- A JSON document. A number is an integer of 64 bits, with or without a sign, or it is finite. An
object keeps its fields in the order of their first occurrence. -/
inductive Json
  | null
  | bool (b : Bool)
  | int (i : Int)
  | float (n : Number)
  | str (s : String)
  | array (items : List Json)
  | object (fields : Table String Json)

namespace Json

/-! ## Documents and values -/

/-- Small whole numbers are integers; what is not finite is null. -/
def ofNumber (n : Number) : Json :=
  match n.whole? with
  | some i => int i
  | none => if n.isFinite then float n else null

mutual

/-- The document of a value. -/
def ofValue : Value → Json
  | .null => null
  | .bool b => bool b
  | .number n => ofNumber n
  | .str s => str s
  | .list items => array (ofItems items)
  | .map ⟨entries⟩ => object (.ofList (ofEntries entries))
  | .function f => str (Value.function f).text
  | .bound r f => str (Value.bound r f).text
  | .classRef c => str (Value.classRef c).text
  | .inst i => str (Value.inst i).text
  | .native n => str (Value.native n).text

def ofItems : List Value → List Json
  | [] => []
  | v :: vs => ofValue v :: ofItems vs

/-- Fields, each under the text of its key. -/
def ofEntries : List (MapKey × Value) → List (String × Json)
  | [] => []
  | (k, v) :: es => (k.text, ofValue v) :: ofEntries es

end

mutual

/-- The value of a document. -/
def toValue : Json → Value
  | null => .null
  | bool b => .bool b
  | int i => .number (.ofInt i)
  | float n => .number n
  | str s => .str s
  | array items => .list (toValues items)
  | object ⟨fields⟩ => .map (.ofList (toEntries fields))

def toValues : List Json → List Value
  | [] => []
  | j :: js => toValue j :: toValues js

def toEntries : List (String × Json) → List (MapKey × Value)
  | [] => []
  | (k, j) :: fs => (.str k, toValue j) :: toEntries fs

end

/-! ## Characters of texts -/

/-- White space between tokens. -/
def isSpace (c : Char) : Bool := c == ' ' || c == '\n' || c == '\t' || c == '\r'

/-- The value of a hexadecimal digit. -/
def hexDigit? (c : Char) : Option Nat :=
  if '0' ≤ c ∧ c ≤ '9' then some (c.toNat - '0'.toNat)
  else if 'a' ≤ c ∧ c ≤ 'f' then some (c.toNat - 'a'.toNat + 10)
  else if 'A' ≤ c ∧ c ≤ 'F' then some (c.toNat - 'A'.toNat + 10)
  else none

/-- The value of four hexadecimal digits. -/
def hexValue? (a b c d : Char) : Option Nat := do
  return ((← hexDigit? a) * 16 + (← hexDigit? b)) * 256 + ((← hexDigit? c) * 16 + (← hexDigit? d))

end Json

end DotScript
