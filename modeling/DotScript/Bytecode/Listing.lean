import DotScript.Bytecode.Chunk
import DotScript.Number.Text
import DotScript.Text.Lines
import DotScript.Text.Quoted

/-!
# Listings

A chunk as readable text: a header with its name, then one line for each instruction, decoded one
after the other from the first word.
-/

namespace DotScript.Bytecode

open DotScript.Text

/-- A decoded stretch of code. -/
inductive Item
  /-- A word that is no opcode. -/
  | invalid (w : Word)
  | plain (op : Opcode)
  /-- An opcode with its operand; an operand cut off by the end of the code counts as zero. -/
  | withOperand (op : Opcode) (operand : Word)
  deriving DecidableEq, Repr

/-- Decode code that begins at an address, from front to back. -/
def decodeFrom (address : Nat) : List Word → List (Nat × Item)
  | [] => []
  | [w] =>
    match Opcode.decode? w with
    | none => [(address, .invalid w)]
    | some op => [(address, if op.hasOperand then .withOperand op 0 else .plain op)]
  | w :: o :: ws =>
    match Opcode.decode? w with
    | none => (address, .invalid w) :: decodeFrom (address + 1) (o :: ws)
    | some op =>
      if op.hasOperand then (address, .withOperand op o) :: decodeFrom (address + 2) ws
      else (address, .plain op) :: decodeFrom (address + 1) (o :: ws)

/-- A constant as a listing shows it. -/
def Constant.describe : Constant → String
  | null => "null"
  | bool b => if b then "true" else "false"
  | number n => n.text
  | str s => quote s
  | function f =>
    "<fn " ++ f.name ++ "/" ++ toString f.arity ++ " @" ++ zeroPadded 4 f.entry ++ ">"

namespace Chunk

/-- The constant with the index that an operand gives. -/
def constantAt? (c : Chunk) (operand : Word) : Option Constant :=
  if operand.toInt < 0 then none else c.constants[operand.toInt.toNat]?

/-- What a listing adds behind an operand: the target of a jump, or the constant meant. -/
def annotate (c : Chunk) (address : Nat) (op : Opcode) (operand : Word) : String :=
  if op.isJump then " -> " ++ zeroPadded 4 (address + 2 + operand.toInt)
  else if op.usesConstant then
    match c.constantAt? operand with
    | some k => " " ++ k.describe
    | none => " <bad constant>"
  else ""

def line (c : Chunk) (address : Nat) (item : Item) : String :=
  zeroPadded 4 address ++ "  " ++
    match item with
    | .invalid w => "<invalid " ++ toString w.toInt ++ ">"
    | .plain op => op.name
    | .withOperand op operand =>
      padRight 16 op.name ++ padLeft 5 (toString operand.toInt) ++ c.annotate address op operand

/-- The instructions of a chunk with their addresses, decoded from front to back. -/
def items (c : Chunk) : List (Nat × Item) := decodeFrom 0 c.code.toList

def listingLines (c : Chunk) : List String :=
  ("== " ++ c.name ++ " ==") :: c.items.map fun (address, item) => c.line address item

def listing (c : Chunk) : String := String.join (c.listingLines.map (· ++ "\n"))

end Chunk

end DotScript.Bytecode
