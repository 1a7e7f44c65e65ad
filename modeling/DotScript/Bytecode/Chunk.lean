import DotScript.Bytecode.Opcode
import DotScript.Number.Basic

/-!
# Chunks

The compiled form of a compile unit: its code words and the constants they refer to. Functions of
the unit are addresses in the same code.
-/

namespace DotScript.Bytecode

/-- What a chunk knows of a function: its name, how many arguments it takes and where it begins. -/
structure Prototype where
  name : String
  arity : Nat
  entry : Nat
  deriving DecidableEq, Repr

/-- Constants. Numbers are told apart by their bit patterns. -/
inductive Constant
  | null
  | bool (b : Bool)
  | number (n : Number)
  | str (s : String)
  | function (proto : Prototype)
  deriving DecidableEq, Repr

/-- Whether a constant is a function. -/
def Constant.isFunction : Constant → Bool
  | function _ => true
  | _ => false

/-- Code words and constants, under a name. -/
structure Chunk where
  name : String
  code : Array Word := #[]
  constants : Array Constant := #[]
  deriving DecidableEq, Repr, Inhabited

namespace Chunk

def write (c : Chunk) (w : Word) : Chunk := { c with code := c.code.push w }

def writeOp (c : Chunk) (op : Opcode) : Chunk := c.write op.encode

def addConstant (c : Chunk) (k : Constant) : Chunk := { c with constants := c.constants.push k }

/-- Overwrite a word; an address outside the code is ignored. -/
def patch (c : Chunk) (address : Nat) (w : Word) : Chunk :=
  { c with code := c.code.setIfInBounds address w }

end Chunk

end DotScript.Bytecode
