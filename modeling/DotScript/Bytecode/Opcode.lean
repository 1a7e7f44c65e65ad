/-!
# Opcodes

An instruction is one opcode word, with one operand word behind it for some opcodes. Words are
32-bit signed integers; an opcode's word is its place in `Opcode.all`.
-/

namespace DotScript.Bytecode

abbrev Word := Int32

inductive Opcode
  | ret
  /-- Push a constant. -/
  | constant
  | add | subtract | multiply | divide | negate | not
  | print | pop
  | getGlobal | setGlobal | getLocal | setLocal
  /-- Jumps go by a signed distance from the next instruction. -/
  | jumpIfFalse | jump
  /-- Call the value below the arguments. -/
  | call
  /-- Like `call`, on a thread of its own, pushing null. -/
  | spawn
  | less | greater | lessEqual | greaterEqual | equal | notEqual
  | buildList | buildMap
  | importUnit
  | classDef | method | getProperty | setProperty
  | tryEnter | tryExit
  deriving DecidableEq, Repr

namespace Opcode

/-- All opcodes in the order of their words. -/
def all : List Opcode :=
  [ret, constant, add, subtract, multiply, divide, negate, not, print, pop, getGlobal, setGlobal,
    getLocal, setLocal, jumpIfFalse, jump, call, spawn, less, greater, lessEqual, greaterEqual,
    equal, notEqual, buildList, buildMap, importUnit, classDef, method, getProperty, setProperty,
    tryEnter, tryExit]

/-- The number of an opcode: its place in `all`. -/
def number : Opcode → Nat
  | ret => 0 | constant => 1 | add => 2 | subtract => 3 | multiply => 4 | divide => 5
  | negate => 6 | not => 7 | print => 8 | pop => 9 | getGlobal => 10 | setGlobal => 11
  | getLocal => 12 | setLocal => 13 | jumpIfFalse => 14 | jump => 15 | call => 16 | spawn => 17
  | less => 18 | greater => 19 | lessEqual => 20 | greaterEqual => 21 | equal => 22
  | notEqual => 23 | buildList => 24 | buildMap => 25 | importUnit => 26 | classDef => 27
  | method => 28 | getProperty => 29 | setProperty => 30 | tryEnter => 31 | tryExit => 32

def encode (op : Opcode) : Word := Int32.ofNat op.number

def ofNumber? : Nat → Option Opcode
  | 0 => some ret | 1 => some constant | 2 => some add | 3 => some subtract
  | 4 => some multiply | 5 => some divide | 6 => some negate | 7 => some not | 8 => some print
  | 9 => some pop | 10 => some getGlobal | 11 => some setGlobal | 12 => some getLocal
  | 13 => some setLocal | 14 => some jumpIfFalse | 15 => some jump | 16 => some call
  | 17 => some spawn | 18 => some less | 19 => some greater | 20 => some lessEqual
  | 21 => some greaterEqual | 22 => some equal | 23 => some notEqual | 24 => some buildList
  | 25 => some buildMap | 26 => some importUnit | 27 => some classDef | 28 => some method
  | 29 => some getProperty | 30 => some setProperty | 31 => some tryEnter | 32 => some tryExit
  | _ => none

def decode? (w : Word) : Option Opcode :=
  let n := w.toInt
  if n < 0 then none else ofNumber? n.toNat

@[simp] theorem ofNumber?_number (op : Opcode) : ofNumber? op.number = some op := by
  cases op <;> rfl

@[simp] theorem decode?_encode (op : Opcode) : decode? op.encode = some op := by
  cases op <;> rfl

theorem number_of_ofNumber? {n : Nat} {op : Opcode} (h : ofNumber? n = some op) :
    op.number = n := by
  unfold ofNumber? at h
  split at h <;> cases h <;> rfl

/-- A word that can be decoded is that of the opcode. -/
theorem encode_of_decode? {w : Word} {op : Opcode} (h : decode? w = some op) : w = op.encode := by
  simp only [decode?] at h
  split at h
  · cases h
  · next hneg =>
    have hnumber := number_of_ofNumber? h
    have hword : op.encode.toInt = op.number := by cases op <;> rfl
    apply Int32.toInt_inj.mp
    omega

def hasOperand : Opcode → Bool
  | constant | getGlobal | setGlobal | getLocal | setLocal | jumpIfFalse | jump | call | spawn
  | buildList | buildMap | classDef | method | getProperty | setProperty | tryEnter => true
  | _ => false

/-- Whether the operand is a distance to jump. -/
def isJump : Opcode → Bool
  | jump | jumpIfFalse | tryEnter => true
  | _ => false

/-- Whether the operand is the index of a constant. -/
def usesConstant : Opcode → Bool
  | constant | getGlobal | setGlobal | classDef | method | getProperty | setProperty => true
  | _ => false

/-- The mnemonic of an opcode. -/
def name : Opcode → String
  | ret => "RETURN"
  | constant => "CONSTANT"
  | add => "ADD"
  | subtract => "SUBTRACT"
  | multiply => "MULTIPLY"
  | divide => "DIVIDE"
  | negate => "NEGATE"
  | not => "NOT"
  | print => "PRINT"
  | pop => "POP"
  | getGlobal => "GET_GLOBAL"
  | setGlobal => "SET_GLOBAL"
  | getLocal => "GET_LOCAL"
  | setLocal => "SET_LOCAL"
  | jumpIfFalse => "JUMP_IF_FALSE"
  | jump => "JUMP"
  | call => "CALL"
  | spawn => "SPAWN"
  | less => "LESS"
  | greater => "GREATER"
  | lessEqual => "LESS_EQUAL"
  | greaterEqual => "GREATER_EQUAL"
  | equal => "EQUAL"
  | notEqual => "NOT_EQUAL"
  | buildList => "BUILD_LIST"
  | buildMap => "BUILD_MAP"
  | importUnit => "IMPORT"
  | classDef => "CLASS"
  | method => "METHOD"
  | getProperty => "GET_PROPERTY"
  | setProperty => "SET_PROPERTY"
  | tryEnter => "TRY_ENTER"
  | tryExit => "TRY_EXIT"

def ofName? (s : String) : Option Opcode := all.find? (fun op => op.name == s)

end Opcode

end DotScript.Bytecode
