import DotScript.Bytecode.Opcode

/-!
# Runtime errors

Every failure of a running program. All of them can be caught: a handler receives the message.
-/

namespace DotScript.Machine

open DotScript.Bytecode

/-- Why a program fails. Types are given by their names. -/
inductive RuntimeError
  /-- An operation on two values of types it does not take. -/
  | operands (verb left right : String)
  | negation (operand : String)
  /-- Something that is no function offered as a method. -/
  | notAMethod (name got : String)
  /-- A method added to something that is no class. -/
  | methodOnNonClass (name got : String)
  | undefinedGlobal (name : String)
  | undefinedProperty (name ofClass : String)
  | notAnInstance (got : String)
  | notCallable (got : String)
  | arity (name : String) (expected got : Nat)
  | stackOverflow
  | stackUnderflow
  | invalidLocal (slot : Nat)
  | invalidOpcode (word : Word) (address : Nat)
  | missingOperand (address : Nat)
  | invalidJump (address : Nat)
  | invalidConstant (index : Nat)
  | unhashableKey (got : String)
  | native (name message : String)
  | importFailed (path message : String)
  | spawnFailed (message : String)
  deriving DecidableEq, Repr

def RuntimeError.message : RuntimeError → String
  | operands verb left right => "cannot " ++ verb ++ " " ++ left ++ " and " ++ right
  | negation operand => "cannot negate " ++ operand
  | notAMethod name got => "method '" ++ name ++ "' must be a function, got " ++ got
  | methodOnNonClass name got => "cannot add method '" ++ name ++ "' to " ++ got
  | undefinedGlobal name => "undefined variable '" ++ name ++ "'"
  | undefinedProperty name ofClass =>
    "undefined property '" ++ name ++ "' on " ++ ofClass ++ " instance"
  | notAnInstance got => "only instances have properties, got " ++ got
  | notCallable got => "can only call functions and classes, got " ++ got
  | arity name expected got =>
    name ++ " expects " ++ toString expected ++ " argument(s) but got " ++ toString got
  | stackOverflow => "stack overflow"
  | stackUnderflow => "stack underflow"
  | invalidLocal slot => "invalid local slot " ++ toString slot
  | invalidOpcode word address =>
    "invalid opcode " ++ toString word.toInt ++ " at " ++ toString address
  | missingOperand address => "missing operand at " ++ toString address
  | invalidJump address => "jump out of range at " ++ toString address
  | invalidConstant index => "invalid constant " ++ toString index
  | unhashableKey got => "unhashable map key of type " ++ got
  | native name message => name ++ ": " ++ message
  | importFailed path message => "import '" ++ path ++ "' failed: " ++ message
  | spawnFailed message => "spawn failed: " ++ message

end DotScript.Machine
