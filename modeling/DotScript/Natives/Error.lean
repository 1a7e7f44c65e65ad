import DotScript.Value.Basic
import DotScript.Files.Tree

/-!
# Failures of natives
-/

namespace DotScript.Natives

open DotScript.Files

/-- Why a native refuses its arguments. Arguments count from one; types are given by their names. -/
inductive NativeError
  | count (expected got : Nat)
  | notString (index : Nat) (got : String)
  | notNumber (index : Nat) (got : String)
  /-- Something outside refuses what it is asked for. -/
  | refused (message : String)
  | unreadable (path : String) (e : FileError)

def NativeError.message : NativeError → String
  | count expected got => "expected " ++ toString expected ++ " argument(s), got " ++ toString got
  | notString index got => "argument " ++ toString index ++ " must be a string, got " ++ got
  | notNumber index got => "argument " ++ toString index ++ " must be a number, got " ++ got
  | refused message => message
  | unreadable path e => "unable to read file " ++ path ++ ": " ++ e.message

/-- The text of an argument that has to be a string. -/
def stringArg (index : Nat) : Value → Except NativeError String
  | .str s => .ok s
  | v => .error (.notString index v.typeName)

/-- The value of an argument that has to be a number. -/
def numberArg (index : Nat) : Value → Except NativeError Number
  | .number n => .ok n
  | v => .error (.notNumber index v.typeName)

end DotScript.Natives
