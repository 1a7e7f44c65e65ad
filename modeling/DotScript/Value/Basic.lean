import DotScript.Bytecode.Chunk
import DotScript.Table

/-!
# Values

The values that programs compute with. Lists and maps are values like numbers and never change.
Classes and instances are objects: a value only refers to one, and their methods and fields are kept
in the heap of a machine.

A function is an address in the code of a loaded unit. Units are told apart by who loaded them and
when, so that two units made from one text stay different.
-/

namespace DotScript

open DotScript.Bytecode

/-- Who runs: the main program is `[]`, and the `k`-th call spawned by thread `t` is `k :: t`. -/
abbrev ThreadId := List Nat

/-- The identity of a loaded unit: the thread that loaded it and how many it had loaded before. -/
structure ImageId where
  thread : ThreadId
  serial : Nat
  deriving DecidableEq, Repr

/-- A chunk loaded into a machine. -/
structure Image where
  id : ImageId
  chunk : Chunk
  deriving DecidableEq, Repr

/-- A function of a loaded unit. -/
structure Function where
  name : String
  arity : Nat
  entry : Nat
  image : Image
  deriving DecidableEq, Repr

/-- Whether two functions are the same code: the same unit and the same address. -/
def Function.sameCode (f g : Function) : Bool := f.image.id == g.image.id && f.entry == g.entry

/-- A class in the heap. -/
structure ClassRef where
  id : Nat
  name : String
  deriving DecidableEq, Repr

/-- An instance in the heap, with its class. -/
structure InstanceRef where
  id : Nat
  ofClass : ClassRef
  deriving DecidableEq, Repr

/-- What a native function does. -/
inductive Builtin
  | clock | sleep | len
  | split | replace | trim
  | jsonParse | jsonStringify
  | readFile | writeFile | appendFile
  | httpGet
  deriving DecidableEq, Repr

namespace Builtin

/-- All natives in the order in which they are registered. -/
def all : List Builtin :=
  [clock, sleep, len, split, replace, trim, jsonParse, jsonStringify, readFile, writeFile,
    appendFile, httpGet]

/-- The name a native is registered under. -/
def name : Builtin → String
  | clock => "clock"
  | sleep => "sleep"
  | len => "len"
  | split => "split"
  | replace => "replace"
  | trim => "trim"
  | jsonParse => "jsonParse"
  | jsonStringify => "jsonStringify"
  | readFile => "readFile"
  | writeFile => "writeFile"
  | appendFile => "appendFile"
  | httpGet => "httpGet"

/-- How many arguments a native takes. -/
def arity : Builtin → Nat
  | clock => 0
  | sleep | len | trim | jsonParse | jsonStringify | readFile | httpGet => 1
  | split | writeFile | appendFile => 2
  | replace => 3

/-- The native registered under a name. -/
def ofName? (s : String) : Option Builtin := all.find? (fun b => b.name == s)

end Builtin

/-- A native function under the name it was given. -/
structure Native where
  name : String
  builtin : Builtin
  deriving DecidableEq, Repr

/-- Values that can be keys of a map. A number is its bit pattern, with negative zero folded into
zero. -/
inductive MapKey
  | null
  | bool (b : Bool)
  | number (n : Number)
  | str (s : String)
  deriving DecidableEq, Repr

inductive Value
  | null
  | bool (b : Bool)
  | number (n : Number)
  | str (s : String)
  | list (items : List Value)
  | map (entries : Table MapKey Value)
  | function (f : Function)
  /-- A method with the instance it is called on. -/
  | bound (receiver : InstanceRef) (method : Function)
  | classRef (c : ClassRef)
  | inst (i : InstanceRef)
  | native (n : Native)

instance : Inhabited Value := ⟨.null⟩

def MapKey.ofNumber (n : Number) : MapKey := .number (if n.isZero then .zero else n)

def MapKey.toValue : MapKey → Value
  | null => .null
  | bool b => .bool b
  | number n => .number n
  | str s => .str s

namespace Value

/-- A value as a key, if it can be one. -/
def toKey? : Value → Option MapKey
  | null => some .null
  | bool b => some (.bool b)
  | number n => some (.ofNumber n)
  | str s => some (.str s)
  | _ => none

/-- Null, false and zero count as false; everything else counts as true. -/
def isFalsey : Value → Bool
  | null => true
  | bool b => !b
  | number n => n.isZero
  | _ => false

def typeName : Value → String
  | null => "null"
  | bool _ => "bool"
  | number _ => "number"
  | str _ => "string"
  | list _ => "list"
  | map _ => "map"
  | function _ => "function"
  | bound _ _ => "bound method"
  | classRef _ => "class"
  | inst _ => "instance"
  | native _ => "native function"

mutual

/-- Equality of values. Lists are equal item by item, maps key by key in any order; functions by
their code, classes and instances by identity, natives by name. -/
def eq : Value → Value → Bool
  | null, null => true
  | bool a, bool b => a == b
  | number a, number b => a.eq b
  | str a, str b => a == b
  | list as, list bs => eqItems as bs
  | map ⟨as⟩, map bs => as.length == bs.size && eqEntries as bs
  | function f, function g => f.sameCode g
  | bound r f, bound r' g => r.id == r'.id && f.sameCode g
  | classRef a, classRef b => a.id == b.id
  | inst a, inst b => a.id == b.id
  | native a, native b => a.name == b.name
  | _, _ => false

def eqItems : List Value → List Value → Bool
  | [], [] => true
  | a :: as, b :: bs => a.eq b && eqItems as bs
  | _, _ => false

/-- Whether a table has an equal value under every key of some entries. -/
def eqEntries : List (MapKey × Value) → Table MapKey Value → Bool
  | [], _ => true
  | (k, v) :: es, t =>
    (match t.get? k with
      | some v' => v.eq v'
      | none => false) && eqEntries es t

end

end Value

end DotScript
