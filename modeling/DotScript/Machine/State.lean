import DotScript.Machine.Error
import DotScript.Value.Text
import DotScript.Files.Tree

/-!
# Machine states

A `Thread` is one line of execution: operand stack, call frames, globals, and where it is in its
code. All threads of a session share a `World`: the heap, the files, and what was printed and
reported. A `Host` fixes what does not change: limits, how modules are loaded, what natives do.

The armed handler is one slot: entering a `try` replaces it, a call saves it in the frame, a return
brings it back. An import runs on the same stack and frames as the importer, above a `Window` that
records where the importer stood.
-/

namespace DotScript.Machine

open DotScript.Bytecode DotScript.Files

/-- Bounds on what a thread may use. -/
structure Limits where
  /-- Most values on the operand stack. -/
  stack : Nat := 16384
  /-- Most calls in progress. -/
  frames : Nat := 1024
  /-- Most imports in progress. -/
  imports : Nat := 64
  deriving DecidableEq, Repr

/-- Where a failure is caught: the address to go on at, and what was there when the `try` began. -/
structure Handler where
  address : Nat
  image : Image
  base : Nat
  depth : Nat
  height : Nat
  deriving DecidableEq, Repr

/-- What a call saves of the caller. -/
structure Frame where
  image : Image
  ip : Nat
  base : Nat
  handler : Option Handler
  /-- Returned in place of the callee's value: the new instance, for an initializer. -/
  result : Option Value

/-- What an import saves of the importer. -/
structure Window where
  path : String
  depth : Nat
  height : Nat
  image : Image
  ip : Nat
  base : Nat
  handler : Option Handler

/-- The objects of a session: for each class its methods, for each instance its fields. -/
structure Heap where
  classes : Array (Table String Function) := #[]
  instances : Array (Table String Value) := #[]

namespace Heap

def newClass (h : Heap) (name : String) : ClassRef × Heap :=
  (⟨h.classes.size, name⟩, { h with classes := h.classes.push {} })

def newInstance (h : Heap) (c : ClassRef) : InstanceRef × Heap :=
  (⟨h.instances.size, c⟩, { h with instances := h.instances.push {} })

def method? (h : Heap) (c : ClassRef) (name : String) : Option Function :=
  h.classes[c.id]?.bind (·.get? name)

def addMethod (h : Heap) (c : ClassRef) (name : String) (f : Function) : Heap :=
  { h with classes := h.classes.modify c.id (·.insert name f) }

def field? (h : Heap) (i : InstanceRef) (name : String) : Option Value :=
  h.instances[i.id]?.bind (·.get? name)

def setField (h : Heap) (i : InstanceRef) (name : String) (v : Value) : Heap :=
  { h with instances := h.instances.modify i.id (·.insert name v) }

end Heap

/-- One line of execution. -/
structure Thread where
  id : ThreadId := []
  globals : Table String Value := {}
  stack : Array Value := #[]
  frames : Array Frame := #[]
  image : Image := ⟨⟨[], 0⟩, { name := "<empty>" }⟩
  ip : Nat := 0
  /-- The slot of the running function's first local. -/
  base : Nat := 0
  handler : Option Handler := none
  /-- The imports in progress, the innermost first. -/
  windows : List Window := []
  /-- How many imports are in progress, for their limit. -/
  imports : Nat := 0
  /-- How many units this thread has loaded. -/
  loaded : Nat := 0
  /-- How many calls this thread has spawned. -/
  spawned : Nat := 0

inductive Job
  | script (t : Thread)
  | native (n : Native) (args : List Value)

/-- A spawned call with its number in the session. -/
structure Task where
  number : Nat
  job : Job

/-- What all threads of a session share. -/
structure World where
  heap : Heap := {}
  files : FileTree := {}
  /-- Printed lines, each with the thread that printed it. -/
  printed : Array (ThreadId × String) := #[]
  /-- Lines outside the program's output: failures of spawned calls and of writing files. -/
  reports : Array String := #[]
  /-- How many calls the session has spawned. -/
  threads : Nat := 0
  /-- Spawned calls that have not run yet. -/
  pending : List Task := []
  /-- The time when the session began, in seconds. -/
  now : Number := .zero
  /-- How many questions natives have put to the clock and the net. -/
  questions : Nat := 0

def World.report (w : World) (line : String) : World := { w with reports := w.reports.push line }

/-- Finds the chunk of a module. -/
abbrev Loader := FileTree → String → Except String Chunk

/-- What a session runs on: limits, the module loader and the natives. -/
structure Host where
  limits : Limits := {}
  loader : Option Loader := none
  call : Builtin → List Value → World → Except String Value × World

structure State where
  thread : Thread
  world : World

/-- The number of frames that belong to importers, below those of the run in progress. -/
def Thread.floor (t : Thread) : Nat :=
  match t.windows with
  | [] => 0
  | w :: _ => w.depth

end DotScript.Machine
