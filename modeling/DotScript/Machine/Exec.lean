import DotScript.Machine.State

/-!
# Instructions

What each instruction does to a state. An instruction that fails keeps what it has done up to then;
where execution goes on after a failure is the matter of `Machine.Step`.
-/

namespace DotScript.Machine

open DotScript.Bytecode

/-- Computations on a state that may fail. -/
abbrev Exec := EStateM RuntimeError State

def thread : Exec Thread := return (← get).thread

def updateThread (f : Thread → Thread) : Exec Unit :=
  modify fun s => { s with thread := f s.thread }

def world : Exec World := return (← get).world

def updateWorld (f : World → World) : Exec Unit :=
  modify fun s => { s with world := f s.world }

/-! ## The operand stack -/

def updateStack (f : Array Value → Array Value) : Exec Unit :=
  updateThread fun t => { t with stack := f t.stack }

/-- Push a value, unless the stack is full. -/
def push (limits : Limits) (v : Value) : Exec Unit := do
  if limits.stack ≤ (← thread).stack.size then throw .stackOverflow
  updateStack (·.push v)

/-- Take the top value. -/
def pop : Exec Value := do
  match (← thread).stack.back? with
  | none => throw .stackUnderflow
  | some v =>
    updateStack (·.pop)
    return v

/-- The top value, left in place. -/
def top : Exec Value := do
  match (← thread).stack.back? with
  | none => throw .stackUnderflow
  | some v => return v

/-- Take the top `n` values, the lowest first. -/
def popMany (n : Nat) : Exec (List Value) := do
  let stack := (← thread).stack
  if stack.size < n then throw .stackUnderflow
  updateStack (·.take (stack.size - n))
  return (stack.drop (stack.size - n)).toList

/-! ## Operands -/

/-- Read the next word. -/
def readOperand : Exec Word := do
  let t ← thread
  match t.image.chunk.code[t.ip]? with
  | none => throw (.missingOperand t.ip)
  | some w =>
    updateThread fun t => { t with ip := t.ip + 1 }
    return w

/-- Read a slot, count or index; it must not be negative. -/
def readIndex : Exec Nat := do
  let address := (← thread).ip
  let w ← readOperand
  if w.toInt < 0 then throw (.missingOperand address)
  return w.toInt.toNat

/-- Read the index of a constant and give the constant with it. -/
def readConstant : Exec (Nat × Constant) := do
  let index ← readIndex
  match (← thread).image.chunk.constants[index]? with
  | none => throw (.invalidConstant index)
  | some k => return (index, k)

/-- A constant as a value; a function belongs to the running unit. -/
def constantValue (image : Image) : Constant → Value
  | .null => .null
  | .bool b => .bool b
  | .number n => .number n
  | .str s => .str s
  | .function p => .function ⟨p.name, p.arity, p.entry, image⟩

/-- Read a constant that is a name. -/
def readName : Exec String := do
  match ← readConstant with
  | (_, .str s) => return s
  | (index, _) => throw (.invalidConstant index)

/-- The address a distance behind the next instruction. The end of the code is allowed. -/
def jumpTarget (offset : Word) : Exec Nat := do
  let t ← thread
  let target : Int := t.ip + offset.toInt
  if target < 0 ∨ (t.image.chunk.code.size : Int) < target then throw (.invalidJump (t.ip - 2))
  return target.toNat

/-- Go on at an address. -/
def jumpTo (address : Nat) : Exec Unit := updateThread fun t => { t with ip := address }

/-! ## Calls -/

/-- Check the number of arguments. -/
def checkArity (f : Function) (argc : Nat) : Exec Unit := do
  if f.arity ≠ argc then throw (.arity f.name f.arity argc)

/-- Put a receiver between a method, which takes the place of the callee, and the arguments. -/
def bindReceiver (limits : Limits) (slot : Nat) (method : Function) (receiver : InstanceRef) :
    Exec Unit := do
  if limits.stack ≤ (← thread).stack.size then throw .stackOverflow
  updateStack fun s =>
    s.take slot ++ #[.function method, .inst receiver] ++ s.drop (slot + 1)

/-- Enter a function whose callee is at a slot. -/
def enterFunction (limits : Limits) (f : Function) (slot : Nat) (result : Option Value) :
    Exec Unit := do
  if limits.frames ≤ (← thread).frames.size then throw .stackOverflow
  updateThread fun t =>
    { t with
      frames := t.frames.push ⟨t.image, t.ip, t.base, t.handler, result⟩
      image := f.image
      ip := f.entry
      base := slot + 1 }

/-- Run a native on arguments. -/
def callNative (host : Host) (n : Native) (args : List Value) : Exec Value := do
  let (result, w) := host.call n.builtin args (← world)
  updateWorld fun _ => w
  match result with
  | .ok v => return v
  | .error message => throw (.native n.name message)

/-- Call the value below the top `argc` values. -/
def callValue (host : Host) (argc : Nat) : Exec Unit := do
  let stack := (← thread).stack
  if stack.size < argc + 1 then throw .stackUnderflow
  let slot := stack.size - (argc + 1)
  match stack.getD slot .null with
  | .function f =>
    checkArity f argc
    enterFunction host.limits f slot none
  | .bound receiver method =>
    checkArity method argc
    bindReceiver host.limits slot method receiver
    enterFunction host.limits method slot none
  | .native n =>
    let args := (stack.drop (slot + 1)).toList
    updateStack (·.take slot)
    push host.limits (← callNative host n args)
  | .classRef c =>
    let (i, heap) := (← world).heap.newInstance c
    updateWorld fun w => { w with heap }
    match heap.method? c "init" with
    | none =>
      updateStack (·.take slot)
      push host.limits (.inst i)
    | some init =>
      checkArity init argc
      bindReceiver host.limits slot init i
      enterFunction host.limits init slot (some (.inst i))
  | v => throw (.notCallable v.typeName)

/-- Return a value: to the caller, or out of the run when no call of the run is left. -/
def doReturn (host : Host) (v : Value) : Exec (Option Value) := do
  let t ← thread
  if t.frames.size ≤ t.floor then return some v
  match t.frames.back? with
  | none => return some v
  | some frame =>
    updateThread fun t =>
      { t with
        frames := t.frames.pop
        stack := t.stack.take (t.base - 1)
        image := frame.image
        ip := frame.ip
        base := frame.base
        handler := frame.handler }
    push host.limits (frame.result.getD v)
    return none

/-! ## Imports and spawned calls -/

/-- Begin to run a module above the importer. -/
def beginImport (host : Host) (path : String) : Exec Unit := do
  match host.loader with
  | none => throw (.importFailed path "no module loader installed")
  | some load =>
    if host.limits.imports ≤ (← thread).imports then
      throw (.importFailed path "imports nested too deeply")
    match load (← world).files path with
    | .error message => throw (.importFailed path message)
    | .ok chunk =>
      updateThread fun t =>
        { t with
          windows := ⟨path, t.frames.size, t.stack.size, t.image, t.ip, t.base, t.handler⟩
            :: t.windows
          imports := t.imports + 1
          image := ⟨⟨t.id, t.loaded⟩, chunk⟩
          loaded := t.loaded + 1
          ip := 0
          base := t.stack.size
          handler := none }

/-- A thread of its own for a call, with a copy of the globals. -/
def Thread.child (t : Thread) (f : Function) (slots : List Value) : Thread where
  id := t.spawned :: t.id
  globals := t.globals
  stack := slots.toArray
  image := f.image
  ip := f.entry

/-- What a spawned call has to do. -/
def spawnJob (callee : Value) (args : List Value) : Exec Job := do
  let t ← thread
  match callee with
  | .native n => return .native n args
  | .function f =>
    checkArity f args.length
    return .script (t.child f args)
  | .bound receiver method =>
    checkArity method args.length
    return .script (t.child method (.inst receiver :: args))
  | v => throw (.spawnFailed ("cannot spawn a " ++ v.typeName))

/-- Spawn a call of the value below the top `argc` values. -/
def spawnCall (host : Host) (argc : Nat) : Exec Unit := do
  let args ← popMany argc
  let callee ← pop
  let job ← spawnJob callee args
  updateThread fun t => { t with spawned := t.spawned + 1 }
  updateWorld fun w =>
    { w with threads := w.threads + 1, pending := w.pending ++ [⟨w.threads, job⟩] }
  push host.limits .null

/-! ## Operators -/

/-- The sum of numbers, or the joined texts when one side is a string. -/
def addValues : Value → Value → Except RuntimeError Value
  | .number x, .number y => .ok (.number (x.add y))
  | .str a, b => .ok (.str (a ++ b.text))
  | a, .str b => .ok (.str (a.text ++ b))
  | a, b => .error (.operands "add" a.typeName b.typeName)

/-- An operation on two numbers. -/
def onNumbers (verb : String) (f : Number → Number → Value) : Value → Value →
    Except RuntimeError Value
  | .number x, .number y => .ok (f x y)
  | a, b => .error (.operands verb a.typeName b.typeName)

/-- Replace the two top values by the result of an operation. -/
def binary (host : Host) (f : Value → Value → Except RuntimeError Value) : Exec Unit := do
  let b ← pop
  let a ← pop
  match f a b with
  | .ok v => push host.limits v
  | .error e => throw e

/-- The map of keys and values that follow each other, in their order. -/
def buildMap : List Value → Table MapKey Value → Except RuntimeError (Table MapKey Value)
  | k :: v :: rest, t =>
    match k.toKey? with
    | some key => buildMap rest (t.insert key v)
    | none => .error (.unhashableKey k.typeName)
  | _, t => .ok t

/-- The property of an instance: a field, else a method bound to it. -/
def property (heap : Heap) (i : InstanceRef) (name : String) : Except RuntimeError Value :=
  match heap.field? i name with
  | some v => .ok v
  | none =>
    match heap.method? i.ofClass name with
    | some f => .ok (.bound i f)
    | none => .error (.undefinedProperty name i.ofClass.name)

/-! ## Dispatch -/

/-- Carry out an instruction whose opcode has been read. A value means that the run is over. -/
def execute (host : Host) : Opcode → Exec (Option Value)
  | .ret => do
    let v ← pop
    doReturn host v
  | .constant => do
    let (_, k) ← readConstant
    push host.limits (constantValue (← thread).image k)
    return none
  | .add => do
    binary host addValues
    return none
  | .subtract => do
    binary host (onNumbers "subtract" fun x y => .number (x.sub y))
    return none
  | .multiply => do
    binary host (onNumbers "multiply" fun x y => .number (x.mul y))
    return none
  | .divide => do
    binary host (onNumbers "divide" fun x y => .number (x.div y))
    return none
  | .negate => do
    match ← pop with
    | .number n => push host.limits (.number n.neg)
    | v => throw (.negation v.typeName)
    return none
  | .not => do
    let v ← pop
    push host.limits (.bool v.isFalsey)
    return none
  | .print => do
    let v ← pop
    let thread := (← thread).id
    updateWorld fun w => { w with printed := w.printed.push (thread, v.text) }
    return none
  | .pop => do
    discard pop
    return none
  | .getGlobal => do
    let name ← readName
    match (← thread).globals.get? name with
    | some v => push host.limits v
    | none => throw (.undefinedGlobal name)
    return none
  | .setGlobal => do
    let name ← readName
    let v ← top
    updateThread fun t => { t with globals := t.globals.insert name v }
    return none
  | .getLocal => do
    let index ← readIndex
    let t ← thread
    match t.stack[t.base + index]? with
    | some v => push host.limits v
    | none => throw (.invalidLocal (t.base + index))
    return none
  | .setLocal => do
    let index ← readIndex
    let v ← top
    let t ← thread
    let slot := t.base + index
    if t.stack.size ≤ slot then throw (.invalidLocal slot)
    updateStack (·.setIfInBounds slot v)
    return none
  | .jumpIfFalse => do
    let offset ← readOperand
    let v ← pop
    if v.isFalsey then jumpTo (← jumpTarget offset)
    return none
  | .jump => do
    let offset ← readOperand
    jumpTo (← jumpTarget offset)
    return none
  | .call => do
    callValue host (← readIndex)
    return none
  | .spawn => do
    spawnCall host (← readIndex)
    return none
  | .less => do
    binary host (onNumbers "compare" fun x y => .bool (x.lt y))
    return none
  | .greater => do
    binary host (onNumbers "compare" fun x y => .bool (y.lt x))
    return none
  | .lessEqual => do
    binary host (onNumbers "compare" fun x y => .bool (x.le y))
    return none
  | .greaterEqual => do
    binary host (onNumbers "compare" fun x y => .bool (y.le x))
    return none
  | .equal => do
    binary host fun a b => .ok (.bool (a.eq b))
    return none
  | .notEqual => do
    binary host fun a b => .ok (.bool (!a.eq b))
    return none
  | .buildList => do
    let items ← popMany (← readIndex)
    push host.limits (.list items)
    return none
  | .buildMap => do
    let n ← readIndex
    let flat ← popMany (n * 2)
    match buildMap flat {} with
    | .ok t => push host.limits (.map t)
    | .error e => throw e
    return none
  | .importUnit => do
    let path ← pop
    beginImport host path.text
    return none
  | .classDef => do
    let name ← readName
    let (c, heap) := (← world).heap.newClass name
    updateWorld fun w => { w with heap }
    updateThread fun t => { t with globals := t.globals.insert name (.classRef c) }
    push host.limits (.classRef c)
    return none
  | .method => do
    let name ← readName
    match ← pop with
    | .function f =>
      match ← top with
      | .classRef c => updateWorld fun w => { w with heap := w.heap.addMethod c name f }
      | v => throw (.methodOnNonClass name v.typeName)
    | v => throw (.notAMethod name v.typeName)
    return none
  | .getProperty => do
    let name ← readName
    match ← pop with
    | .inst i =>
      match property (← world).heap i name with
      | .ok v => push host.limits v
      | .error e => throw e
    | v => throw (.notAnInstance v.typeName)
    return none
  | .setProperty => do
    let name ← readName
    let v ← pop
    match ← pop with
    | .inst i => updateWorld fun w => { w with heap := w.heap.setField i name v }
    | o => throw (.notAnInstance o.typeName)
    push host.limits v
    return none
  | .tryEnter => do
    let offset ← readOperand
    let address ← jumpTarget offset
    updateThread fun t =>
      { t with handler := some ⟨address, t.image, t.base, t.frames.size, t.stack.size⟩ }
    return none
  | .tryExit => do
    updateThread fun t => { t with handler := none }
    return none

/-- Carry out the next instruction. Behind the end of the code it is a return of null. -/
def instruction (host : Host) : Exec (Option Value) := do
  let t ← thread
  match t.image.chunk.code[t.ip]? with
  | none => doReturn host .null
  | some w =>
    match Opcode.decode? w with
    | none => throw (.invalidOpcode w t.ip)
    | some op =>
      updateThread fun t => { t with ip := t.ip + 1 }
      execute host op

end DotScript.Machine
