import DotScript.Bytecode.Chunk
import DotScript.Table
import DotScript.Text.Span

/-!
# Building chunks

A `Builder` is a chunk under construction with the locals in scope and a table of its constants'
indices. Words are appended; a forward jump is written with a placeholder that is filled in once its
target is reached. A build that fails keeps what it has written so far.

* `Scope`: the locals of the function being compiled;
* `Indexes`: a table of indices is in step with the constants;
* `Build`: computations on a builder that may fail;
* `intern`: the index of a constant, shared with every earlier equal one that is no function.
-/

namespace DotScript.Compile

open DotScript.Text DotScript.Bytecode

/-- Why a program cannot be compiled. -/
inductive CompileError
  /-- What stands left of `=` is neither a variable nor a property. -/
  | invalidTarget (span : Span)
  | spawnOfNonCall (span : Span)
  | selfOutsideMethod (span : Span)
  /-- An operand does not fit into one word. -/
  | operandOverflow (operand : Nat)
  deriving DecidableEq, Repr

namespace CompileError

def message : CompileError → String
  | invalidTarget _ => "invalid assignment target"
  | spawnOfNonCall _ => "spawn must wrap a call"
  | selfOutsideMethod _ => "'this' used outside of a method"
  | operandOverflow n => "operand " ++ toString n ++ " out of range"

/-- Where the error lies, if it lies anywhere. -/
def span? : CompileError → Option Span
  | invalidTarget s | spawnOfNonCall s | selfOutsideMethod s => some s
  | operandOverflow _ => none

end CompileError

/-! ## Locals -/

/-- A local and the nesting of the block that declares it. -/
structure Local where
  name : String
  depth : Nat
  deriving DecidableEq, Repr

/-- The locals of the function being compiled, the newest first, and the nesting of blocks. -/
structure Scope where
  locals : List Local := []
  depth : Nat := 0
  deriving DecidableEq, Repr

namespace Scope

/-- The slot of the newest local with a name: the number of locals declared before it. -/
def slot? (name : String) : List Local → Option Nat
  | [] => none
  | l :: ls => if l.name = name then some ls.length else slot? name ls

def resolve (s : Scope) (name : String) : Option Nat := slot? name s.locals

def declare (s : Scope) (name : String) : Scope :=
  { s with locals := ⟨name, s.depth⟩ :: s.locals }

def enter (s : Scope) : Scope := { s with depth := s.depth + 1 }

/-- Leave a block with its locals. -/
def leave (s : Scope) : Scope :=
  let depth := s.depth - 1
  ⟨s.locals.dropWhile (fun l => depth < l.depth), depth⟩

/-- The scope of a function body: the receiver first for a method, then the parameters. -/
def ofParams (isMethod : Bool) (params : List String) : Scope :=
  params.foldl declare (if isMethod then ({} : Scope).declare "this" else {})

end Scope

/-! ## Tables of indices -/

/-- A table is in step with the constants: an index it gives is that of its key, and it gives the
index of every constant that is no function. -/
structure Indexes (indices : Table Constant Nat) (constants : Array Constant) : Prop where
  denotes : ∀ {k : Constant} {i : Nat}, indices.get? k = some i → constants[i]? = some k
  lists : ∀ {k : Constant} {i : Nat}, constants[i]? = some k → k.isFunction = false →
    indices.get? k = some i

namespace Indexes

variable {indices : Table Constant Nat} {constants : Array Constant} {k : Constant}

theorem empty : Indexes {} #[] := ⟨nofun, by simp⟩

/-- A constant behind the others leaves their indices as they are. -/
theorem denotes_push (h : Indexes indices constants) {k' : Constant} {i : Nat}
    (hi : indices.get? k' = some i) : (constants.push k)[i]? = some k' := by
  have hk' := h.denotes hi
  have hlt : i < constants.size := (Array.getElem?_eq_some_iff.mp hk').1
  rw [Array.getElem?_push_lt hlt, ← hk', Array.getElem?_eq_getElem hlt]

/-- Functions are not listed. -/
theorem pushFunction (h : Indexes indices constants) (hk : k.isFunction = true) :
    Indexes indices (constants.push k) where
  denotes := h.denotes_push
  lists := by
    intro k' i hi hplain
    rw [Array.getElem?_push] at hi
    split at hi
    · cases hi
      rw [hk] at hplain
      cases hplain
    · exact h.lists hi hplain

/-- A constant that is not listed yet comes in behind the others. -/
theorem pushNew (h : Indexes indices constants) (hk : indices.get? k = none) :
    Indexes (indices.insert k constants.size) (constants.push k) where
  denotes := by
    intro k' i hi
    rw [Table.get?_insert] at hi
    split at hi
    · next heq =>
      cases hi
      rw [heq, Array.getElem?_push_size]
    · exact h.denotes_push hi
  lists := by
    intro k' i hi hplain
    rw [Array.getElem?_push] at hi
    rw [Table.get?_insert]
    split at hi
    · next heq =>
      cases hi
      rw [if_pos rfl, heq]
    · have hlisted := h.lists hi hplain
      have hne : k ≠ k' := by
        rintro rfl
        rw [hk] at hlisted
        cases hlisted
      rw [if_neg hne, hlisted]

end Indexes

/-! ## Builders -/

/-- A chunk under construction, the locals in scope and the indices of the constants that are
shared. -/
structure Builder where
  chunk : Chunk
  scope : Scope := {}
  indices : Table Constant Nat := {}
  indexed : Indexes indices chunk.constants

/-- Computations on a builder. A failure keeps the builder as it was left. -/
abbrev Build := EStateM CompileError Builder

def Builder.new (name : String) : Builder := { chunk := { name }, indexed := .empty }

/-- The address of the next word. -/
def here : Build Nat := return (← get).chunk.code.size

def emitWord (w : Word) : Build Unit := modify fun b => { b with chunk := b.chunk.write w }

/-- Append an opcode and give its address. -/
def emitOp (op : Opcode) : Build Nat := do
  let address ← here
  emitWord op.encode
  return address

def emit (op : Opcode) : Build Unit := emitWord op.encode

/-- The word of an integer, if it has one. -/
def word? (n : Int) : Option Word :=
  if -2147483648 ≤ n ∧ n ≤ 2147483647 then some (Int32.ofInt n) else none

/-- The word of an integer; `operand` is what an error names. -/
def fit (n : Int) (operand : Nat) : Build Word :=
  match word? n with
  | some w => return w
  | none => throw (.operandOverflow operand)

/-- Append an opcode with an operand and give its address. -/
def emitWith (op : Opcode) (operand : Nat) : Build Nat := do
  let w ← fit operand operand
  let address ← emitOp op
  emitWord w
  return address

/-! ## Constants -/

/-- The builder with a constant that is to be shared from now on. -/
def Builder.share (b : Builder) (k : Constant) (hk : b.indices.get? k = none) : Builder := { b with
  chunk := b.chunk.addConstant k
  indices := b.indices.insert k b.chunk.constants.size
  indexed := b.indexed.pushNew hk }

@[simp] theorem Builder.share_chunk (b : Builder) (k : Constant) (hk : b.indices.get? k = none) :
    (b.share k hk).chunk = b.chunk.addConstant k := rfl

/-- The index of a constant that is no function, adding it if it is new. -/
def intern (k : Constant) : Build Nat := fun b =>
  match hk : b.indices.get? k with
  | some index => .ok index b
  | none => .ok b.chunk.constants.size (b.share k hk)

theorem intern_listed {k : Constant} {b : Builder} {index : Nat}
    (hk : b.indices.get? k = some index) : intern k b = .ok index b := by
  unfold intern
  split
  · next index' h =>
    cases h.symm.trans hk
    rfl
  · next h =>
    cases h.symm.trans hk

theorem intern_new {k : Constant} {b : Builder} (hk : b.indices.get? k = none) :
    intern k b = .ok b.chunk.constants.size (b.share k hk) := by
  unfold intern
  split
  · next index' h =>
    cases h.symm.trans hk
  · rfl

/-- The builder with a function behind the other constants. -/
def Builder.define (b : Builder) (proto : Prototype) : Builder := { b with
  chunk := b.chunk.addConstant (.function proto)
  indexed := b.indexed.pushFunction rfl }

@[simp] theorem Builder.define_chunk (b : Builder) (proto : Prototype) :
    (b.define proto).chunk = b.chunk.addConstant (.function proto) := rfl

/-- The index of a constant. A function is never shared: it gets an index of its own. -/
def addConstant : Constant → Build Nat
  | .function proto => fun b => .ok b.chunk.constants.size (b.define proto)
  | k => intern k

/-- The index of a string constant. -/
def internStr (s : String) : Build Nat := intern (.str s)

/-- Append the instruction that pushes a constant. -/
def emitConstant (index : Nat) : Build Unit := discard (emitWith .constant index)

def emitNull : Build Unit := do emitConstant (← intern .null)

/-- Append an instruction that names a string constant. -/
def emitName (op : Opcode) (name : String) : Build Unit := do
  discard (emitWith op (← internStr name))

/-! ## Jumps -/

/-- Append a forward jump and give the address of its operand. -/
def emitJump (op : Opcode) : Build Nat := do
  emit op
  let slot ← here
  emitWord 0
  return slot

/-- Let the jump with its operand at `slot` go to the next instruction. -/
def patchJump (slot : Nat) : Build Unit := do
  let target ← here
  let w ← fit (target - slot - 1 : Int) target
  modify fun b => { b with chunk := b.chunk.patch slot w }

/-- Append a jump back to an address. -/
def emitLoop (start : Nat) : Build Unit := do
  let address ← emitOp .jump
  emitWord (← fit (start - (address + 2) : Int) start)

/-! ## Scopes -/

def enterScope : Build Unit := modify fun b => { b with scope := b.scope.enter }

def declare (name : String) : Build Unit := modify fun b => { b with scope := b.scope.declare name }

/-- Append a number of pops. -/
def emitPops : Nat → Build Unit
  | 0 => return
  | n + 1 => do
    emit .pop
    emitPops n

/-- Leave a block, popping its locals. -/
def leaveScope : Build Unit := do
  let scope := (← get).scope
  let scope' := scope.leave
  modify fun b => { b with scope := scope' }
  emitPops (scope.locals.length - scope'.locals.length)

/-- Build in a scope of its own, going back to the current one even after a failure. -/
def withScope {α : Type} (scope : Scope) (body : Build α) : Build α := fun b =>
  match body { b with scope } with
  | .ok a b' => .ok a { b' with scope := b.scope }
  | .error e b' => .error e { b' with scope := b.scope }

end DotScript.Compile
