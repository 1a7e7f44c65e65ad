import DotScript.Machine.Exec
import DotScript.Proofs.Compile.Layout
import DotScript.Proofs.Computation

/-!
# What programs mean

An evaluation of the syntax tree, without code, stack or frames. It works on a `Store`: the locals
of the running function, the globals, and the world. Operands are evaluated from left to right.

* A name denotes the innermost parameter or error variable of the same function, else a global.
* A failure is `raised` while a handler is armed and goes to the innermost `try` in progress, in
  whatever function that is; otherwise it is `fatal` and ends the program.
* There is one place for an armed handler: entering the body of a `try` arms it, leaving the body
  normally or by a failure leaves none armed, and the end of a call brings back what was armed
  when it began.
* Functions are told apart by the declarations they come from, which `Context.declared` lists in the
  order of the text.

Evaluations are bounded: calls nest at most `rounds` deep, and a loop runs at most `rounds` times.
-/

namespace DotScript.Syntax

/-! ## Declarations -/

mutual

/-- The functions that a statement declares, with those declared in their bodies, in the order of
the text. Methods are marked. -/
def Stmt.declarations : Stmt → List (Bool × FunctionDecl)
  | .function decl => decl.declarations false
  | .classDecl _ methods _ => methodDeclarations methods
  | .block body => body.declarations
  | .ifElse _ thenBlock elseBlock _ =>
    thenBlock.declarations ++
      (match elseBlock with
        | some b => b.declarations
        | none => [])
  | .whileLoop _ body _ => body.declarations
  | .tryCatch body _ handler _ => body.declarations ++ handler.declarations
  | _ => []

def stmtDeclarations : List Stmt → List (Bool × FunctionDecl)
  | [] => []
  | s :: ss => s.declarations ++ stmtDeclarations ss

def Block.declarations : Block → List (Bool × FunctionDecl)
  | ⟨ss, _⟩ => stmtDeclarations ss

/-- Methods, with the functions declared in them. -/
def methodDeclarations : List FunctionDecl → List (Bool × FunctionDecl)
  | [] => []
  | m :: ms => m.declarations true ++ methodDeclarations ms

def FunctionDecl.declarations (isMethod : Bool) : FunctionDecl → List (Bool × FunctionDecl)
  | ⟨name, params, ⟨body, blockSpan⟩, span⟩ =>
    (isMethod, ⟨name, params, ⟨body, blockSpan⟩, span⟩) :: stmtDeclarations body

end

end DotScript.Syntax

namespace DotScript.Semantics

open DotScript.Machine DotScript.Syntax

/-! ## Evaluations -/

/-- Why an evaluation ends early. -/
inductive Stop
  /-- A failure on its way to the innermost `try`. -/
  | raised (e : RuntimeError)
  /-- A failure that nothing catches. -/
  | fatal (e : RuntimeError)
  | returned (v : Value)
  /-- The bound on calls and loops is reached. -/
  | exhausted
  /-- There is no rule for this. -/
  | stuck

/-- What an evaluation reads and changes. -/
structure Store where
  /-- The newest first. -/
  locals : List (String × Value) := []
  /-- Whether a handler is armed. -/
  armed : Bool := false
  globals : Table String Value
  world : World

/-- Computations on a store that may stop early. -/
abbrev Eval := EStateM Stop Store

/-- A function value and the declaration it stands for. -/
structure Declared where
  function : Function
  isMethod : Bool
  decl : FunctionDecl

/-- What an evaluation depends on. -/
structure Context where
  host : Host
  /-- Who prints. -/
  thread : ThreadId
  /-- The functions of the program, in the order of the text. -/
  declared : List Declared
  call : Value → List Value → Eval Value
  rounds : Nat

def fail {α : Type} (e : RuntimeError) : Eval α := do
  if (← get).armed then throw (.raised e) else throw (.fatal e)

theorem fail_apply {α : Type} (e : RuntimeError) (σ : Store) :
    (fail e : Eval α) σ = .error (if σ.armed then .raised e else .fatal e) σ := by
  simp only [fail]
  rw [bind_of_ok (get_apply σ)]
  split <;> rfl

/-- The result of an operation that may fail. -/
def attempt {α : Type} : Except RuntimeError α → Eval α
  | .ok a => return a
  | .error e => fail e

/-! ## Variables -/

/-- The value of a name. -/
def readVariable (name : String) : Eval Value := do
  let σ ← get
  match Table.find? name σ.locals with
  | some v => return v
  | none =>
    match σ.globals.get? name with
    | some v => return v
    | none => fail (.undefinedGlobal name)

/-- Give a name a value: a local where there is one of that name, else a global. -/
def writeVariable (name : String) (v : Value) : Eval Unit :=
  modify fun σ =>
    match Table.find? name σ.locals with
    | some _ => { σ with locals := Table.put name v σ.locals }
    | none => { σ with globals := σ.globals.insert name v }

/-- Exactly the names of locals have a slot. -/
theorem isSome_slotOf (name : String) (locals : List (String × Value)) :
    (Compile.slotOf name (locals.map (·.1))).isSome = (Table.find? name locals).isSome := by
  induction locals with
  | nil => rfl
  | cons l locals ih =>
    obtain ⟨n, v⟩ := l
    simp only [List.map_cons, Compile.slotOf, Table.find?]
    split
    · rfl
    · exact ih

/-- The receiver of the running method. -/
def receiver : Eval Value := do
  match Table.find? "this" (← get).locals with
  | some v => return v
  | none => throw .stuck

/-! ## Operators and objects -/

/-- The result of a binary operator. -/
def binaryResult : BinaryOp → Value → Value → Except RuntimeError Value
  | .add => addValues
  | .sub => onNumbers "subtract" fun x y => .number (x.sub y)
  | .mul => onNumbers "multiply" fun x y => .number (x.mul y)
  | .div => onNumbers "divide" fun x y => .number (x.div y)
  | .eq => fun a b => .ok (.bool (a.eq b))
  | .notEq => fun a b => .ok (.bool (!a.eq b))
  | .lt => onNumbers "compare" fun x y => .bool (x.lt y)
  | .ltEq => onNumbers "compare" fun x y => .bool (x.le y)
  | .gt => onNumbers "compare" fun x y => .bool (y.lt x)
  | .gtEq => onNumbers "compare" fun x y => .bool (y.le x)

/-- The result of a sign. -/
def unaryResult : UnaryOp → Value → Except RuntimeError Value
  | .neg, .number n => .ok (.number n.neg)
  | .neg, v => .error (.negation v.typeName)
  | .not, v => .ok (.bool v.isFalsey)

def updateHeap (f : Heap → Heap) : Eval Unit :=
  modify fun σ => { σ with world := { σ.world with heap := f σ.world.heap } }

def readProperty (o : Value) (name : String) : Eval Value := do
  match o with
  | .inst i => attempt (property (← get).world.heap i name)
  | o => fail (.notAnInstance o.typeName)

def writeProperty (o : Value) (name : String) (v : Value) : Eval Value := do
  match o with
  | .inst i =>
    updateHeap (·.setField i name v)
    return v
  | o => fail (.notAnInstance o.typeName)

/-- Print a line. -/
def printValue (thread : ThreadId) (v : Value) : Eval Unit :=
  modify fun σ =>
    { σ with world := { σ.world with printed := σ.world.printed.push (thread, v.text) } }

/-! ## Expressions -/

section
variable (Γ : Context)

mutual

/-- The value of an expression. -/
def expr : Expr → Eval Value
  | .var id => readVariable id.name
  | .null _ => return .null
  | .bool b _ => return .bool b
  | .number n _ => return .number n
  | .str s _ => return .str s
  | .assign (.var id) value _ => do
    let v ← expr value
    writeVariable id.name v
    return v
  | .assign _ _ _ => throw .stuck
  | .set object name value _ => do
    let o ← expr object
    let v ← expr value
    writeProperty o name.name v
  | .get object name _ => do
    let o ← expr object
    readProperty o name.name
  | .binary op left right _ => do
    let a ← expr left
    let b ← expr right
    attempt (binaryResult op a b)
  | .unary op operand _ => do
    let v ← expr operand
    attempt (unaryResult op v)
  | .call callee args _ => do
    let f ← expr callee
    let vs ← exprs args
    Γ.call f vs
  | .list elems _ => do
    let vs ← exprs elems
    return .list vs
  | .map entries _ => do
    let vs ← pairs entries
    attempt ((buildMap vs {}).map .map)
  | .self _ => receiver
  | .spawn _ _ => throw .stuck

def exprs : List Expr → Eval (List Value)
  | [] => return []
  | e :: es => do
    let v ← expr e
    let vs ← exprs es
    return v :: vs

/-- Keys and values, one after the other. -/
def pairs : List (Expr × Expr) → Eval (List Value)
  | [] => return []
  | (key, value) :: es => do
    let k ← expr key
    let v ← expr value
    let vs ← pairs es
    return k :: v :: vs

end

variable {Γ} in
theorem length_exprs {es : List Expr} {σ σ' : Store} {vs : List Value}
    (h : exprs Γ es σ = .ok vs σ') : vs.length = es.length := by
  induction es generalizing σ vs with
  | nil =>
    cases h
    rfl
  | cons e es ih =>
    simp only [exprs, bind_eq_ok] at h
    obtain ⟨v, σ₁, -, us, σ₂, hes, h⟩ := h
    cases h
    rw [List.length_cons, List.length_cons, ih hes]

variable {Γ} in
theorem length_pairs {es : List (Expr × Expr)} {σ σ' : Store} {vs : List Value}
    (h : pairs Γ es σ = .ok vs σ') : vs.length = es.length * 2 := by
  induction es generalizing σ vs with
  | nil =>
    cases h
    rfl
  | cons e es ih =>
    obtain ⟨key, value⟩ := e
    simp only [pairs, bind_eq_ok] at h
    obtain ⟨k, σ₁, -, v, σ₂, -, us, σ₃, hes, h⟩ := h
    cases h
    simp only [List.length_cons, ih hes]
    omega

/-- The value of an optional expression, null if it is missing. -/
def optional : Option Expr → Eval Value
  | some e => expr Γ e
  | none => return .null

/-! ## Statements -/

/-- Bind a function to its name. It is number `k` of the program. -/
def bindFunction (k : Nat) (decl : FunctionDecl) : Eval Unit :=
  match Γ.declared[k]? with
  | some d =>
    modify fun σ => { σ with globals := σ.globals.insert decl.name.name (.function d.function) }
  | none => throw .stuck

/-- Bind a new class to its name. -/
def bindClass (name : String) : Eval ClassRef := do
  let (c, heap) := (← get).world.heap.newClass name
  updateHeap fun _ => heap
  modify fun σ => { σ with globals := σ.globals.insert name (.classRef c) }
  return c

/-- Give a class its methods, which are numbered from `k` on. -/
def addMethods (c : ClassRef) : Nat → List FunctionDecl → Eval Unit
  | _, [] => return
  | k, m :: ms =>
    match Γ.declared[k]? with
    | some d => do
      updateHeap (·.addMethod c m.name.name d.function)
      addMethods c (k + (m.declarations true).length) ms
    | none => throw .stuck

/-- Run a body as long as a condition holds, at most a number of times. -/
def loop (cond : Eval Value) (body : Eval Unit) : Nat → Eval Unit
  | 0 => throw .exhausted
  | n + 1 => do
    let v ← cond
    if v.isFalsey then return
    body
    loop cond body n

/-- Run with one more local. -/
def withLocal {α : Type} (name : String) (v : Value) (body : Eval α) : Eval α := fun σ =>
  match body { σ with locals := (name, v) :: σ.locals } with
  | .ok a σ' => .ok a { σ' with locals := σ'.locals.tail }
  | .error stop σ' => .error stop { σ' with locals := σ'.locals.tail }

/-- Run a body with its handler armed, and the handler if the body fails. -/
def guarded (body : Eval Unit) (name : String) (handler : Eval Unit) : Eval Unit := fun σ =>
  match body { σ with armed := true } with
  | .ok _ σ' => .ok () { σ' with armed := false }
  | .error (.raised e) σ' => withLocal name (.str e.message) handler { σ' with armed := false }
  | .error stop σ' => .error stop σ'

mutual

/-- Run a statement; the functions declared in it are numbered from `k` on. -/
def stmt (k : Nat) : Stmt → Eval Unit
  | .expr e => do
    let _ ← expr Γ e
    return
  | .print value _ => do
    let v ← expr Γ value
    printValue Γ.thread v
  | .function decl => bindFunction Γ k decl
  | .classDecl name methods _ => do
    let c ← bindClass name.name
    addMethods Γ c k methods
  | .block body => block k body
  | .ifElse cond thenBlock elseBlock _ => do
    let v ← expr Γ cond
    if v.isFalsey then
      match elseBlock with
      | some b => block (k + thenBlock.declarations.length) b
      | none => return
    else block k thenBlock
  | .whileLoop cond body _ => loop (expr Γ cond) (block k body) Γ.rounds
  | .ret value _ => do
    let v ← optional Γ value
    throw (.returned v)
  | .importUnit _ _ => throw .stuck
  | .tryCatch body errorVar handler _ =>
    guarded (block k body) errorVar.name (block (k + body.declarations.length) handler)

def stmts (k : Nat) : List Stmt → Eval Unit
  | [] => return
  | s :: ss => do
    stmt k s
    stmts (k + s.declarations.length) ss

def block (k : Nat) : Block → Eval Unit
  | ⟨ss, _⟩ => stmts k ss

end

mutual

/-- The value of a last statement: that of an expression, through an `if`, otherwise null. -/
def lastValue (k : Nat) : Stmt → Eval Value
  | .expr e => expr Γ e
  | .ifElse cond thenBlock elseBlock _ => do
    let v ← expr Γ cond
    if v.isFalsey then
      match elseBlock with
      | some b => blockValue (k + thenBlock.declarations.length) b
      | none => return .null
    else blockValue k thenBlock
  | s => do
    stmt Γ k s
    return .null

def blockValue (k : Nat) : Block → Eval Value
  | ⟨ss, _⟩ => value k ss

/-- The value of statements: that of the last of them. -/
def value (k : Nat) : List Stmt → Eval Value
  | [] => return .null
  | [s] => lastValue k s
  | s :: ss => do
    stmt Γ k s
    value (k + s.declarations.length) ss

end

/-! ## Calls -/

/-- Run the body of a function on locals of its own. The locals of the caller, and what was armed,
come back. -/
def asCall (locals : List (String × Value)) (body : Eval Value) : Eval Value := fun σ =>
  match body { σ with locals } with
  | .ok v σ' | .error (.returned v) σ' => .ok v { σ' with locals := σ.locals, armed := σ.armed }
  | .error stop σ' => .error stop { σ' with locals := σ.locals, armed := σ.armed }

/-- The declaration of a function with its number. -/
def Context.find? (f : Function) (isMethod : Bool) : Option (Declared × Nat) :=
  Γ.declared.zipIdx.find? fun d => d.1.function = f ∧ d.1.isMethod = isMethod

/-- Run a function on its first locals, the oldest first. -/
def enter (f : Function) (isMethod : Bool) (slots : List Value) : Eval Value :=
  match Γ.find? f isMethod with
  | some (d, k) =>
    asCall ((Compile.bodyNames isMethod (d.decl.params.map (·.name))).zip slots.reverse)
      (value Γ (k + 1) d.decl.body.stmts)
  | none => throw .stuck

def checkCount (f : Function) (args : List Value) : Eval Unit :=
  if f.arity = args.length then return else fail (.arity f.name f.arity args.length)

/-- Call a value. A class gives a new instance, whatever its initializer returns. -/
def apply (callee : Value) (args : List Value) : Eval Value := do
  match callee with
  | .function f =>
    checkCount f args
    enter Γ f false args
  | .bound receiver f =>
    checkCount f args
    enter Γ f true (.inst receiver :: args)
  | .native n =>
    let (result, w) := Γ.host.call n.builtin args (← get).world
    modify fun σ => { σ with world := w }
    match result with
    | .ok v => return v
    | .error message => fail (.native n.name message)
  | .classRef c =>
    let (i, heap) := (← get).world.heap.newInstance c
    updateHeap fun _ => heap
    match heap.method? c "init" with
    | none => return .inst i
    | some init =>
      checkCount init args
      let _ ← enter Γ init true (.inst i :: args)
      return .inst i
  | v => fail (.notCallable v.typeName)

end

/-! ## Programs -/

section
variable (host : Host) (thread : ThreadId) (declared : List Declared)

/-- Calls nested at most `n` deep. -/
def invoke : Nat → Value → List Value → Eval Value
  | 0, _, _ => throw .exhausted
  | n + 1, callee, args => apply ⟨host, thread, declared, invoke n, n⟩ callee args

/-- The context with a bound on calls and loops. -/
def context (n : Nat) : Context := ⟨host, thread, declared, invoke host thread declared n, n⟩

/-- How a program ends on globals and a world, if the bound suffices: its value or failure, the
globals and the world. -/
def runProgram (n : Nat) (p : Program) (globals : Table String Value) (world : World) :
    Option (Except RuntimeError Value × Table String Value × World) :=
  match stmts (context host thread declared n) 0 p.stmts { globals, world } with
  | .ok _ σ => some (.ok .null, σ.globals, σ.world)
  | .error (.returned v) σ => some (.ok v, σ.globals, σ.world)
  | .error (.fatal e) σ => some (.error e, σ.globals, σ.world)
  | .error _ _ => none

end

end DotScript.Semantics
