import DotScript.Compile.Builder
import DotScript.Syntax.Tree

/-!
# Code for programs

One pass over the tree. An expression leaves one more value on the stack; a statement leaves the
stack as it was. A function's body stands in line behind a jump over it, and a constant records where
it begins.
-/

namespace DotScript.Compile

open DotScript.Text DotScript.Bytecode DotScript.Syntax

def binaryOpcode : BinaryOp → Opcode
  | .add => .add
  | .sub => .subtract
  | .mul => .multiply
  | .div => .divide
  | .eq => .equal
  | .notEq => .notEqual
  | .lt => .less
  | .ltEq => .lessEqual
  | .gt => .greater
  | .gtEq => .greaterEqual

/-- The opcode of a sign. -/
def unaryOpcode : UnaryOp → Opcode
  | .neg => .negate
  | .not => .not

/-- Append the instruction that reads or writes a name: by its slot if it is a local, otherwise as
a global. -/
def emitVariable (onLocal onGlobal : Opcode) (name : String) : Build Unit := do
  match (← get).scope.resolve name with
  | some slot => discard (emitWith onLocal slot)
  | none => emitName onGlobal name

/-! ## Expressions -/

mutual

/-- Code that pushes the value of an expression. -/
def expr : Expr → Build Unit
  | .var id => emitVariable .getLocal .getGlobal id.name
  | .null _ => do emitConstant (← intern .null)
  | .bool b _ => do emitConstant (← intern (.bool b))
  | .number n _ => do emitConstant (← intern (.number n))
  | .str s _ => do emitConstant (← internStr s)
  | .assign (.var id) value _ => do
    expr value
    emitVariable .setLocal .setGlobal id.name
  | .assign target _ _ => throw (.invalidTarget target.span)
  | .set object name value _ => do
    expr object
    expr value
    emitName .setProperty name.name
  | .get object name _ => do
    expr object
    emitName .getProperty name.name
  | .binary op left right _ => do
    expr left
    expr right
    emit (binaryOpcode op)
  | .unary op operand _ => do
    expr operand
    emit (unaryOpcode op)
  | .call callee args _ => do
    expr callee
    exprs args
    discard (emitWith .call args.length)
  | .list elems _ => do
    exprs elems
    discard (emitWith .buildList elems.length)
  | .map entries _ => do
    pairs entries
    discard (emitWith .buildMap entries.length)
  | .self span => do
    match (← get).scope.resolve "this" with
    | some slot => discard (emitWith .getLocal slot)
    | none => throw (.selfOutsideMethod span)
  | .spawn (.call callee args _) _ => do
    expr callee
    exprs args
    discard (emitWith .spawn args.length)
  | .spawn operand _ => throw (.spawnOfNonCall operand.span)

def exprs : List Expr → Build Unit
  | [] => return
  | e :: es => do
    expr e
    exprs es

/-- Code that pushes keys and values from left to right. -/
def pairs : List (Expr × Expr) → Build Unit
  | [] => return
  | (key, value) :: es => do
    expr key
    expr value
    pairs es

end

/-! ## Statements -/

/-- Code that runs one of two branches. -/
def conditional (cond thenCode elseCode : Build Unit) : Build Unit := do
  cond
  let elseJump ← emitJump .jumpIfFalse
  thenCode
  let endJump ← emitJump .jump
  patchJump elseJump
  elseCode
  patchJump endJump

mutual

/-- Code that runs a statement. -/
def stmt : Stmt → Build Unit
  | .expr e => do
    expr e
    emit .pop
  | .print value _ => do
    expr value
    emit .print
  | .function decl => do
    let proto ← function false decl
    let name ← internStr decl.name.name
    emitConstant proto
    discard (emitWith .setGlobal name)
    emit .pop
  | .classDecl name methods _ => do
    emitName .classDef name.name
    methodDefs methods
    emit .pop
  | .block body => block body
  | .ifElse cond thenBlock elseBlock _ =>
    conditional (expr cond) (block thenBlock)
      (match elseBlock with
        | some b => block b
        | none => pure ())
  | .whileLoop cond body _ => do
    let start ← here
    expr cond
    let exit ← emitJump .jumpIfFalse
    block body
    emitLoop start
    patchJump exit
  | .ret value _ => do
    match value with
    | some e => expr e
    | none => emitNull
    emit .ret
  | .importUnit path _ => do
    expr path
    emit .importUnit
  | .tryCatch body errorVar handler _ => do
    let handlerJump ← emitJump .tryEnter
    block body
    emit .tryExit
    let endJump ← emitJump .jump
    -- A caught failure leaves its message on the stack, where the error variable has its slot.
    patchJump handlerJump
    enterScope
    declare errorVar.name
    block handler
    leaveScope
    patchJump endJump

def stmts : List Stmt → Build Unit
  | [] => return
  | s :: ss => do
    stmt s
    stmts ss

/-- Code that runs a block in a scope of its own. -/
def block : Block → Build Unit
  | ⟨ss, _⟩ => do
    enterScope
    stmts ss
    leaveScope

/-- Code that adds methods to the class on top of the stack. -/
def methodDefs : List FunctionDecl → Build Unit
  | [] => return
  | m :: ms => do
    let proto ← function true m
    let name ← internStr m.name.name
    emitConstant proto
    discard (emitWith .method name)
    methodDefs ms

/-- Code of a function, behind a jump over it. Gives the index of its constant. A method has its
receiver in the first slot. -/
def function (isMethod : Bool) : FunctionDecl → Build Nat
  | ⟨name, params, ⟨body, _⟩, _⟩ => do
    let skip ← emitJump .jump
    let entry ← here
    withScope (.ofParams isMethod (params.map (·.name))) (functionBody body)
    patchJump skip
    addConstant (.function ⟨name.name, params.length, entry⟩)

/-- Code of a function body. A last expression or `if` gives the value returned, anything else
returns null. -/
def functionBody : List Stmt → Build Unit
  | [] => do
    emitNull
    emit .ret
  | [s] => do
    match s with
    | .expr e => do
      expr e
      emit .ret
    | .ifElse cond ⟨thenStmts, _⟩ elseBlock _ => do
      conditional (expr cond) (valueOf thenStmts)
        (match elseBlock with
          | some ⟨elseStmts, _⟩ => valueOf elseStmts
          | none => emitNull)
      emit .ret
    | .ret value span => stmt (.ret value span)
    | s => do
      stmt s
      emitNull
      emit .ret
  | s :: ss => do
    stmt s
    functionBody ss

/-- Code of statements of which the last leaves a value: that of an expression or an `if`, otherwise
null. -/
def valueOf : List Stmt → Build Unit
  | [] => emitNull
  | [s] => do
    match s with
    | .expr e => expr e
    | .ifElse cond ⟨thenStmts, _⟩ elseBlock _ =>
      conditional (expr cond) (valueOf thenStmts)
        (match elseBlock with
          | some ⟨elseStmts, _⟩ => valueOf elseStmts
          | none => emitNull)
    | s => do
      stmt s
      emitNull
  | s :: ss => do
    stmt s
    valueOf ss

end

/-- Code of a whole program: it ends by returning null. -/
def program (p : Program) : Build Unit := do
  stmts p.stmts
  emitNull
  emit .ret

/-- Compile a program into a chunk with a name. -/
def compile (p : Program) (name : String) : Except CompileError Chunk :=
  match program p (.new name) with
  | .ok _ b => .ok b.chunk
  | .error e _ => .error e

end DotScript.Compile
