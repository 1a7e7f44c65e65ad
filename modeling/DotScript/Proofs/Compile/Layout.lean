import DotScript.Compile.Code

/-!
# The layout of compiled code

Where the code of each piece of a program stands in its chunk. The width of a piece in words does
not depend on the names in scope, so every address inside the code of a piece is known from the tree
and the address at which the piece begins.

* `Expr.width`, `Stmt.width`, ...: how many words the code of a piece takes;
* `ExprAt c ns a e`, `StmtAt c ns a s`, ...: the code of a piece stands in the chunk `c` from the
  address `a` on, compiled with the locals `ns` in scope, the newest first;
* `ValueAt` is the code of statements that leave a value, `BodyAt` that of a function body.
-/

namespace DotScript.Syntax

/-! ## Widths -/

mutual

/-- The number of words of an expression. -/
def Expr.width : Expr → Nat
  | .var _ | .null _ | .bool _ _ | .number _ _ | .str _ _ | .self _ => 2
  | .assign _ value _ => value.width + 2
  | .set object _ value _ => object.width + value.width + 2
  | .get object _ _ => object.width + 2
  | .binary _ left right _ => left.width + right.width + 1
  | .unary _ operand _ => operand.width + 1
  | .call callee args _ => callee.width + widths args + 2
  | .list elems _ => widths elems + 2
  | .map entries _ => pairWidths entries + 2
  | .spawn call _ => call.width

/-- The number of words of expressions that follow each other. -/
def widths : List Expr → Nat
  | [] => 0
  | e :: es => e.width + widths es

/-- The number of words of keys and values that follow each other. -/
def pairWidths : List (Expr × Expr) → Nat
  | [] => 0
  | (key, value) :: es => key.width + value.width + pairWidths es

end

/-- Whether the last of some statements is a `return`. -/
def endsInReturn : List Stmt → Bool
  | [] => false
  | [.ret _ _] => true
  | [_] => false
  | _ :: ss => endsInReturn ss

/-- The number of words of an optional expression, which is null if it is missing. -/
def optionalWidth : Option Expr → Nat
  | some e => e.width
  | none => 2

mutual

def Stmt.width : Stmt → Nat
  | .expr e => e.width + 1
  | .print value _ => value.width + 1
  | .function decl => decl.width + 5
  | .classDecl _ methods _ => methodsWidth methods + 3
  | .block body => body.width
  | .ifElse cond thenBlock elseBlock _ =>
    cond.width + thenBlock.width + 4 +
      (match elseBlock with
        | some b => b.width
        | none => 0)
  | .whileLoop cond body _ => cond.width + body.width + 4
  | .ret value _ => optionalWidth value + 1
  | .importUnit path _ => path.width + 1
  | .tryCatch body _ handler _ => body.width + handler.width + 6

/-- The number of words of statements that follow each other. -/
def stmtsWidth : List Stmt → Nat
  | [] => 0
  | s :: ss => s.width + stmtsWidth ss

def Block.width : Block → Nat
  | ⟨ss, _⟩ => stmtsWidth ss

/-- The number of words of method definitions that follow each other. -/
def methodsWidth : List FunctionDecl → Nat
  | [] => 0
  | m :: ms => m.width + 4 + methodsWidth ms

/-- The number of words of a function with the jump over it. -/
def FunctionDecl.width : FunctionDecl → Nat
  | ⟨_, _, ⟨body, _⟩, _⟩ =>
    2 + (if endsInReturn body then stmtsWidth body else valueWidth body + 1)

/-- The number of words of statements of which the last leaves a value. -/
def valueWidth : List Stmt → Nat
  | [] => 2
  | [s] =>
    match s with
    | .expr e => e.width
    | .ifElse cond ⟨thenStmts, _⟩ elseBlock _ =>
      cond.width + valueWidth thenStmts + 4 +
        (match elseBlock with
          | some ⟨elseStmts, _⟩ => valueWidth elseStmts
          | none => 2)
    | s => s.width + 2
  | s :: ss => s.width + valueWidth ss

end

def bodyWidth (body : List Stmt) : Nat :=
  if endsInReturn body then stmtsWidth body else valueWidth body + 1

/-! ## Addresses behind composite pieces

The words of a composite piece that begins at `a`, counted part by part in the order of the code. -/

section
variable (a : Nat) (cond : Expr) (span : Text.Span)

theorem Stmt.add_width_classDecl (name : Ident) (methods : List FunctionDecl) :
    a + (Stmt.classDecl name methods span).width = a + 2 + methodsWidth methods + 1 := by
  simp only [Stmt.width]
  omega

theorem Stmt.add_width_ifThen (thenBlock : Block) :
    a + (Stmt.ifElse cond thenBlock none span).width =
      a + cond.width + 2 + thenBlock.width + 2 := by
  simp only [Stmt.width]
  omega

theorem Stmt.add_width_ifElse (thenBlock elseBlock : Block) :
    a + (Stmt.ifElse cond thenBlock (some elseBlock) span).width =
      a + cond.width + 2 + thenBlock.width + 2 + elseBlock.width := by
  simp only [Stmt.width]
  omega

theorem Stmt.add_width_whileLoop (body : Block) :
    a + (Stmt.whileLoop cond body span).width = a + cond.width + 2 + body.width + 2 := by
  simp only [Stmt.width]
  omega

theorem Stmt.add_width_tryCatch (body : Block) (errorVar : Ident) (handler : Block) :
    a + (Stmt.tryCatch body errorVar handler span).width =
      a + 2 + body.width + 3 + handler.width + 1 := by
  simp only [Stmt.width]
  omega

theorem add_valueWidth_ifThen (thenStmts : List Stmt) (thenSpan : Text.Span) :
    a + valueWidth [.ifElse cond ⟨thenStmts, thenSpan⟩ none span] =
      a + cond.width + 2 + valueWidth thenStmts + 2 + 2 := by
  change a + (cond.width + valueWidth thenStmts + 4 + 2) = _
  omega

theorem add_valueWidth_ifElse (thenStmts elseStmts : List Stmt) (thenSpan elseSpan : Text.Span) :
    a + valueWidth [.ifElse cond ⟨thenStmts, thenSpan⟩ (some ⟨elseStmts, elseSpan⟩) span] =
      a + cond.width + 2 + valueWidth thenStmts + 2 + valueWidth elseStmts := by
  change a + (cond.width + valueWidth thenStmts + 4 + valueWidth elseStmts) = _
  omega

theorem add_valueWidth_cons (s s' : Stmt) (ss : List Stmt) :
    a + valueWidth (s :: s' :: ss) = a + s.width + valueWidth (s' :: ss) :=
  (Nat.add_assoc a s.width _).symm

end

end DotScript.Syntax

namespace DotScript.Compile

open DotScript.Bytecode DotScript.Syntax

/-! ## Instructions -/

/-- The opcode at an address. -/
def OpAt (c : Chunk) (a : Nat) (op : Opcode) : Prop := c.code[a]? = some op.encode

/-- An address has one opcode. -/
theorem OpAt.ne {c : Chunk} {a : Nat} {op op' : Opcode} (h : OpAt c a op) (hne : op ≠ op') :
    ¬ OpAt c a op' := by
  intro h'
  have heq : Opcode.decode? op.encode = Opcode.decode? op'.encode := by
    rw [Option.some.inj (h.symm.trans h')]
  rw [Opcode.decode?_encode, Opcode.decode?_encode] at heq
  exact hne (Option.some.inj heq)

/-- An instruction with a count, slot or index. -/
def InstrAt (c : Chunk) (a : Nat) (op : Opcode) (operand : Nat) : Prop :=
  OpAt c a op ∧ ∃ w : Word, c.code[a + 1]? = some w ∧ w.toInt = operand

theorem InstrAt.operand_unique {c : Chunk} {a n m : Nat} {op op' : Opcode} (h : InstrAt c a op n)
    (h' : InstrAt c a op' m) : n = m := by
  obtain ⟨-, w, hw, hn⟩ := h
  obtain ⟨-, w', hw', hm⟩ := h'
  obtain rfl : w = w' := Option.some.inj (hw.symm.trans hw')
  omega

/-- An instruction with a constant. -/
def ConstAt (c : Chunk) (a : Nat) (op : Opcode) (k : Constant) : Prop :=
  ∃ index, InstrAt c a op index ∧ c.constants[index]? = some k

theorem ConstAt.opAt {c : Chunk} {a : Nat} {op : Opcode} {k : Constant} (h : ConstAt c a op k) :
    OpAt c a op := by
  obtain ⟨_, hinstr, _⟩ := h
  exact hinstr.1

/-- A jump to an address. -/
def JumpAt (c : Chunk) (a : Nat) (op : Opcode) (target : Nat) : Prop :=
  OpAt c a op ∧ ∃ w : Word, c.code[a + 1]? = some w ∧ (a : Int) + 2 + w.toInt = target ∧
    target ≤ c.code.size

/-- The slot of the newest local with a name, the newest local first. -/
def slotOf (name : String) : List String → Option Nat
  | [] => none
  | n :: ns => if n = name then some ns.length else slotOf name ns

/-- An instruction that reads or writes a variable. -/
def VariableAt (c : Chunk) (ns : List String) (a : Nat) (onLocal onGlobal : Opcode)
    (name : String) : Prop :=
  match slotOf name ns with
  | some slot => InstrAt c a onLocal slot
  | none => ConstAt c a onGlobal (.str name)

/-- The locals of a function body, the newest first: the receiver of a method is the oldest. -/
def bodyNames (isMethod : Bool) (params : List String) : List String :=
  params.reverse ++ (if isMethod then ["this"] else [])

/-- The constant of a function declared by `decl` whose code begins at `entry`. -/
def protoOf (decl : FunctionDecl) (entry : Nat) : Prototype :=
  ⟨decl.name.name, decl.params.length, entry⟩

/-! ## The same code in another chunk -/

/-- The code and the constants of a chunk are the first ones of another. -/
structure Begins (c d : Chunk) : Prop where
  code : ∀ {a : Nat} {w : Word}, c.code[a]? = some w → d.code[a]? = some w
  constants : ∀ {n : Nat} {k : Constant}, c.constants[n]? = some k → d.constants[n]? = some k

namespace Begins

variable {c d : Chunk} {a n t : Nat} {op : Opcode} {k : Constant}

theorem refl (c : Chunk) : Begins c c := ⟨id, id⟩

theorem size_le (h : Begins c d) : c.code.size ≤ d.code.size := by
  refine Nat.le_of_not_lt fun hin => ?_
  have hword := h.code (Array.getElem?_eq_getElem hin)
  rw [Array.getElem?_eq_none (Nat.le_refl _)] at hword
  cases hword

theorem opAt (h : Begins c d) (hop : OpAt c a op) : OpAt d a op := h.code hop

theorem instrAt (h : Begins c d) (hinstr : InstrAt c a op n) : InstrAt d a op n :=
  ⟨h.opAt hinstr.1, hinstr.2.imp fun _ hw => ⟨h.code hw.1, hw.2⟩⟩

theorem constAt (h : Begins c d) (hconst : ConstAt c a op k) : ConstAt d a op k :=
  hconst.imp fun _ hn => ⟨h.instrAt hn.1, h.constants hn.2⟩

theorem jumpAt (h : Begins c d) (hjump : JumpAt c a op t) : JumpAt d a op t :=
  ⟨h.opAt hjump.1, hjump.2.imp fun _ hw => ⟨h.code hw.1, hw.2.1, Nat.le_trans hw.2.2 h.size_le⟩⟩

end Begins

/-! ## Expressions -/

mutual

/-- The code of an expression. -/
def ExprAt (c : Chunk) (ns : List String) (a : Nat) : Expr → Prop
  | .var id => VariableAt c ns a .getLocal .getGlobal id.name
  | .null _ => ConstAt c a .constant .null
  | .bool b _ => ConstAt c a .constant (.bool b)
  | .number n _ => ConstAt c a .constant (.number n)
  | .str s _ => ConstAt c a .constant (.str s)
  | .assign (.var id) value _ =>
    ExprAt c ns a value ∧ VariableAt c ns (a + value.width) .setLocal .setGlobal id.name
  | .assign _ _ _ => False
  | .set object name value _ =>
    ExprAt c ns a object ∧ ExprAt c ns (a + object.width) value ∧
      ConstAt c (a + object.width + value.width) .setProperty (.str name.name)
  | .get object name _ =>
    ExprAt c ns a object ∧ ConstAt c (a + object.width) .getProperty (.str name.name)
  | .binary op left right _ =>
    ExprAt c ns a left ∧ ExprAt c ns (a + left.width) right ∧
      OpAt c (a + left.width + right.width) (binaryOpcode op)
  | .unary op operand _ => ExprAt c ns a operand ∧ OpAt c (a + operand.width) (unaryOpcode op)
  | .call callee args _ =>
    ExprAt c ns a callee ∧ ExprsAt c ns (a + callee.width) args ∧
      InstrAt c (a + callee.width + widths args) .call args.length
  | .list elems _ => ExprsAt c ns a elems ∧ InstrAt c (a + widths elems) .buildList elems.length
  | .map entries _ =>
    PairsAt c ns a entries ∧ InstrAt c (a + pairWidths entries) .buildMap entries.length
  | .self _ => ∃ slot, slotOf "this" ns = some slot ∧ InstrAt c a .getLocal slot
  | .spawn (.call callee args _) _ =>
    ExprAt c ns a callee ∧ ExprsAt c ns (a + callee.width) args ∧
      InstrAt c (a + callee.width + widths args) .spawn args.length
  | .spawn _ _ => False

/-- The code of expressions that follow each other. -/
def ExprsAt (c : Chunk) (ns : List String) (a : Nat) : List Expr → Prop
  | [] => True
  | e :: es => ExprAt c ns a e ∧ ExprsAt c ns (a + e.width) es

/-- The code of keys and values that follow each other. -/
def PairsAt (c : Chunk) (ns : List String) (a : Nat) : List (Expr × Expr) → Prop
  | [] => True
  | (key, value) :: es =>
    ExprAt c ns a key ∧ ExprAt c ns (a + key.width) value ∧
      PairsAt c ns (a + key.width + value.width) es

end

/-- The code of an optional expression, which is null if it is missing. -/
def OptionalAt (c : Chunk) (ns : List String) (a : Nat) : Option Expr → Prop
  | some e => ExprAt c ns a e
  | none => ConstAt c a .constant .null

/-! ## Statements -/

/-- The jumps of code that runs one of two branches: the code of the condition ends at `a`. -/
structure BranchAt (c : Chunk) (a thenWidth elseWidth : Nat) : Prop where
  toElse : JumpAt c a .jumpIfFalse (a + 2 + thenWidth + 2)
  toEnd : JumpAt c (a + 2 + thenWidth) .jump (a + 2 + thenWidth + 2 + elseWidth)

/-- The jumps of a loop that begins at `start` and whose condition ends at `a`. -/
structure LoopAt (c : Chunk) (start a bodyWidth : Nat) : Prop where
  toEnd : JumpAt c a .jumpIfFalse (a + 2 + bodyWidth + 2)
  toStart : JumpAt c (a + 2 + bodyWidth) .jump start

/-- The instructions around the body and the handler of a `try` that begins at `a`. -/
structure TryAt (c : Chunk) (a bodyWidth handlerWidth : Nat) : Prop where
  enter : JumpAt c a .tryEnter (a + 2 + bodyWidth + 3)
  exit : OpAt c (a + 2 + bodyWidth) .tryExit
  toEnd : JumpAt c (a + 2 + bodyWidth + 1) .jump (a + 2 + bodyWidth + 3 + handlerWidth + 1)
  /-- The error variable is popped behind the handler. -/
  unbind : OpAt c (a + 2 + bodyWidth + 3 + handlerWidth) .pop

mutual

def StmtAt (c : Chunk) (ns : List String) (a : Nat) : Stmt → Prop
  | .expr e => ExprAt c ns a e ∧ OpAt c (a + e.width) .pop
  | .print value _ => ExprAt c ns a value ∧ OpAt c (a + value.width) .print
  | .function decl =>
    FunctionAt c false a decl ∧
      ConstAt c (a + decl.width) .constant (.function (protoOf decl (a + 2))) ∧
      ConstAt c (a + decl.width + 2) .setGlobal (.str decl.name.name) ∧
      OpAt c (a + decl.width + 4) .pop
  | .classDecl name methods _ =>
    ConstAt c a .classDef (.str name.name) ∧ MethodsAt c (a + 2) methods ∧
      OpAt c (a + 2 + methodsWidth methods) .pop
  | .block body => BlockAt c ns a body
  | .ifElse cond thenBlock elseBlock _ =>
    ExprAt c ns a cond ∧
      BranchAt c (a + cond.width) thenBlock.width
        (match elseBlock with
          | some b => b.width
          | none => 0) ∧
      BlockAt c ns (a + cond.width + 2) thenBlock ∧
      (match elseBlock with
        | some b => BlockAt c ns (a + cond.width + 2 + thenBlock.width + 2) b
        | none => True)
  | .whileLoop cond body _ =>
    ExprAt c ns a cond ∧ LoopAt c a (a + cond.width) body.width ∧
      BlockAt c ns (a + cond.width + 2) body
  | .ret value _ => OptionalAt c ns a value ∧ OpAt c (a + optionalWidth value) .ret
  | .importUnit path _ => ExprAt c ns a path ∧ OpAt c (a + path.width) .importUnit
  | .tryCatch body errorVar handler _ =>
    TryAt c a body.width handler.width ∧ BlockAt c ns (a + 2) body ∧
      BlockAt c (errorVar.name :: ns) (a + 2 + body.width + 3) handler

/-- The code of statements that follow each other. -/
def StmtsAt (c : Chunk) (ns : List String) (a : Nat) : List Stmt → Prop
  | [] => True
  | s :: ss => StmtAt c ns a s ∧ StmtsAt c ns (a + s.width) ss

def BlockAt (c : Chunk) (ns : List String) (a : Nat) : Block → Prop
  | ⟨ss, _⟩ => StmtsAt c ns a ss

/-- The code of method definitions that follow each other. -/
def MethodsAt (c : Chunk) (a : Nat) : List FunctionDecl → Prop
  | [] => True
  | m :: ms =>
    FunctionAt c true a m ∧
      ConstAt c (a + m.width) .constant (.function (protoOf m (a + 2))) ∧
      ConstAt c (a + m.width + 2) .method (.str m.name.name) ∧
      MethodsAt c (a + m.width + 4) ms

/-- The code of a function, behind a jump over it. -/
def FunctionAt (c : Chunk) (isMethod : Bool) (a : Nat) : FunctionDecl → Prop
  | ⟨_, params, ⟨body, _⟩, _⟩ =>
    JumpAt c a .jump (a + 2 + bodyWidth body) ∧
      (if endsInReturn body then StmtsAt c (bodyNames isMethod (params.map (·.name))) (a + 2) body
      else ValueAt c (bodyNames isMethod (params.map (·.name))) (a + 2) body ∧
        OpAt c (a + 2 + valueWidth body) .ret)

/-- The code of statements of which the last leaves a value. -/
def ValueAt (c : Chunk) (ns : List String) (a : Nat) : List Stmt → Prop
  | [] => ConstAt c a .constant .null
  | [s] =>
    match s with
    | .expr e => ExprAt c ns a e
    | .ifElse cond ⟨thenStmts, _⟩ elseBlock _ =>
      ExprAt c ns a cond ∧
        BranchAt c (a + cond.width) (valueWidth thenStmts)
          (match elseBlock with
            | some ⟨elseStmts, _⟩ => valueWidth elseStmts
            | none => 2) ∧
        ValueAt c ns (a + cond.width + 2) thenStmts ∧
        (match elseBlock with
          | some ⟨elseStmts, _⟩ =>
            ValueAt c ns (a + cond.width + 2 + valueWidth thenStmts + 2) elseStmts
          | none => ConstAt c (a + cond.width + 2 + valueWidth thenStmts + 2) .constant .null)
    | s => StmtAt c ns a s ∧ ConstAt c (a + s.width) .constant .null
  | s :: ss => StmtAt c ns a s ∧ ValueAt c ns (a + s.width) ss

end

def BodyAt (c : Chunk) (ns : List String) (a : Nat) (body : List Stmt) : Prop :=
  if endsInReturn body then StmtsAt c ns a body
  else ValueAt c ns a body ∧ OpAt c (a + valueWidth body) .ret

def ProgramAt (c : Chunk) (p : Program) : Prop :=
  StmtsAt c [] 0 p.stmts ∧ ConstAt c (stmtsWidth p.stmts) .constant .null ∧
    OpAt c (stmtsWidth p.stmts + 2) .ret ∧ c.code.size = stmtsWidth p.stmts + 3

end DotScript.Compile
