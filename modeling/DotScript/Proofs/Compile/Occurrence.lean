import DotScript.Proofs.Compile.Compiled

/-!
# The pieces of a program

Where each piece of a program stands: the locals in scope, the address of its code, and how many
handlers of `try` statements enclose it within the same function. A piece occurs in the program, or
is part of a piece that does.

* `Occurs p x piece`: the piece stands in `p` at the position `x`;
* `Occurs.layout`: the code of every piece stands at its address;
* `Occurs.within`: and it ends before the program returns.
-/

namespace DotScript.Compile

open DotScript.Bytecode DotScript.Syntax

/-- Where a piece of a program stands. -/
structure Position where
  /-- Whether it runs as part of the program itself and not of a function. -/
  top : Bool
  /-- The number of handlers of `try` statements around it, in the same function. -/
  handlers : Nat
  /-- The locals in scope, the newest first. -/
  names : List String
  /-- Where its code begins. -/
  address : Nat

/-- Parts of a program. -/
inductive Piece
  | stmt (s : Stmt)
  | stmts (ss : List Stmt)
  /-- Statements of which the last leaves a value. -/
  | value (ss : List Stmt)
  | methods (ms : List FunctionDecl)
  /-- A function with the jump over its body. -/
  | function (isMethod : Bool) (decl : FunctionDecl)

/-- A piece stands in a program at a position. -/
inductive Occurs (p : Program) : Position → Piece → Prop
  | program : Occurs p ⟨true, 0, [], 0⟩ (.stmts p.stmts)
  | head {b k ns a s ss} (h : Occurs p ⟨b, k, ns, a⟩ (.stmts (s :: ss))) :
    Occurs p ⟨b, k, ns, a⟩ (.stmt s)
  | tail {b k ns a s ss} (h : Occurs p ⟨b, k, ns, a⟩ (.stmts (s :: ss))) :
    Occurs p ⟨b, k, ns, a + s.width⟩ (.stmts ss)
  | block {b k ns a} {body : Block} (h : Occurs p ⟨b, k, ns, a⟩ (.stmt (.block body))) :
    Occurs p ⟨b, k, ns, a⟩ (.stmts body.stmts)
  | thenBranch {b k ns a cond thenBlock elseBlock span}
    (h : Occurs p ⟨b, k, ns, a⟩ (.stmt (.ifElse cond thenBlock elseBlock span))) :
    Occurs p ⟨b, k, ns, a + cond.width + 2⟩ (.stmts thenBlock.stmts)
  | elseBranch {b k ns a cond thenBlock elseBlock span}
    (h : Occurs p ⟨b, k, ns, a⟩ (.stmt (.ifElse cond thenBlock (some elseBlock) span))) :
    Occurs p ⟨b, k, ns, a + cond.width + 2 + thenBlock.width + 2⟩ (.stmts elseBlock.stmts)
  | loop {b k ns a cond body span}
    (h : Occurs p ⟨b, k, ns, a⟩ (.stmt (.whileLoop cond body span))) :
    Occurs p ⟨b, k, ns, a + cond.width + 2⟩ (.stmts body.stmts)
  | tryBody {b k ns a body errorVar handler span}
    (h : Occurs p ⟨b, k, ns, a⟩ (.stmt (.tryCatch body errorVar handler span))) :
    Occurs p ⟨b, k, ns, a + 2⟩ (.stmts body.stmts)
  | handler {b k ns a body errorVar handler span}
    (h : Occurs p ⟨b, k, ns, a⟩ (.stmt (.tryCatch body errorVar handler span))) :
    Occurs p ⟨b, k + 1, errorVar.name :: ns, a + 2 + body.width + 3⟩ (.stmts handler.stmts)
  | function {b k ns a decl} (h : Occurs p ⟨b, k, ns, a⟩ (.stmt (.function decl))) :
    Occurs p ⟨b, k, ns, a⟩ (.function false decl)
  | methods {b k ns a name ms span}
    (h : Occurs p ⟨b, k, ns, a⟩ (.stmt (.classDecl name ms span))) :
    Occurs p ⟨b, k, ns, a + 2⟩ (.methods ms)
  | method {b k ns a m ms} (h : Occurs p ⟨b, k, ns, a⟩ (.methods (m :: ms))) :
    Occurs p ⟨b, k, ns, a⟩ (.function true m)
  | moreMethods {b k ns a m ms} (h : Occurs p ⟨b, k, ns, a⟩ (.methods (m :: ms))) :
    Occurs p ⟨b, k, ns, a + m.width + 4⟩ (.methods ms)
  | body {b k ns a m decl} (h : Occurs p ⟨b, k, ns, a⟩ (.function m decl))
    (hreturn : endsInReturn decl.body.stmts = true) :
    Occurs p ⟨false, 0, bodyNames m (decl.params.map (·.name)), a + 2⟩ (.stmts decl.body.stmts)
  | valueBody {b k ns a m decl} (h : Occurs p ⟨b, k, ns, a⟩ (.function m decl))
    (hvalue : endsInReturn decl.body.stmts = false) :
    Occurs p ⟨false, 0, bodyNames m (decl.params.map (·.name)), a + 2⟩ (.value decl.body.stmts)
  | valueHead {b k ns a s s' ss} (h : Occurs p ⟨b, k, ns, a⟩ (.value (s :: s' :: ss))) :
    Occurs p ⟨b, k, ns, a⟩ (.stmt s)
  | valueTail {b k ns a s s' ss} (h : Occurs p ⟨b, k, ns, a⟩ (.value (s :: s' :: ss))) :
    Occurs p ⟨b, k, ns, a + s.width⟩ (.value (s' :: ss))
  | valueThen {b k ns a cond thenBlock elseBlock span}
    (h : Occurs p ⟨b, k, ns, a⟩ (.value [.ifElse cond thenBlock elseBlock span])) :
    Occurs p ⟨b, k, ns, a + cond.width + 2⟩ (.value thenBlock.stmts)
  | valueElse {b k ns a cond thenBlock elseBlock span}
    (h : Occurs p ⟨b, k, ns, a⟩ (.value [.ifElse cond thenBlock (some elseBlock) span])) :
    Occurs p ⟨b, k, ns, a + cond.width + 2 + valueWidth thenBlock.stmts + 2⟩
      (.value elseBlock.stmts)
  | valueLast {b k ns a s} (h : Occurs p ⟨b, k, ns, a⟩ (.value [s]))
    (hexpr : ∀ e, s ≠ .expr e) (hif : ∀ c t e span, s ≠ .ifElse c t e span) :
    Occurs p ⟨b, k, ns, a⟩ (.stmt s)

/-- The code of a piece. -/
def PieceAt (c : Chunk) (ns : List String) (a : Nat) : Piece → Prop
  | .stmt s => StmtAt c ns a s
  | .stmts ss => StmtsAt c ns a ss
  | .value ss => ValueAt c ns a ss
  | .methods ms => MethodsAt c a ms
  | .function isMethod decl => FunctionAt c isMethod a decl

/-- How many words the code of a piece takes. -/
def Piece.width : Piece → Nat
  | .stmt s => s.width
  | .stmts ss => stmtsWidth ss
  | .value ss => valueWidth ss
  | .methods ms => methodsWidth ms
  | .function _ decl => decl.width

theorem stmtsAt_of_blockAt {c : Chunk} {ns : List String} {a : Nat} {b : Block}
    (h : BlockAt c ns a b) : StmtsAt c ns a b.stmts := by
  obtain ⟨ss, span⟩ := b
  exact h

section
variable {p : Program} {x : Position} {piece : Piece}

/-- The code of every piece of a program stands at its address. -/
theorem Occurs.layout {c : Chunk} (hp : ProgramAt c p) (h : Occurs p x piece) :
    PieceAt c x.names x.address piece := by
  induction h with
  | program => exact hp.1
  | head h ih | valueHead h ih =>
    simp only [PieceAt, StmtsAt, ValueAt] at ih
    exact ih.1
  | tail h ih | valueTail h ih =>
    simp only [PieceAt, StmtsAt, ValueAt] at ih
    exact ih.2
  | block h ih =>
    simp only [PieceAt, StmtAt] at ih
    exact stmtsAt_of_blockAt ih
  | @thenBranch b k ns a cond thenBlock elseBlock span h ih =>
    cases elseBlock with
    | none | some b =>
      simp only [PieceAt, StmtAt] at ih
      exact stmtsAt_of_blockAt ih.2.2.1
  | elseBranch h ih =>
    simp only [PieceAt, StmtAt] at ih
    exact stmtsAt_of_blockAt ih.2.2.2
  | loop h ih =>
    simp only [PieceAt, StmtAt] at ih
    exact stmtsAt_of_blockAt ih.2.2
  | tryBody h ih =>
    simp only [PieceAt, StmtAt] at ih
    exact stmtsAt_of_blockAt ih.2.1
  | handler h ih =>
    simp only [PieceAt, StmtAt] at ih
    exact stmtsAt_of_blockAt ih.2.2
  | function h ih =>
    simp only [PieceAt, StmtAt] at ih
    exact ih.1
  | methods h ih =>
    simp only [PieceAt, StmtAt] at ih
    exact ih.2.1
  | method h ih =>
    simp only [PieceAt, MethodsAt] at ih
    exact ih.1
  | moreMethods h ih =>
    simp only [PieceAt, MethodsAt] at ih
    exact ih.2.2.2
  | @body b k ns a m decl h hreturn ih =>
    obtain ⟨name, params, ⟨body, blockSpan⟩, span⟩ := decl
    simp only [PieceAt, FunctionAt, if_pos hreturn] at ih
    exact ih.2
  | @valueBody b k ns a m decl h hvalue ih =>
    obtain ⟨name, params, ⟨body, blockSpan⟩, span⟩ := decl
    simp only [PieceAt, FunctionAt, hvalue] at ih
    exact ih.2.1
  | @valueThen b k ns a cond thenBlock elseBlock span h ih =>
    obtain ⟨thenStmts, thenSpan⟩ := thenBlock
    rcases elseBlock with _ | ⟨elseStmts, elseSpan⟩
    all_goals
      simp only [PieceAt, ValueAt] at ih
      exact ih.2.2.1
  | @valueElse b k ns a cond thenBlock elseBlock span h ih =>
    obtain ⟨thenStmts, thenSpan⟩ := thenBlock
    obtain ⟨elseStmts, elseSpan⟩ := elseBlock
    simp only [PieceAt, ValueAt] at ih
    exact ih.2.2.2
  | @valueLast b k ns a s h hexpr hif ih =>
    cases s with
    | expr e => exact absurd rfl (hexpr e)
    | ifElse cond thenBlock elseBlock span => exact absurd rfl (hif cond thenBlock elseBlock span)
    | _ =>
      simp only [PieceAt, ValueAt] at ih
      exact ih.1

theorem block_width_eq (b : Block) : b.width = stmtsWidth b.stmts := by
  cases b
  rfl

/-- The code of a piece ends before the program returns. -/
theorem Occurs.within (h : Occurs p x piece) : x.address + piece.width ≤ stmtsWidth p.stmts := by
  induction h with
  | program => exact Nat.le_of_eq (Nat.zero_add _)
  | head h ih | tail h ih | block h ih | loop h ih | tryBody h ih | handler h ih | methods h ih
  | moreMethods h ih | method h ih | function h ih =>
    simp only [Piece.width, Stmt.width, stmtsWidth, methodsWidth, block_width_eq] at ih ⊢
    omega
  | @thenBranch b k ns a cond thenBlock elseBlock span h ih =>
    cases elseBlock with
    | none | some b =>
      simp only [Piece.width, Stmt.width, block_width_eq] at ih ⊢
      omega
  | elseBranch h ih =>
    simp only [Piece.width, Stmt.width, block_width_eq] at ih ⊢
    omega
  | @body b k ns a m decl h hreturn ih =>
    obtain ⟨name, params, ⟨body, blockSpan⟩, span⟩ := decl
    simp only [Piece.width, FunctionDecl.width, if_pos hreturn] at ih ⊢
    omega
  | @valueBody b k ns a m decl h hvalue ih =>
    obtain ⟨name, params, ⟨body, blockSpan⟩, span⟩ := decl
    simp only at hvalue
    simp only [Piece.width, FunctionDecl.width, hvalue, Bool.false_eq_true, if_false] at ih ⊢
    omega
  | @valueHead b k ns a s s' ss h ih | @valueTail b k ns a s s' ss h ih =>
    simp only [Piece.width, add_valueWidth_cons] at ih ⊢
    omega
  | @valueThen b k ns a cond thenBlock elseBlock span h ih =>
    obtain ⟨thenStmts, thenSpan⟩ := thenBlock
    rcases elseBlock with _ | ⟨elseStmts, elseSpan⟩
    all_goals
      simp only [Piece.width, valueWidth] at ih ⊢
      omega
  | @valueElse b k ns a cond thenBlock elseBlock span h ih =>
    obtain ⟨thenStmts, thenSpan⟩ := thenBlock
    obtain ⟨elseStmts, elseSpan⟩ := elseBlock
    simp only [Piece.width, valueWidth] at ih ⊢
    omega
  | @valueLast b k ns a s h hexpr hif ih =>
    cases s with
    | expr e => exact absurd rfl (hexpr e)
    | ifElse cond thenBlock elseBlock span => exact absurd rfl (hif cond thenBlock elseBlock span)
    | _ =>
      simp only [Piece.width, valueWidth] at ih ⊢
      omega

/-- Outside of functions the only locals are the variables of the handlers around. -/
theorem Occurs.names_length (h : Occurs p x piece) (htop : x.top = true) :
    x.names.length = x.handlers := by
  induction h with
  | program => rfl
  | handler h ih => simpa using ih htop
  | body h hreturn | valueBody h hvalue => cases htop
  | _ => exact (by assumption : _ → _) htop

end

end DotScript.Compile
