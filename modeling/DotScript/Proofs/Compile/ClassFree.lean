import DotScript.Proofs.Compile.Occurrence

/-!
# Programs without classes

A program is free of classes if no class declaration stands in it, at whatever depth.
-/

namespace DotScript.Syntax

mutual

/-- Whether no class is declared in a statement. -/
def Stmt.classFree : Stmt → Bool
  | .classDecl _ _ _ => false
  | .function decl => decl.classFree
  | .block body => body.classFree
  | .ifElse _ thenBlock elseBlock _ =>
    thenBlock.classFree &&
      (match elseBlock with
        | some b => b.classFree
        | none => true)
  | .whileLoop _ body _ => body.classFree
  | .tryCatch body _ handler _ => body.classFree && handler.classFree
  | .expr _ | .print _ _ | .ret _ _ | .importUnit _ _ => true

def stmtsClassFree : List Stmt → Bool
  | [] => true
  | s :: ss => s.classFree && stmtsClassFree ss

def Block.classFree : Block → Bool
  | ⟨ss, _⟩ => stmtsClassFree ss

def FunctionDecl.classFree : FunctionDecl → Bool
  | ⟨_, _, body, _⟩ => body.classFree

end

/-- Whether no class is declared in a program. -/
def Program.classFree (p : Program) : Bool := stmtsClassFree p.stmts

theorem Block.classFree_eq (b : Block) : b.classFree = stmtsClassFree b.stmts := by
  cases b
  rw [Block.classFree]

theorem FunctionDecl.classFree_eq (decl : FunctionDecl) :
    decl.classFree = stmtsClassFree decl.body.stmts := by
  cases decl
  rw [FunctionDecl.classFree, Block.classFree_eq]

end DotScript.Syntax

namespace DotScript.Compile

open DotScript.Syntax

/-- Whether no class is declared in a piece of a program. Methods stand in classes only. -/
def Piece.classFree : Piece → Bool
  | .stmt s => s.classFree
  | .stmts ss | .value ss => stmtsClassFree ss
  | .methods _ => false
  | .function _ decl => decl.classFree

theorem Piece.classFree_block (b : Block) : (Piece.stmts b.stmts).classFree = b.classFree :=
  b.classFree_eq.symm

theorem Piece.classFree_valueBlock (b : Block) : (Piece.value b.stmts).classFree = b.classFree :=
  b.classFree_eq.symm

/-- The pieces of a program without classes are without classes. -/
theorem Occurs.classFree {p : Program} {x : Position} {piece : Piece} (h : Occurs p x piece)
    (hp : p.classFree = true) : piece.classFree = true := by
  induction h with
  | program => exact hp
  | head h ih | valueHead h ih =>
    simp only [Piece.classFree, stmtsClassFree, Bool.and_eq_true] at ih
    exact ih.1
  | tail h ih | valueTail h ih =>
    simp only [Piece.classFree, stmtsClassFree, Bool.and_eq_true] at ih
    simp only [Piece.classFree, stmtsClassFree, Bool.and_eq_true]
    exact ih.2
  | block h ih | loop h ih =>
    simp only [Piece.classFree, Stmt.classFree] at ih
    rwa [Piece.classFree_block]
  | @thenBranch b k ns a cond thenBlock elseBlock span h ih =>
    rw [Piece.classFree_block]
    cases elseBlock with
    | none | some b =>
      simp only [Piece.classFree, Stmt.classFree, Bool.and_eq_true] at ih
      exact ih.1
  | tryBody h ih =>
    simp only [Piece.classFree, Stmt.classFree, Bool.and_eq_true] at ih
    rw [Piece.classFree_block]
    exact ih.1
  | elseBranch h ih | handler h ih =>
    simp only [Piece.classFree, Stmt.classFree, Bool.and_eq_true] at ih
    rw [Piece.classFree_block]
    exact ih.2
  | function h ih => simpa only [Piece.classFree, Stmt.classFree] using ih
  | methods h ih => simp only [Piece.classFree, Stmt.classFree, Bool.false_eq_true] at ih
  | method h ih | moreMethods h ih => simp only [Piece.classFree, Bool.false_eq_true] at ih
  | body h hreturn ih | valueBody h hvalue ih =>
    simp only [Piece.classFree, FunctionDecl.classFree_eq] at ih
    exact ih
  | @valueThen b k ns a cond thenBlock elseBlock span h ih =>
    rw [Piece.classFree_valueBlock]
    cases elseBlock with
    | none | some b =>
      simp only [Piece.classFree, stmtsClassFree, Stmt.classFree, Bool.and_eq_true] at ih
      exact ih.1.1
  | valueElse h ih =>
    simp only [Piece.classFree, stmtsClassFree, Stmt.classFree, Bool.and_eq_true] at ih
    rw [Piece.classFree_valueBlock]
    exact ih.1.2
  | valueLast h hexpr hif ih =>
    simp only [Piece.classFree, stmtsClassFree, Bool.and_eq_true] at ih
    exact ih.1

theorem not_occurs_classDecl {p : Program} (hp : p.classFree = true) {x : Position} {name : Ident}
    {ms : List FunctionDecl} {span : Text.Span} :
    ¬ Occurs p x (.stmt (.classDecl name ms span)) := by
  intro h
  have hfree := h.classFree hp
  simp only [Piece.classFree, Stmt.classFree, Bool.false_eq_true] at hfree

end DotScript.Compile
