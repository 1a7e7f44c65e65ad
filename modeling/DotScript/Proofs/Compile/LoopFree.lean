import DotScript.Proofs.Compile.Occurrence

/-!
# Programs without certain statements

A program avoids a kind of statements if none of them stands in it, at whatever depth. So do all its
pieces: `Occurs.avoids`. Programs without loops avoid `while`.
-/

namespace DotScript.Syntax

mutual

/-- Whether no statement of a kind is or stands in a statement. -/
def Stmt.avoids (kind : Stmt → Bool) : Stmt → Bool
  | .classDecl name ms span => !kind (.classDecl name ms span) && methodsAvoid kind ms
  | .function decl => !kind (.function decl) && decl.avoids kind
  | .block body => !kind (.block body) && body.avoids kind
  | .ifElse cond thenBlock elseBlock span =>
    !kind (.ifElse cond thenBlock elseBlock span) && thenBlock.avoids kind &&
      (match elseBlock with
        | some b => b.avoids kind
        | none => true)
  | .whileLoop cond body span => !kind (.whileLoop cond body span) && body.avoids kind
  | .tryCatch body errorVar handler span =>
    !kind (.tryCatch body errorVar handler span) && body.avoids kind && handler.avoids kind
  | .expr e => !kind (.expr e)
  | .print value span => !kind (.print value span)
  | .ret value span => !kind (.ret value span)
  | .importUnit path span => !kind (.importUnit path span)

def stmtsAvoid (kind : Stmt → Bool) : List Stmt → Bool
  | [] => true
  | s :: ss => s.avoids kind && stmtsAvoid kind ss

def methodsAvoid (kind : Stmt → Bool) : List FunctionDecl → Bool
  | [] => true
  | m :: ms => m.avoids kind && methodsAvoid kind ms

def Block.avoids (kind : Stmt → Bool) : Block → Bool
  | ⟨ss, _⟩ => stmtsAvoid kind ss

def FunctionDecl.avoids (kind : Stmt → Bool) : FunctionDecl → Bool
  | ⟨_, _, body, _⟩ => body.avoids kind

end

def Stmt.isLoop : Stmt → Bool
  | .whileLoop _ _ _ => true
  | _ => false

/-- Whether no `while` stands in a program. -/
def Program.loopFree (p : Program) : Bool := stmtsAvoid Stmt.isLoop p.stmts

section
variable {kind : Stmt → Bool}

theorem Block.avoids_eq (b : Block) : b.avoids kind = stmtsAvoid kind b.stmts := by
  cases b
  rw [Block.avoids]

theorem FunctionDecl.avoids_eq (decl : FunctionDecl) :
    decl.avoids kind = stmtsAvoid kind decl.body.stmts := by
  cases decl
  rw [FunctionDecl.avoids, Block.avoids_eq]

theorem not_kind_of_avoids {s : Stmt} (h : s.avoids kind = true) : kind s = false := by
  cases s with
  | ifElse cond thenBlock elseBlock span =>
    cases elseBlock <;> simp only [Stmt.avoids, Bool.and_eq_true, Bool.not_eq_true'] at h
    · exact h.1.1
    · exact h.1.1
  | tryCatch =>
    simp only [Stmt.avoids, Bool.and_eq_true, Bool.not_eq_true'] at h
    exact h.1.1
  | expr | print | ret | importUnit => simpa only [Stmt.avoids, Bool.not_eq_true'] using h
  | _ =>
    simp only [Stmt.avoids, Bool.and_eq_true, Bool.not_eq_true'] at h
    exact h.1

end

end DotScript.Syntax

namespace DotScript.Compile

open DotScript.Syntax

/-- Whether no statement of a kind stands in a piece of a program. -/
def Piece.avoids (kind : Stmt → Bool) : Piece → Bool
  | .stmt s => s.avoids kind
  | .stmts ss | .value ss => stmtsAvoid kind ss
  | .methods ms => methodsAvoid kind ms
  | .function _ decl => decl.avoids kind

/-- The pieces of a program avoid what the program avoids. -/
theorem Occurs.avoids {kind : Stmt → Bool} {p : Program} {x : Position} {piece : Piece}
    (h : Occurs p x piece) (hp : stmtsAvoid kind p.stmts = true) : piece.avoids kind = true := by
  induction h with
  | program => exact hp
  | head h ih | valueHead h ih =>
    simp only [Piece.avoids, stmtsAvoid, Bool.and_eq_true] at ih
    exact ih.1
  | tail h ih | valueTail h ih =>
    simp only [Piece.avoids, stmtsAvoid, Bool.and_eq_true] at ih ⊢
    exact ih.2
  | block h ih | loop h ih =>
    simp only [Piece.avoids, Stmt.avoids, Block.avoids_eq, Bool.and_eq_true] at ih
    exact ih.2
  | @thenBranch b k ns a cond thenBlock elseBlock span h ih =>
    cases elseBlock with
    | none | some b =>
      simp only [Piece.avoids, Stmt.avoids, Block.avoids_eq, Bool.and_eq_true] at ih
      exact ih.1.2
  | tryBody h ih =>
    simp only [Piece.avoids, Stmt.avoids, Block.avoids_eq, Bool.and_eq_true] at ih
    exact ih.1.2
  | elseBranch h ih | handler h ih =>
    simp only [Piece.avoids, Stmt.avoids, Block.avoids_eq, Bool.and_eq_true] at ih
    exact ih.2
  | function h ih | methods h ih =>
    simp only [Piece.avoids, Stmt.avoids, Bool.and_eq_true] at ih
    exact ih.2
  | method h ih =>
    simp only [Piece.avoids, methodsAvoid, Bool.and_eq_true] at ih
    exact ih.1
  | moreMethods h ih =>
    simp only [Piece.avoids, methodsAvoid, Bool.and_eq_true] at ih
    exact ih.2
  | body h hreturn ih | valueBody h hvalue ih =>
    simp only [Piece.avoids, FunctionDecl.avoids_eq] at ih
    exact ih
  | @valueThen b k ns a cond thenBlock elseBlock span h ih =>
    cases elseBlock with
    | none | some b =>
      simp only [Piece.avoids, stmtsAvoid, Stmt.avoids, Block.avoids_eq, Bool.and_eq_true] at ih
      exact ih.1.1.2
  | valueElse h ih =>
    simp only [Piece.avoids, stmtsAvoid, Stmt.avoids, Block.avoids_eq, Bool.and_eq_true] at ih
    exact ih.1.2
  | valueLast h hexpr hif ih =>
    simp only [Piece.avoids, stmtsAvoid, Bool.and_eq_true] at ih
    exact ih.1

/-- No loop stands in a program without loops. -/
theorem not_occurs_whileLoop {p : Program} (hp : p.loopFree = true) {x : Position} {cond : Expr}
    {body : Block} {span : Text.Span} : ¬ Occurs p x (.stmt (.whileLoop cond body span)) := by
  intro h
  have havoids : (Stmt.whileLoop cond body span).avoids Stmt.isLoop = true := h.avoids hp
  exact Bool.noConfusion (not_kind_of_avoids havoids)

end DotScript.Compile
