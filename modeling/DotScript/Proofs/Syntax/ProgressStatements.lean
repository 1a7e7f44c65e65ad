import DotScript.Proofs.Syntax.Progress

/-!
# Progress in statements and programs

Statements read at least one token each, and so does every round of the loops over statements and
methods but the last, as expressions do. A bound that is two above the number of tokens left is
enough for a statement, `settles_stmt`, and for a program, `settles_program`.
-/

namespace DotScript.Syntax

open DotScript.Text
open Cursor (Prolongs)

namespace Parser

/-! ## Rounds -/

section
variable {S : Parser Stmt} {stop : TokenKind → Bool}

theorem progress_stmtRound (hS : Progresses S) : RoundsProgress fun _ _ => stmtRound S stop := by
  intro _ _ c
  show Gets _ (stmtRound S stop c)
  unfold stmtRound
  split
  · exact .pure nofun
  · exact (hS c).bind fun s d hd => .pure fun _ => hd

theorem progress_methodRound (hdecl : ∀ n, Progresses (functionDecl S n)) :
    RoundsProgress fun n _ => methodRound S n := by
  intro n _ c
  show Gets _ (methodRound S n c)
  unfold methodRound
  split
  · exact .pure nofun
  split
  · exact (hdecl n c).bind fun m d hd => .pure fun _ => hd
  · exact .error

end

/-! ## Statements inside statements

The parsers `S` and `S'` read the statements inside others, where fewer tokens are left, and `E` and
`E'` the expressions. -/

section
variable {w : Cursor → Cursor} {S S' : Parser Stmt} {E E' : Parser Expr} {fuel fuel' n n' : Nat}
  {stop : TokenKind → Bool} {c : Cursor} (hw : Prolongs w)
include hw

section
variable (hS : ∀ c, Settles w (c.rest.length + 2 ≤ fuel) c 1 (S c) (S' (w c)))
include hS

theorem settles_stmtsUntil (hn : n ≤ n') :
    Settles w (c.rest.length < n ∧ c.rest.length + 2 ≤ fuel) c 0 (stmtsUntil S stop n c)
      (stmtsUntil S' stop n' (w c)) := by
  refine settles_loop (repeats_stmtsUntil S stop) (repeats_stmtsUntil S' stop)
    (progress_stmtRound (.of_settles hS)) (fun _ _ _ c _ => ?_) n n' () c hn
  unfold stmtRound
  rw [hw.atEnd, hw.kind]
  split
  · exact .pure
  · exact ((hS c).needs And.right).weaken.bind fun _ _ _ => .pure

theorem settles_blockUntil (hn : n ≤ n') :
    Settles w (c.rest.length < n ∧ c.rest.length + 2 ≤ fuel) c 0 (blockUntil S stop n c)
      (blockUntil S' stop n' (w c)) := by
  unfold blockUntil
  rw [hw.span]
  exact (settles_stmtsUntil hw hS hn).bind fun _ _ _ => .pure

theorem settles_block (hn : n ≤ n') :
    Settles w (c.rest.length < n ∧ c.rest.length + 2 ≤ fuel) c 0 (block S n c)
      (block S' n' (w c)) := by
  unfold block
  refine (settles_blockUntil hw hS hn).bind fun b d _ => ?_
  exact (settles_symbol hw .blockDot).weaken.bind fun _ _ _ => .pure

theorem settles_functionDecl (hn : n ≤ n') :
    Settles w (c.rest.length ≤ n ∧ c.rest.length + 1 ≤ fuel) c 1 (functionDecl S n c)
      (functionDecl S' n' (w c)) := by
  have hident : ∀ c, Settles w (c.rest.length + 2 ≤ fuel) c 1 (ident c) (ident (w c)) :=
    fun _ => settles_ident hw
  rw [functionDecl_eq, functionDecl_eq]
  refine (settles_keyword hw .kwFun).bind fun start c₁ h₁ => ?_
  refine (settles_ident hw).weaken.bind fun name c₂ h₂ => ?_
  refine ((settles_itemsBefore hw hident .colon hn).needs (by omega)).bind fun params c₃ h₃ => ?_
  refine (settles_symbol hw .colon).weaken.bind fun _ c₄ h₄ => ?_
  exact ((settles_block hw hS hn).needs (by omega)).bind fun _ _ _ => .pure

theorem settles_methods (hn : n ≤ n') :
    Settles w (c.rest.length < n ∧ c.rest.length + 2 ≤ fuel) c 0 (methods S n c)
      (methods S' n' (w c)) := by
  have hdecl : ∀ n, Progresses (functionDecl S n) := fun n c =>
    (settles_functionDecl hw hS (Nat.le_refl n)).gets
  refine settles_loop (repeats_methods S) (repeats_methods S') (progress_methodRound hdecl)
    (fun _ _ _ c hn => ?_) n n' () c hn
  unfold methodRound
  rw [hw.isAt, hw.atEnd, hw.atKeyword]
  split
  · exact .pure
  split
  · exact ((settles_functionDecl hw hS hn).needs (by omega)).weaken.bind fun _ _ _ => .pure
  · exact settles_unexpected hw _

variable (hle : fuel ≤ fuel')
include hle

theorem settles_classDecl :
    Settles w (c.rest.length + 1 ≤ fuel) c 1 (classDecl S fuel c) (classDecl S' fuel' (w c)) := by
  unfold classDecl
  refine (settles_keyword hw .kwClass).bind fun start c₁ h₁ => ?_
  refine (settles_ident hw).weaken.bind fun name c₂ h₂ => ?_
  refine (settles_symbol hw .colon).weaken.bind fun _ c₃ h₃ => ?_
  refine ((settles_methods hw hS hle).needs (by omega)).bind fun ms c₄ _ => ?_
  exact (settles_symbol hw .blockDot).weaken.bind fun _ _ _ => .pure

theorem settles_elseArm :
    Settles w (c.rest.length + 1 ≤ fuel) c 0 (elseArm S fuel c) (elseArm S' fuel' (w c)) := by
  unfold elseArm
  rw [hw.atKeyword]
  split
  · next helse =>
    have hk : c.kind = .keyword .kwElse := eq_of_beq helse
    have hne : c.kind ≠ .endOfFile := hk.trans_ne nofun
    rw [hw.advance c hne]
    refine .weaken (.advance (n := 1) hne fun h => ?_)
    refine (settles_symbol hw .colon).bind fun _ d hd => ?_
    exact ((settles_blockUntil hw hS hle).needs (by omega)).bind fun _ _ _ => .pure
  · exact .pure

theorem settles_tryStmt :
    Settles w (c.rest.length + 1 ≤ fuel) c 1 (tryStmt S fuel c) (tryStmt S' fuel' (w c)) := by
  unfold tryStmt
  refine (settles_keyword hw .kwTry).bind fun start c₁ h₁ => ?_
  refine (settles_symbol hw .colon).weaken.bind fun _ c₂ h₂ => ?_
  refine ((settles_blockUntil hw hS hle).needs (by omega)).bind fun body c₃ h₃ => ?_
  refine (settles_keyword hw .kwCatch).weaken.bind fun _ c₄ h₄ => ?_
  refine (settles_ident hw).weaken.bind fun errorVar c₅ h₅ => ?_
  refine (settles_symbol hw .colon).weaken.bind fun _ c₆ h₆ => ?_
  exact ((settles_block hw hS hle).needs (by omega)).bind fun _ _ _ => .pure

variable (hE : ∀ c, Settles w (c.rest.length + 2 ≤ fuel) c 1 (E c) (E' (w c)))
include hE

theorem settles_ifStmt :
    Settles w (c.rest.length + 1 ≤ fuel) c 1 (ifStmt E S fuel c) (ifStmt E' S' fuel' (w c)) := by
  rw [ifStmt_eq, ifStmt_eq]
  refine (settles_keyword hw .kwIf).bind fun start c₁ h₁ => ?_
  refine ((hE c₁).needs (by omega)).weaken.bind fun cond c₂ h₂ => ?_
  refine (settles_symbol hw .colon).weaken.bind fun _ c₃ h₃ => ?_
  refine ((settles_blockUntil hw hS hle).needs (by omega)).bind fun thenBlock c₄ h₄ => ?_
  refine ((settles_elseArm hw hS hle).needs (by omega)).bind fun elseBlock c₅ _ => ?_
  exact (settles_symbol hw .blockDot).weaken.bind fun _ _ _ => .pure

theorem settles_whileStmt :
    Settles w (c.rest.length + 1 ≤ fuel) c 1 (whileStmt E S fuel c)
      (whileStmt E' S' fuel' (w c)) := by
  unfold whileStmt
  refine (settles_keyword hw .kwWhile).bind fun start c₁ h₁ => ?_
  refine ((hE c₁).needs (by omega)).weaken.bind fun cond c₂ h₂ => ?_
  refine (settles_symbol hw .colon).weaken.bind fun _ c₃ h₃ => ?_
  exact ((settles_block hw hS hle).needs (by omega)).bind fun _ _ _ => .pure

end

section
variable (hE : ∀ c, Settles w (c.rest.length + 2 ≤ fuel) c 1 (E c) (E' (w c)))
include hE

theorem settles_returnStmt :
    Settles w (c.rest.length + 1 ≤ fuel) c 1 (returnStmt E c) (returnStmt E' (w c)) := by
  unfold returnStmt
  refine (settles_keyword hw .kwReturn).bind fun start d h => ?_
  simp only [hw.kind]
  split
  · exact .pure
  · exact ((hE d).needs (by omega)).weaken.bind fun _ _ _ => .pure

theorem settles_introduced (k : Keyword) (make : Expr → Span → Stmt) :
    Settles w (c.rest.length + 1 ≤ fuel) c 1 (introduced E k make c)
      (introduced E' k make (w c)) := by
  unfold introduced
  refine (settles_keyword hw k).bind fun start d h => ?_
  exact ((hE d).needs (by omega)).weaken.bind fun _ _ _ => .pure

end

/-! ## Statements and programs -/

theorem settles_reserved {α : Type} {enough : Prop} (k : Keyword) :
    Settles (α := α) w enough c n (.error ⟨.reserved k, c.span⟩)
      (.error ⟨.reserved k, (w c).span⟩) := by
  rw [hw.span]
  exact .error ParseCause.noConfusion

theorem settles_exprStmt (hle : fuel ≤ fuel') :
    Settles w (c.rest.length + 2 ≤ fuel) c 1 (exprStmt fuel c) (exprStmt fuel' (w c)) :=
  (settles_expr hw fuel fuel' c hle).bind fun _ _ _ => .pure

theorem settles_keywordStmt (hle : fuel ≤ fuel')
    (hS : ∀ c, Settles w (c.rest.length + 2 ≤ fuel) c 1 (stmt fuel c) (stmt fuel' (w c)))
    (k : Keyword) :
    Settles w (c.rest.length + 1 ≤ fuel) c 1 (keywordStmt fuel k c)
      (keywordStmt fuel' k (w c)) := by
  have hE := fun c => settles_expr hw fuel fuel' c hle
  cases k with
  | kwClass => exact settles_classDecl hw hS hle
  | kwFun =>
    exact ((settles_functionDecl hw hS hle).needs (by omega)).bind fun _ _ _ => .pure
  | kwPrint | kwImport => exact settles_introduced hw hE _ _
  | kwSpawn => exact settles_introduced hw hE .kwSpawn fun e s => .expr (.spawn e s)
  | kwIf => exact settles_ifStmt hw hS hle hE
  | kwWhile => exact settles_whileStmt hw hS hle hE
  | kwReturn => exact settles_returnStmt hw hE
  | kwTry => exact settles_tryStmt hw hS hle
  | kwFor | kwIn => exact settles_reserved hw _
  | _ => exact (settles_exprStmt hw (Nat.succ_le_succ hle)).needs (by omega)

end

/-- A statement. The induction is on the bound. -/
theorem settles_stmt {w : Cursor → Cursor} (hw : Prolongs w) :
    ∀ (fuel fuel' : Nat) (c : Cursor), fuel ≤ fuel' →
      Settles w (c.rest.length + 2 ≤ fuel) c 1 (stmt fuel c) (stmt fuel' (w c))
  | 0, _, _, _ => .exhausted rfl (by omega)
  | _ + 1, 0, _, hle => absurd hle (Nat.not_succ_le_zero _)
  | fuel + 1, fuel' + 1, c, hle => by
    have hle' := Nat.le_of_succ_le_succ hle
    have hS := fun c => settles_stmt hw fuel fuel' c hle'
    rw [stmt_succ, stmt_succ, hw.kind]
    split
    · exact (settles_keywordStmt hw hle' hS _).needs (by omega)
    · exact settles_exprStmt hw hle

/-- A program. Neither its nesting nor its loops go deeper than two above the number of tokens. -/
theorem settles_program {w : Cursor → Cursor} (hw : Prolongs w) {fuel fuel' : Nat} {c : Cursor}
    (hle : fuel ≤ fuel') :
    Settles w (c.rest.length + 2 ≤ fuel) c 0 (program fuel c) (program fuel' (w c)) := by
  have hS := fun c => settles_stmt hw fuel fuel' c hle
  unfold program
  rw [hw.span]
  refine ((settles_stmtsUntil hw hS hle).needs (by omega)).bind fun stmts d _ => ?_
  simp only [hw.span]
  exact .pure

end Parser

end DotScript.Syntax
