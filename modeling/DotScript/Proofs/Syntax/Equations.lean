import DotScript.Syntax.Parser.Stmt

/-!
# Parts of the parser

The functions of the parser that choose between two ways and then go on are taken apart: the choice
has a name here, and the function is what comes before, the choice, and what comes after. The levels
of expressions are numbered. A cursor that is not at the end of file has a first token.
-/

namespace DotScript.Syntax

namespace Cursor

variable {c : Cursor}

/-- A token that is not the end of file is the first one not yet read. -/
theorem rest_eq (h : c.kind ≠ .endOfFile) : c.rest = c.current :: c.advance.rest := by
  unfold kind current at h
  unfold current advance
  cases hrest : c.rest with
  | nil =>
    rw [hrest] at h
    exact absurd rfl h
  | cons t ts => rfl

theorem length_advance (h : c.kind ≠ .endOfFile) :
    c.advance.rest.length + 1 = c.rest.length := by
  rw [rest_eq h, List.length_cons]

end Cursor

namespace Parser

/-- Items before a closing symbol, perhaps none. -/
def itemsBefore {α : Type} (item : Parser α) (close : Symbol) (fuel : Nat) : Parser (List α) :=
  fun c => if c.isAt close then .ok ([], c) else commaSeparated item fuel c

/-- The second arm of an `if`, if there is one. -/
def elseArm (stmt : Parser Stmt) (fuel : Nat) : Parser (Option Block) := fun c =>
  if c.atKeyword .kwElse then do
    let (_, c) ← symbol .colon c.advance
    let (b, c) ← blockUntil stmt isBlockDot fuel c
    return (some b, c)
  else .ok (none, c)

/-- A statement that is an expression. -/
def exprStmt (fuel : Nat) : Parser Stmt := fun c => do
  let (e, c) ← expr fuel c
  return (.expr e, c)

/-- A statement that begins with a reserved word. -/
def keywordStmt (fuel : Nat) : Keyword → Parser Stmt
  | .kwClass => classDecl (stmt fuel) fuel
  | .kwFun => fun c => do
    let (decl, c) ← functionDecl (stmt fuel) fuel c
    return (.function decl, c)
  | .kwPrint => introduced (expr fuel) .kwPrint .print
  | .kwIf => ifStmt (expr fuel) (stmt fuel) fuel
  | .kwWhile => whileStmt (expr fuel) (stmt fuel) fuel
  | .kwReturn => returnStmt (expr fuel)
  | .kwImport => introduced (expr fuel) .kwImport .importUnit
  | .kwTry => tryStmt (stmt fuel) fuel
  | .kwSpawn => introduced (expr fuel) .kwSpawn fun e s => .expr (.spawn e s)
  | .kwFor => fun c => .error ⟨.reserved .kwFor, c.span⟩
  | .kwIn => fun c => .error ⟨.reserved .kwIn, c.span⟩
  | _ => exprStmt (fuel + 1)

section
variable {α : Type} (item : Parser α) (close : Symbol) (expr : Parser Expr) (stmt : Parser Stmt)
  (fuel : Nat) (c : Cursor)

theorem listUntil_eq : listUntil item close fuel c = (do
    let (items, c) ← itemsBefore item close fuel c
    let (stop, c) ← symbol close c
    return ((items, stop), c)) := by
  unfold listUntil itemsBefore
  split <;> rfl

theorem functionDecl_eq : functionDecl stmt fuel c = (do
    let (start, c) ← keyword .kwFun c
    let (name, c) ← ident c
    let (params, c) ← itemsBefore ident .colon fuel c
    let (_, c) ← symbol .colon c
    let (body, c) ← block stmt fuel c
    return (⟨name, params, body, start.cover body.span⟩, c)) := by
  unfold functionDecl itemsBefore
  apply bind_congr
  rintro ⟨start, c⟩
  apply bind_congr
  rintro ⟨name, c⟩
  simp only
  split <;> rfl

theorem ifStmt_eq : ifStmt expr stmt fuel c = (do
    let (start, c) ← keyword .kwIf c
    let (cond, c) ← expr c
    let (_, c) ← symbol .colon c
    let (thenBlock, c) ← blockUntil stmt (fun k => k == .keyword .kwElse || isBlockDot k) fuel c
    let (elseBlock, c) ← elseArm stmt fuel c
    let (stop, c) ← symbol .blockDot c
    return (.ifElse cond thenBlock elseBlock (start.cover stop), c)) := by
  unfold ifStmt elseArm
  apply bind_congr
  rintro ⟨start, c⟩
  apply bind_congr
  rintro ⟨cond, c⟩
  apply bind_congr
  rintro ⟨_, c⟩
  apply bind_congr
  rintro ⟨thenBlock, c⟩
  simp only
  split
  · simp only [bind_assoc]
  · rfl

theorem stmt_succ : Parser.stmt (fuel + 1) c =
    match c.kind with
    | .keyword k => keywordStmt fuel k c
    | _ => exprStmt (fuel + 1) c := by
  rw [Parser.stmt]
  generalize c.kind = kind
  cases kind with
  | keyword k => cases k <;> rfl
  | _ => rfl

theorem stmt_of_keyword {k : Keyword} (hk : c.kind = .keyword k) :
    Parser.stmt (fuel + 1) c = keywordStmt fuel k c := by
  rw [stmt_succ, hk]

end

/-! ## Levels -/

/-- The level at which a token goes on with the expression before it, from assignment to calls and
properties. -/
def joinLevel : TokenKind → Option Nat
  | .symbol .lParen | .symbol .dot => some 5
  | .symbol .star | .symbol .slash => some 3
  | .symbol .plus | .symbol .minus => some 2
  | .symbol .eqEq | .symbol .bangEq | .symbol .lt | .symbol .ltEq | .symbol .gt | .symbol .gtEq =>
    some 1
  | .symbol .assign => some 0
  | _ => none

/-- The operators of a level. -/
def operatorAt : Nat → TokenKind → Option BinaryOp
  | 1 => compareOp
  | 2 => sumOp
  | 3 => productOp
  | _ => fun _ => none

/-- The parser of a level tighter than assignment. -/
def parserAt (E : Parser Expr) (fuel : Nat) : Nat → Parser Expr
  | 1 => comparison E fuel
  | 2 => leftAssoc sumOp (leftAssoc productOp (signed (operand E fuel) fuel) fuel) fuel
  | 3 => leftAssoc productOp (signed (operand E fuel) fuel) fuel
  | 4 => signed (operand E fuel) fuel
  | _ => operand E fuel

/-- The levels of left associative operators. -/
def IsTier (l : Nat) : Prop := 1 ≤ l ∧ l ≤ 3

instance (l : Nat) : Decidable (IsTier l) := inferInstanceAs (Decidable (_ ∧ _))

theorem parserAt_eq {l : Nat} (h : IsTier l) (E : Parser Expr) (fuel : Nat) :
    parserAt E fuel l = leftAssoc (operatorAt l) (parserAt E fuel (l + 1)) fuel := by
  obtain ⟨hlow, hhigh⟩ := h
  match l, hlow, hhigh with
  | 1, _, _ | 2, _, _ | 3, _, _ => rfl

theorem operatorAt_of_joinLevel_ne {l : Nat} {k : TokenKind} (h : joinLevel k ≠ some l) :
    operatorAt l k = none := by
  match l with
  | 0 => rfl
  | 1 | 2 | 3 =>
    cases k with
    | symbol s => cases s <;> first | rfl | exact absurd rfl h
    | _ => rfl
  | l + 4 => rfl

end Parser

end DotScript.Syntax
