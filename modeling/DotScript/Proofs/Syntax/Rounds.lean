import DotScript.Proofs.Syntax.Equations

/-!
# Loops of the parser

A loop of the parser takes rounds: a round is the last one and gives the answer, or it reads on and
says what is to be made of the answer of the rounds behind it. The loops differ in their rounds only,
so that what holds of all of them is proved once, from `Repeats`.
-/

namespace DotScript.Syntax.Parser

open DotScript.Text

/-- What a round of a loop comes to. -/
inductive Round (σ α : Type)
  | last (v : α)
  /-- More rounds follow, and something is made of their answer. -/
  | next (s : σ) (make : α → α)

/-- The answer of a loop behind a round. -/
def Round.resume {σ α : Type} (loop : σ → Parser α) :
    Round σ α × Cursor → Except ParseError (α × Cursor)
  | (.last v, c) => .ok (v, c)
  | (.next s make, c) => loop s c >>= fun p => .ok (make p.1, p.2)

/-- A loop takes rounds up to the last one, and no more than it may. A round is told how many may
still follow. -/
structure Repeats {σ α : Type} (round : Nat → σ → Parser (Round σ α)) (loop : Nat → σ → Parser α) :
    Prop where
  zero : ∀ s c, loop 0 s c = .error c.exhausted
  succ : ∀ n s c, loop (n + 1) s c = round n s c >>= Round.resume (loop n)

theorem Round.resume_id {σ α : Type} (loop : σ → Parser α) (s : σ) (c : Cursor) :
    Round.resume loop (.next s id, c) = loop s c := by
  show (loop s c >>= fun p => .ok (id p.1, p.2)) = loop s c
  cases loop s c <;> rfl

/-! ## The rounds -/

/-- A statement, unless a stop or the end of file is ahead. -/
def stmtRound (stmt : Parser Stmt) (stop : TokenKind → Bool) :
    Parser (Round Unit (List Stmt)) := fun c =>
  if c.atEnd || stop c.kind then .ok (.last [], c)
  else do
    let (s, c) ← stmt c
    return (.next () (s :: ·), c)

/-- A method, unless the dot that closes the class or the end of file is ahead. -/
def methodRound (stmt : Parser Stmt) (fuel : Nat) :
    Parser (Round Unit (List FunctionDecl)) := fun c =>
  if c.isAt .blockDot || c.atEnd then .ok (.last [], c)
  else if c.atKeyword .kwFun then do
    let (m, c) ← functionDecl stmt fuel c
    return (.next () (m :: ·), c)
  else .error (c.unexpected "'fun' in class body")

/-- An item and the comma behind it. An item without one is the last. -/
def itemRound {α : Type} (item : Parser α) : Parser (Round Unit (List α)) := fun c => do
  let (x, c) ← item c
  if c.isAt .comma then
    return (.next () (x :: ·), c.advance)
  else
    return (.last [x], c)

/-- A call of an expression or a property of it. -/
def postfixRound (expr : Parser Expr) (fuel : Nat) (e : Expr) : Parser (Round Expr Expr) := fun c =>
  if c.isAt .lParen then do
    let ((args, stop), c) ← listUntil expr .rParen fuel c.advance
    return (.next (.call e args (e.span.cover stop)) id, c)
  else if c.isAt .dot then do
    let (name, c) ← ident c.advance
    return (.next (.get e name (e.span.cover name.span)) id, c)
  else .ok (.last e, c)

/-- A sign, or the operand behind the signs. -/
def signRound (operand : Parser Expr) : Parser (Round Unit Expr) := fun c =>
  match unaryOp c.kind with
  | none => do
    let (e, c) ← operand c
    return (.last e, c)
  | some op => .ok (.next () fun e => .unary op e (c.span.cover e.span), c.advance)

/-- An operator behind its left operand, and its right operand. -/
def operatorRound (op : TokenKind → Option BinaryOp) (tighter : Parser Expr) (left : Expr) :
    Parser (Round Expr Expr) := fun c =>
  match op c.kind with
  | none => .ok (.last left, c)
  | some o => do
    let (right, c) ← tighter c.advance
    return (.next (.binary o left right (left.span.cover right.span)) id, c)

/-! ## The loops -/

theorem repeats_stmtsUntil (stmt : Parser Stmt) (stop : TokenKind → Bool) :
    Repeats (fun _ _ => stmtRound stmt stop) fun n _ => stmtsUntil stmt stop n where
  zero _ _ := rfl
  succ n _ c := by
    unfold stmtsUntil stmtRound
    split
    · rfl
    · cases stmt c <;> rfl

theorem repeats_methods (stmt : Parser Stmt) :
    Repeats (fun n _ => methodRound stmt n) fun n _ => methods stmt n where
  zero _ _ := rfl
  succ n _ c := by
    unfold methods methodRound
    split
    · rfl
    split
    · cases functionDecl stmt n c <;> rfl
    · rfl

theorem repeats_commaSeparated {α : Type} (item : Parser α) :
    Repeats (fun _ _ => itemRound item) fun n _ => commaSeparated item n where
  zero _ _ := rfl
  succ n _ c := by
    unfold commaSeparated itemRound
    cases item c with
    | error e => rfl
    | ok p =>
      show (if p.2.isAt .comma then _ else _) = (if p.2.isAt .comma then _ else _) >>= _
      split <;> rfl

theorem repeats_postfixes (expr : Parser Expr) : Repeats (postfixRound expr) (postfixes expr) where
  zero _ _ := rfl
  succ n e c := by
    unfold postfixes postfixRound
    split
    · cases listUntil expr .rParen n c.advance with
      | error e => rfl
      | ok p => exact (Round.resume_id ..).symm
    split
    · cases ident c.advance with
      | error e => rfl
      | ok p => exact (Round.resume_id ..).symm
    · rfl

theorem repeats_signed (operand : Parser Expr) :
    Repeats (fun _ _ => signRound operand) fun n _ => signed operand n where
  zero _ _ := rfl
  succ n _ c := by
    simp only [signed, signRound]
    cases unaryOp c.kind with
    | none => cases operand c <;> rfl
    | some op => rfl

theorem repeats_chain (op : TokenKind → Option BinaryOp) (tighter : Parser Expr) :
    Repeats (fun _ => operatorRound op tighter) (chain op tighter) where
  zero _ _ := rfl
  succ n left c := by
    simp only [chain, operatorRound]
    cases op c.kind with
    | none => rfl
    | some o =>
      cases tighter c.advance with
      | error e => rfl
      | ok p => exact (Round.resume_id ..).symm

end DotScript.Syntax.Parser
