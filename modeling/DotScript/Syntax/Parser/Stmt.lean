import DotScript.Syntax.Parser.Expr
import DotScript.Syntax.Lexer

/-!
# Reading statements and programs

Statements follow each other without separators. A block runs up to the dot that closes it; the
first arm of an `if` also up to `else`, and the body of a `try` up to `catch`.
-/

namespace DotScript.Syntax

open DotScript.Text

namespace Parser

/-- Statements up to a stop or the end of file, at most `fuel`. -/
def stmtsUntil (stmt : Parser Stmt) (stop : TokenKind → Bool) : Nat → Parser (List Stmt)
  | 0, c => .error c.exhausted
  | fuel + 1, c =>
    if c.atEnd || stop c.kind then .ok ([], c)
    else do
      let (s, c) ← stmt c
      let (ss, c) ← stmtsUntil stmt stop fuel c
      return (s :: ss, c)

/-- Statements up to a stop, which is not read. Their span begins at the first token, even if that
is the stop. -/
def blockUntil (stmt : Parser Stmt) (stop : TokenKind → Bool) (fuel : Nat) : Parser Block :=
  fun c => do
    let start := c.span
    let (stmts, c) ← stmtsUntil stmt stop fuel c
    let span := match stmts.getLast? with
      | some last => start.cover last.span
      | none => start
    return (⟨stmts, span⟩, c)

/-- Whether a token closes a block. -/
def isBlockDot (k : TokenKind) : Bool := k == .symbol .blockDot

/-- Statements closed by a dot, which is read too. -/
def block (stmt : Parser Stmt) (fuel : Nat) : Parser Block := fun c => do
  let (b, c) ← blockUntil stmt isBlockDot fuel c
  let (stop, c) ← symbol .blockDot c
  return ({ b with span := b.span.cover stop }, c)

/-- `fun name params: body .` -/
def functionDecl (stmt : Parser Stmt) (fuel : Nat) : Parser FunctionDecl := fun c => do
  let (start, c) ← keyword .kwFun c
  let (name, c) ← ident c
  let (params, c) ← if c.isAt .colon then pure ([], c) else commaSeparated ident fuel c
  let (_, c) ← symbol .colon c
  let (body, c) ← block stmt fuel c
  return (⟨name, params, body, start.cover body.span⟩, c)

/-- The methods of a class, up to the dot that closes it; at most `fuel`. -/
def methods (stmt : Parser Stmt) : Nat → Parser (List FunctionDecl)
  | 0, c => .error c.exhausted
  | fuel + 1, c =>
    if c.isAt .blockDot || c.atEnd then .ok ([], c)
    else if c.atKeyword .kwFun then do
      let (m, c) ← functionDecl stmt fuel c
      let (ms, c) ← methods stmt fuel c
      return (m :: ms, c)
    else .error (c.unexpected "'fun' in class body")

/-- `class name: methods .` -/
def classDecl (stmt : Parser Stmt) (fuel : Nat) : Parser Stmt := fun c => do
  let (start, c) ← keyword .kwClass c
  let (name, c) ← ident c
  let (_, c) ← symbol .colon c
  let (ms, c) ← methods stmt fuel c
  let (stop, c) ← symbol .blockDot c
  return (.classDecl name ms (start.cover stop), c)

/-- `if cond: then .` or `if cond: then else: other .` -/
def ifStmt (expr : Parser Expr) (stmt : Parser Stmt) (fuel : Nat) : Parser Stmt := fun c => do
  let (start, c) ← keyword .kwIf c
  let (cond, c) ← expr c
  let (_, c) ← symbol .colon c
  let (thenBlock, c) ←
    blockUntil stmt (fun k => k == .keyword .kwElse || isBlockDot k) fuel c
  let (elseBlock, c) ←
    if c.atKeyword .kwElse then do
      let (_, c) ← symbol .colon c.advance
      let (b, c) ← blockUntil stmt isBlockDot fuel c
      pure (some b, c)
    else pure (none, c)
  let (stop, c) ← symbol .blockDot c
  return (.ifElse cond thenBlock elseBlock (start.cover stop), c)

/-- `while cond: body .` -/
def whileStmt (expr : Parser Expr) (stmt : Parser Stmt) (fuel : Nat) : Parser Stmt := fun c => do
  let (start, c) ← keyword .kwWhile c
  let (cond, c) ← expr c
  let (_, c) ← symbol .colon c
  let (body, c) ← block stmt fuel c
  return (.whileLoop cond body (start.cover body.span), c)

/-- Whether a `return` before this token has no value. -/
def endsReturn (k : TokenKind) : Bool :=
  isBlockDot k || k == .keyword .kwElse || k == .keyword .kwCatch || k == .endOfFile

/-- `return` with or without a value. -/
def returnStmt (expr : Parser Expr) : Parser Stmt := fun c => do
  let (start, c) ← keyword .kwReturn c
  if endsReturn c.kind then
    return (.ret none start, c)
  else
    let (value, c) ← expr c
    return (.ret (some value) (start.cover value.span), c)

/-- `try: body catch name: handler .` -/
def tryStmt (stmt : Parser Stmt) (fuel : Nat) : Parser Stmt := fun c => do
  let (start, c) ← keyword .kwTry c
  let (_, c) ← symbol .colon c
  let (body, c) ← blockUntil stmt (· == .keyword .kwCatch) fuel c
  let (_, c) ← keyword .kwCatch c
  let (errorVar, c) ← ident c
  let (_, c) ← symbol .colon c
  let (handler, c) ← block stmt fuel c
  return (.tryCatch body errorVar handler (start.cover handler.span), c)

/-- A reserved word with an expression behind it. -/
def introduced (expr : Parser Expr) (k : Keyword) (make : Expr → Span → Stmt) : Parser Stmt :=
  fun c => do
    let (start, c) ← keyword k c
    let (e, c) ← expr c
    return (make e (start.cover e.span), c)

/-- A statement. Two more than the number of tokens left is bound enough. -/
def stmt : Nat → Parser Stmt
  | 0, c => .error c.exhausted
  | fuel + 1, c =>
    match c.kind with
    | .keyword .kwClass => classDecl (stmt fuel) fuel c
    | .keyword .kwFun => do
      let (decl, c) ← functionDecl (stmt fuel) fuel c
      return (.function decl, c)
    | .keyword .kwPrint => introduced (expr fuel) .kwPrint .print c
    | .keyword .kwIf => ifStmt (expr fuel) (stmt fuel) fuel c
    | .keyword .kwWhile => whileStmt (expr fuel) (stmt fuel) fuel c
    | .keyword .kwReturn => returnStmt (expr fuel) c
    | .keyword .kwImport => introduced (expr fuel) .kwImport .importUnit c
    | .keyword .kwTry => tryStmt (stmt fuel) fuel c
    | .keyword .kwSpawn => introduced (expr fuel) .kwSpawn (fun e s => .expr (.spawn e s)) c
    | .keyword .kwFor => .error ⟨.reserved .kwFor, c.span⟩
    | .keyword .kwIn => .error ⟨.reserved .kwIn, c.span⟩
    | _ => do
      let (e, c) ← expr (fuel + 1) c
      return (.expr e, c)

def program (fuel : Nat) : Parser Program := fun c => do
  let (stmts, c') ← stmtsUntil (stmt fuel) (fun _ => false) fuel c
  return (⟨stmts, c.span.cover c'.span⟩, c')

end Parser

/-- Read a program from a source text. -/
def parse (text : String) : Except ParseError Program := do
  let c := Cursor.ofTokens (tokens text)
  let (p, _) ← Parser.program (c.rest.length + 2) c
  return p

end DotScript.Syntax
