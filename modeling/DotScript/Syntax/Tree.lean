import DotScript.Syntax.Token

/-!
# Syntax trees

A program is a list of statements; every node carries the span of text it was read from.
-/

namespace DotScript.Syntax

open DotScript.Text

/-- A name and where it stands. -/
structure Ident where
  name : String
  span : Span
  deriving DecidableEq, Repr

inductive BinaryOp
  | add | sub | mul | div | eq | notEq | lt | ltEq | gt | gtEq
  deriving DecidableEq, Repr

inductive UnaryOp
  | neg | not
  deriving DecidableEq, Repr

inductive Expr
  | var (id : Ident)
  | null (span : Span)
  | bool (b : Bool) (span : Span)
  | number (n : Number) (span : Span)
  | str (s : String) (span : Span)
  /-- `target = value`. Only a variable is a sensible target; compilation refuses the rest. -/
  | assign (target value : Expr) (span : Span)
  /-- `object.name = value` -/
  | set (object : Expr) (name : Ident) (value : Expr) (span : Span)
  /-- `object.name` -/
  | get (object : Expr) (name : Ident) (span : Span)
  | binary (op : BinaryOp) (left right : Expr) (span : Span)
  | unary (op : UnaryOp) (operand : Expr) (span : Span)
  | call (callee : Expr) (args : List Expr) (span : Span)
  | list (elems : List Expr) (span : Span)
  /-- Keys and values in the order of the text. -/
  | map (entries : List (Expr × Expr)) (span : Span)
  /-- The receiver of the running method. -/
  | self (span : Span)
  /-- `spawn call`. Compilation refuses an operand that is no call. -/
  | spawn (call : Expr) (span : Span)

def Expr.span : Expr → Span
  | var id => id.span
  | null s | bool _ s | number _ s | str _ s | assign _ _ s | set _ _ _ s | get _ _ s
  | binary _ _ _ s | unary _ _ s | call _ _ s | list _ s | map _ s | self s | spawn _ s => s

mutual

inductive Stmt
  | expr (e : Expr)
  | print (value : Expr) (span : Span)
  | function (decl : FunctionDecl)
  | classDecl (name : Ident) (methods : List FunctionDecl) (span : Span)
  | block (body : Block)
  | ifElse (cond : Expr) (thenBlock : Block) (elseBlock : Option Block) (span : Span)
  | whileLoop (cond : Expr) (body : Block) (span : Span)
  | ret (value : Option Expr) (span : Span)
  | importUnit (path : Expr) (span : Span)
  /-- `try: body catch errorVar: handler .` -/
  | tryCatch (body : Block) (errorVar : Ident) (handler : Block) (span : Span)

/-- Statements run one after the other. -/
structure Block where
  stmts : List Stmt
  span : Span

/-- `fun name params: body .` -/
structure FunctionDecl where
  name : Ident
  params : List Ident
  body : Block
  span : Span

end

def Stmt.span : Stmt → Span
  | expr e => e.span
  | function decl => decl.span
  | block body => body.span
  | print _ s | classDecl _ _ s | ifElse _ _ _ s | whileLoop _ _ s | ret _ s | importUnit _ s
  | tryCatch _ _ _ s => s

/-- A compile unit: one source text or one entry at the prompt. -/
structure Program where
  stmts : List Stmt
  span : Span

end DotScript.Syntax
