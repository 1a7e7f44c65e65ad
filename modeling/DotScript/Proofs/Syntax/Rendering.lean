import DotScript.Proofs.Syntax.Spelling
import DotScript.Syntax.Tree

/-!
# Programs as text

* `Program.words`: the tokens of a program, with only the parentheses that precedence requires or
  with none at all;
* `Program.rendered`: its text;
* `Program.erased`: the program with all spans forgotten;
* `Program.normal`: what can be said of every program that was read from a text.
-/

namespace DotScript.Syntax

open DotScript.Text

/-! ## Precedence -/

/-- How tightly an operator binds. -/
def BinaryOp.level : BinaryOp → Nat
  | eq | notEq | lt | ltEq | gt | gtEq => 1
  | add | sub => 2
  | mul | div => 3

/-- How tightly the outermost construct of an expression binds: assignments least of all, then
comparisons, sums, products, signs, and everything that needs no parentheses anywhere. -/
def Expr.level : Expr → Nat
  | assign _ _ _ | set _ _ _ _ | spawn _ _ => 0
  | binary op _ _ _ => op.level
  | unary _ _ _ => 4
  | _ => 5

def BinaryOp.symbol : BinaryOp → Symbol
  | add => .plus
  | sub => .minus
  | mul => .star
  | div => .slash
  | eq => .eqEq
  | notEq => .bangEq
  | lt => .lt
  | ltEq => .ltEq
  | gt => .gt
  | gtEq => .gtEq

def UnaryOp.symbol : UnaryOp → Symbol
  | neg => .minus
  | not => .bang

/-! ## Tokens -/

/-- Tokens between parentheses, if they are wanted. -/
def parenthesised (wanted : Bool) (ws : List TokenKind) : List TokenKind :=
  if wanted then .symbol .lParen :: ws ++ [.symbol .rParen] else ws

def Expr.isVar : Expr → Bool
  | var _ => true
  | _ => false

section
variable (parens : Bool)

mutual

/-- The tokens of an expression, with the parentheses that it needs or without any. -/
def Expr.words : Expr → List TokenKind
  | .var id => [.ident id.name]
  | .null _ => [.keyword .kwNull]
  | .bool b _ => [.keyword (if b then .kwTrue else .kwFalse)]
  | .number n _ => [.number n]
  | .str s _ => [.str s]
  | .assign target value _ =>
    parenthesised (parens && decide (target.level < 1)) target.words ++
      .symbol .assign :: value.words
  | .set object name value _ =>
    parenthesised (parens && decide (object.level < 5)) object.words ++
      .symbol .dot :: .ident name.name :: .symbol .assign :: value.words
  | .get object name _ =>
    parenthesised (parens && decide (object.level < 5)) object.words ++
      [.symbol .dot, .ident name.name]
  | .binary op left right _ =>
    parenthesised (parens && decide (left.level < op.level)) left.words ++
      .symbol op.symbol :: parenthesised (parens && decide (right.level ≤ op.level)) right.words
  | .unary op operand _ =>
    .symbol op.symbol :: parenthesised (parens && decide (operand.level < 4)) operand.words
  | .call callee args _ =>
    parenthesised (parens && decide (callee.level < 5)) callee.words ++
      parenthesised parens (exprsWords args)
  | .list elems _ => .symbol .lBracket :: exprsWords elems ++ [.symbol .rBracket]
  | .map entries _ => .symbol .lBrace :: entriesWords entries ++ [.symbol .rBrace]
  | .self _ => [.keyword .kwThis]
  | .spawn call _ => .keyword .kwSpawn :: call.words

/-- Expressions with commas between them. -/
def exprsWords : List Expr → List TokenKind
  | [] => []
  | e :: es => e.words ++ moreExprsWords es

def moreExprsWords : List Expr → List TokenKind
  | [] => []
  | e :: es => .symbol .comma :: e.words ++ moreExprsWords es

/-- Entries of a map with commas between them. A key that is a variable needs parentheses, since a
bare name stands for the string. -/
def entriesWords : List (Expr × Expr) → List TokenKind
  | [] => []
  | (key, value) :: es =>
    parenthesised (parens && key.isVar) key.words ++ .symbol .colon :: value.words ++
      moreEntriesWords es

def moreEntriesWords : List (Expr × Expr) → List TokenKind
  | [] => []
  | (key, value) :: es =>
    .symbol .comma :: parenthesised (parens && key.isVar) key.words ++
      .symbol .colon :: value.words ++ moreEntriesWords es

end

def moreNamesWords : List Ident → List TokenKind
  | [] => []
  | id :: ids => .symbol .comma :: .ident id.name :: moreNamesWords ids

/-- Names with commas between them. -/
def namesWords : List Ident → List TokenKind
  | [] => []
  | id :: ids => .ident id.name :: moreNamesWords ids

mutual

/-- The tokens of a statement. -/
def Stmt.words : Stmt → List TokenKind
  | .expr e => e.words parens
  | .print value _ => .keyword .kwPrint :: value.words parens
  | .function decl => decl.words
  | .classDecl name methods _ =>
    .keyword .kwClass :: .ident name.name :: .symbol .colon :: methodsWords methods ++
      [.symbol .blockDot]
  | .block body => body.words
  | .ifElse cond thenBlock elseBlock _ =>
    .keyword .kwIf :: cond.words parens ++ .symbol .colon :: thenBlock.words ++
      (match elseBlock with
        | some b => .keyword .kwElse :: .symbol .colon :: b.words
        | none => []) ++ [.symbol .blockDot]
  | .whileLoop cond body _ =>
    .keyword .kwWhile :: cond.words parens ++ .symbol .colon :: body.words ++ [.symbol .blockDot]
  | .ret none _ => [.keyword .kwReturn]
  | .ret (some value) _ => .keyword .kwReturn :: value.words parens
  | .importUnit path _ => .keyword .kwImport :: path.words parens
  | .tryCatch body errorVar handler _ =>
    .keyword .kwTry :: .symbol .colon :: body.words ++ .keyword .kwCatch ::
      .ident errorVar.name :: .symbol .colon :: handler.words ++ [.symbol .blockDot]

def stmtsWords : List Stmt → List TokenKind
  | [] => []
  | s :: ss => s.words ++ stmtsWords ss

def methodsWords : List FunctionDecl → List TokenKind
  | [] => []
  | m :: ms => m.words ++ methodsWords ms

def Block.words : Block → List TokenKind
  | ⟨ss, _⟩ => stmtsWords ss

def FunctionDecl.words : FunctionDecl → List TokenKind
  | ⟨name, params, body, _⟩ =>
    .keyword .kwFun :: .ident name.name :: namesWords params ++ .symbol .colon :: body.words ++
      [.symbol .blockDot]

end

/-- The tokens of a program. -/
def Program.words (p : Program) : List TokenKind := stmtsWords parens p.stmts

end

/-- The text of a program: its tokens with a space between them, a line break behind each dot that
closes a block, and only the parentheses that are needed. -/
def Program.rendered (p : Program) : String := spelled (p.words true)

/-! ## Forgetting spans -/

def Ident.erased (id : Ident) : Ident := ⟨id.name, default⟩

mutual

def Expr.erased : Expr → Expr
  | .var id => .var id.erased
  | .null _ => .null default
  | .bool b _ => .bool b default
  | .number n _ => .number n default
  | .str s _ => .str s default
  | .assign target value _ => .assign target.erased value.erased default
  | .set object name value _ => .set object.erased name.erased value.erased default
  | .get object name _ => .get object.erased name.erased default
  | .binary op left right _ => .binary op left.erased right.erased default
  | .unary op operand _ => .unary op operand.erased default
  | .call callee args _ => .call callee.erased (exprsErased args) default
  | .list elems _ => .list (exprsErased elems) default
  | .map entries _ => .map (entriesErased entries) default
  | .self _ => .self default
  | .spawn call _ => .spawn call.erased default

def exprsErased : List Expr → List Expr
  | [] => []
  | e :: es => e.erased :: exprsErased es

def entriesErased : List (Expr × Expr) → List (Expr × Expr)
  | [] => []
  | (key, value) :: es => (key.erased, value.erased) :: entriesErased es

end

mutual

def Stmt.erased : Stmt → Stmt
  | .expr e => .expr e.erased
  | .print value _ => .print value.erased default
  | .function decl => .function decl.erased
  | .classDecl name methods _ => .classDecl name.erased (methodsErased methods) default
  | .block body => .block body.erased
  | .ifElse cond thenBlock elseBlock _ =>
    .ifElse cond.erased thenBlock.erased
      (match elseBlock with
        | some b => some b.erased
        | none => none) default
  | .whileLoop cond body _ => .whileLoop cond.erased body.erased default
  | .ret none _ => .ret none default
  | .ret (some value) _ => .ret (some value.erased) default
  | .importUnit path _ => .importUnit path.erased default
  | .tryCatch body errorVar handler _ =>
    .tryCatch body.erased errorVar.erased handler.erased default

def stmtsErased : List Stmt → List Stmt
  | [] => []
  | s :: ss => s.erased :: stmtsErased ss

def methodsErased : List FunctionDecl → List FunctionDecl
  | [] => []
  | m :: ms => m.erased :: methodsErased ms

def Block.erased : Block → Block
  | ⟨ss, _⟩ => ⟨stmtsErased ss, default⟩

def FunctionDecl.erased : FunctionDecl → FunctionDecl
  | ⟨name, params, body, _⟩ => ⟨name.erased, params.map Ident.erased, body.erased, default⟩

end

def Program.erased (p : Program) : Program := ⟨stmtsErased p.stmts, default⟩

/-! ## Normal programs -/

def Expr.isGet : Expr → Bool
  | get _ _ _ => true
  | _ => false

def Ident.normal (id : Ident) : Bool := isName id.name

mutual

/-- Whether an expression has no `spawn`, no assignment to a property that is not written as one,
and only names and numbers that can be read. -/
def Expr.normal : Expr → Bool
  | .var id => id.normal
  | .number n _ => n.lexable
  | .assign target value _ => !target.isGet && target.normal && value.normal
  | .set object name value _ => object.normal && name.normal && value.normal
  | .get object name _ => object.normal && name.normal
  | .binary _ left right _ => left.normal && right.normal
  | .unary _ operand _ => operand.normal
  | .call callee args _ => callee.normal && exprsNormal args
  | .list elems _ => exprsNormal elems
  | .map entries _ => entriesNormal entries
  | .spawn _ _ => false
  | .null _ | .bool _ _ | .str _ _ | .self _ => true

def exprsNormal : List Expr → Bool
  | [] => true
  | e :: es => e.normal && exprsNormal es

def entriesNormal : List (Expr × Expr) → Bool
  | [] => true
  | (key, value) :: es => key.normal && value.normal && entriesNormal es

end

/-- Whether a statement ends with an expression. -/
def Stmt.endsInExpr : Stmt → Bool
  | .expr _ | .print _ _ | .importUnit _ _ | .ret (some _) _ => true
  | _ => false

/-- Whether a statement is a `return` without a value. -/
def Stmt.isBareReturn : Stmt → Bool
  | .ret none _ => true
  | _ => false

/-- Whether a token would be taken for more of the expression before it, although it can begin
one. -/
def isAmbiguous (k : TokenKind) : Bool := k == .symbol .lParen || k == .symbol .minus

/-- Whether a statement is an expression that begins with a parenthesis or a minus sign. -/
def Stmt.beginsAmbiguously : Stmt → Bool
  | .expr e => (e.words true).head?.any isAmbiguous
  | _ => false

/-- Whether a statement may stand directly before another one. -/
def Stmt.precedes (s s' : Stmt) : Bool :=
  !s.isBareReturn && !(s.endsInExpr && s'.beginsAmbiguously)

mutual

/-- Whether a statement has no bare block, `spawn` only as a whole statement, and otherwise only
what can be read, in an order in which it can be read. -/
def Stmt.normal : Stmt → Bool
  | .expr (.spawn call _) => call.normal
  | .expr e => e.normal
  | .print value _ => value.normal
  | .function decl => decl.normal
  | .classDecl name methods _ => name.normal && methodsNormal methods
  | .block _ => false
  | .ifElse cond thenBlock elseBlock _ =>
    cond.normal && thenBlock.normal &&
      (match elseBlock with
        | some b => b.normal
        | none => true)
  | .whileLoop cond body _ => cond.normal && body.normal
  | .ret none _ => true
  | .ret (some value) _ => value.normal
  | .importUnit path _ => path.normal
  | .tryCatch body errorVar handler _ => body.normal && errorVar.normal && handler.normal

def stmtsNormal : List Stmt → Bool
  | [] => true
  | s :: ss => s.normal && ss.head?.all s.precedes && stmtsNormal ss

def methodsNormal : List FunctionDecl → Bool
  | [] => true
  | m :: ms => m.normal && methodsNormal ms

def Block.normal : Block → Bool
  | ⟨ss, _⟩ => stmtsNormal ss

def FunctionDecl.normal : FunctionDecl → Bool
  | ⟨name, params, body, _⟩ => name.normal && params.all Ident.normal && body.normal

end

/-- Whether a program can be written down so that it is read as it is. -/
def Program.normal (p : Program) : Bool := stmtsNormal p.stmts

end DotScript.Syntax
