import DotScript.Syntax.Parser.Cursor

/-!
# Reading expressions

From the loosest to the tightest binding: assignment (to the right), comparison, sum, product (all
to the left), the signs `-` and `!`, calls and properties, and primaries. Each level is a parser made
from the next tighter one; `Parser.expr` ties the knot. Its bound falls whenever an expression stands
inside another, and so does the number of tokens left.
-/

namespace DotScript.Syntax

open DotScript.Text

/-- Comparison operators. -/
def compareOp : TokenKind → Option BinaryOp
  | .symbol .eqEq => some .eq
  | .symbol .bangEq => some .notEq
  | .symbol .lt => some .lt
  | .symbol .ltEq => some .ltEq
  | .symbol .gt => some .gt
  | .symbol .gtEq => some .gtEq
  | _ => none

/-- Operators of sums. -/
def sumOp : TokenKind → Option BinaryOp
  | .symbol .plus => some .add
  | .symbol .minus => some .sub
  | _ => none

/-- Operators of products. -/
def productOp : TokenKind → Option BinaryOp
  | .symbol .star => some .mul
  | .symbol .slash => some .div
  | _ => none

/-- Signs before an operand. -/
def unaryOp : TokenKind → Option UnaryOp
  | .symbol .minus => some .neg
  | .symbol .bang => some .not
  | _ => none

/-- `target = value`; a property as target becomes `set`. -/
def Expr.assignTo (target value : Expr) : Expr :=
  let span := target.span.cover value.span
  match target with
  | .get object name _ => .set object name value span
  | target => .assign target value span

namespace Parser

/-- Items up to a closing symbol, which is read too; gives its span. -/
def listUntil {α : Type} (item : Parser α) (close : Symbol) (fuel : Nat) :
    Parser (List α × Span) := fun c => do
  let (items, c) ← if c.isAt close then pure ([], c) else commaSeparated item fuel c
  let (stop, c) ← symbol close c
  return ((items, stop), c)

/-- The key of a map entry: a bare name before a colon stands for itself as a string. -/
def mapKey (expr : Parser Expr) : Parser Expr := fun c =>
  match c.kind with
  | .ident name => if c.advance.isAt .colon then .ok (.str name c.span, c.advance) else expr c
  | _ => expr c

/-- `key: value` -/
def mapEntry (expr : Parser Expr) : Parser (Expr × Expr) := fun c => do
  let (key, c) ← mapKey expr c
  let (_, c) ← symbol .colon c
  let (value, c) ← expr c
  return ((key, value), c)

/-- Names, literals, parentheses, lists and maps. -/
def primary (expr : Parser Expr) (fuel : Nat) : Parser Expr := fun c =>
  let span := c.span
  match c.kind with
  | .ident name => .ok (.var ⟨name, span⟩, c.advance)
  | .number n => .ok (.number n span, c.advance)
  | .str s => .ok (.str s span, c.advance)
  | .keyword .kwTrue => .ok (.bool true span, c.advance)
  | .keyword .kwFalse => .ok (.bool false span, c.advance)
  | .keyword .kwNull => .ok (.null span, c.advance)
  | .keyword .kwThis => .ok (.self span, c.advance)
  | .symbol .lParen => do
    let (inner, c) ← expr c.advance
    let (_, c) ← symbol .rParen c
    return (inner, c)
  | .symbol .lBracket => do
    let ((elems, stop), c) ← listUntil expr .rBracket fuel c.advance
    return (.list elems (span.cover stop), c)
  | .symbol .lBrace => do
    let ((entries, stop), c) ← listUntil (mapEntry expr) .rBrace fuel c.advance
    return (.map entries (span.cover stop), c)
  | _ => .error (c.unexpected "expression")

/-- Calls and properties behind an expression already read, at most `fuel`. -/
def postfixes (expr : Parser Expr) : Nat → Expr → Parser Expr
  | 0, _, c => .error c.exhausted
  | fuel + 1, e, c =>
    if c.isAt .lParen then do
      let ((args, stop), c) ← listUntil expr .rParen fuel c.advance
      postfixes expr fuel (.call e args (e.span.cover stop)) c
    else if c.isAt .dot then do
      let (name, c) ← ident c.advance
      postfixes expr fuel (.get e name (e.span.cover name.span)) c
    else .ok (e, c)

/-- A primary with calls and properties. -/
def operand (expr : Parser Expr) (fuel : Nat) : Parser Expr := fun c => do
  let (e, c) ← primary expr fuel c
  postfixes expr fuel e c

/-- An operand with signs before it, at most `fuel`. -/
def signed (operand : Parser Expr) : Nat → Parser Expr
  | 0, c => .error c.exhausted
  | fuel + 1, c =>
    match unaryOp c.kind with
    | none => operand c
    | some op => do
      let start := c.span
      let (e, c) ← signed operand fuel c.advance
      return (.unary op e (start.cover e.span), c)

/-- Operators of one level, and operands, behind a left operand; at most `fuel` of them. -/
def chain (op : TokenKind → Option BinaryOp) (tighter : Parser Expr) : Nat → Expr → Parser Expr
  | 0, _, c => .error c.exhausted
  | fuel + 1, left, c =>
    match op c.kind with
    | none => .ok (left, c)
    | some o => do
      let (right, c) ← tighter c.advance
      chain op tighter fuel (.binary o left right (left.span.cover right.span)) c

/-- Operands joined to the left by the operators of one level. -/
def leftAssoc (op : TokenKind → Option BinaryOp) (tighter : Parser Expr) (fuel : Nat) :
    Parser Expr := fun c => do
  let (left, c) ← tighter c
  chain op tighter fuel left c

/-- Everything that binds tighter than assignment. -/
def comparison (expr : Parser Expr) (fuel : Nat) : Parser Expr :=
  leftAssoc compareOp
    (leftAssoc sumOp (leftAssoc productOp (signed (operand expr fuel) fuel) fuel) fuel) fuel

/-- An expression. Two more than the number of tokens left is bound enough. -/
def expr : Nat → Parser Expr
  | 0, c => .error c.exhausted
  | fuel + 1, c => do
    let (target, c) ← comparison (expr fuel) fuel c
    if c.isAt .assign then
      let (value, c) ← expr fuel c.advance
      return (target.assignTo value, c)
    else
      return (target, c)

end Parser

end DotScript.Syntax
