import Mathlib.Data.List.Forall2
import DotScript.Proofs.Semantics.Evaluation

/-!
# Functions that return explicitly

The last statement of a function gives the value that the function returns, if it is an expression or
an `if`; otherwise the function returns null. `explicitTail` writes the `return` out.

* `explicitTail`: the body of a function with its returns written out;
* `Program.Explicit`: in a program the bodies of some functions, wherever they are declared, are
  replaced by such ones.
-/

namespace DotScript.Syntax

open DotScript.Text

/-- `return null`. -/
def returnNull (span : Span) : Stmt := .ret (some (.null span)) span

/-- Statements with an explicit `return` where they leave a value: of the last expression, in both
branches of a last `if`, and otherwise of null behind the last statement. -/
def explicitTail (span : Span) : List Stmt → List Stmt
  | [] => [returnNull span]
  | [.expr e] => [.ret (some e) e.span]
  | [.ifElse cond ⟨thenStmts, thenSpan⟩ none ifSpan] =>
    [.ifElse cond ⟨explicitTail thenSpan thenStmts, thenSpan⟩ (some ⟨[returnNull span], span⟩) ifSpan]
  | [.ifElse cond ⟨thenStmts, thenSpan⟩ (some ⟨elseStmts, elseSpan⟩) ifSpan] =>
    [.ifElse cond ⟨explicitTail thenSpan thenStmts, thenSpan⟩
      (some ⟨explicitTail elseSpan elseStmts, elseSpan⟩) ifSpan]
  | [s] => [s, returnNull span]
  | s :: ss => s :: explicitTail span ss

mutual

/-- A statement in which the bodies of some functions return explicitly. -/
inductive Stmt.Explicit : Stmt → Stmt → Prop
  | expr (e : Expr) : Stmt.Explicit (.expr e) (.expr e)
  | print (value : Expr) (span : Span) : Stmt.Explicit (.print value span) (.print value span)
  | function {decl decl'} (h : decl.Explicit decl') : Stmt.Explicit (.function decl) (.function decl')
  | classDecl (name : Ident) {methods methods'} (h : MethodsExplicit methods methods')
    (span : Span) : Stmt.Explicit (.classDecl name methods span) (.classDecl name methods' span)
  | block {body body'} (h : body.Explicit body') : Stmt.Explicit (.block body) (.block body')
  | ifThen (cond : Expr) {thenBlock thenBlock'} (h : thenBlock.Explicit thenBlock') (span : Span) :
    Stmt.Explicit (.ifElse cond thenBlock none span) (.ifElse cond thenBlock' none span)
  | ifElse (cond : Expr) {thenBlock thenBlock' elseBlock elseBlock'}
    (h : thenBlock.Explicit thenBlock') (helse : elseBlock.Explicit elseBlock') (span : Span) :
    Stmt.Explicit (.ifElse cond thenBlock (some elseBlock) span)
      (.ifElse cond thenBlock' (some elseBlock') span)
  | whileLoop (cond : Expr) {body body'} (h : body.Explicit body') (span : Span) :
    Stmt.Explicit (.whileLoop cond body span) (.whileLoop cond body' span)
  | ret (value : Option Expr) (span : Span) : Stmt.Explicit (.ret value span) (.ret value span)
  | importUnit (path : Expr) (span : Span) : Stmt.Explicit (.importUnit path span) (.importUnit path span)
  | tryCatch {body body' handler handler'} (h : body.Explicit body') (errorVar : Ident)
    (hhandler : handler.Explicit handler') (span : Span) :
    Stmt.Explicit (.tryCatch body errorVar handler span) (.tryCatch body' errorVar handler' span)

inductive StmtsExplicit : List Stmt → List Stmt → Prop
  | nil : StmtsExplicit [] []
  | cons {s s' ss ss'} (h : s.Explicit s') (hs : StmtsExplicit ss ss') :
    StmtsExplicit (s :: ss) (s' :: ss')

inductive Block.Explicit : Block → Block → Prop
  | mk {ss ss'} (h : StmtsExplicit ss ss') (span : Span) : Block.Explicit ⟨ss, span⟩ ⟨ss', span⟩

inductive MethodsExplicit : List FunctionDecl → List FunctionDecl → Prop
  | nil : MethodsExplicit [] []
  | cons {m m' ms ms'} (h : m.Explicit m') (hs : MethodsExplicit ms ms') :
    MethodsExplicit (m :: ms) (m' :: ms')

/-- The body of a function returns explicitly, or it is the same but for functions declared in it. -/
inductive FunctionDecl.Explicit : FunctionDecl → FunctionDecl → Prop
  | kept (name : Ident) (params : List Ident) {body body'} (h : StmtsExplicit body body')
    (bodySpan span : Span) :
    FunctionDecl.Explicit ⟨name, params, ⟨body, bodySpan⟩, span⟩ ⟨name, params, ⟨body', bodySpan⟩, span⟩
  | explicit (name : Ident) (params : List Ident) {body body'} (h : StmtsExplicit body body')
    (bodySpan span : Span) :
    FunctionDecl.Explicit ⟨name, params, ⟨body, bodySpan⟩, span⟩
      ⟨name, params, ⟨explicitTail bodySpan body', bodySpan⟩, span⟩

end

mutual

/-- It may be that no function is changed. -/
theorem Stmt.Explicit.refl : (s : Stmt) → s.Explicit s
  | .expr e => .expr e
  | .print value span => .print value span
  | .function decl => .function (FunctionDecl.Explicit.refl decl)
  | .classDecl name methods span => .classDecl name (MethodsExplicit.refl methods) span
  | .block body => .block (Block.Explicit.refl body)
  | .ifElse cond thenBlock none span => .ifThen cond (Block.Explicit.refl thenBlock) span
  | .ifElse cond thenBlock (some elseBlock) span =>
    .ifElse cond (Block.Explicit.refl thenBlock) (Block.Explicit.refl elseBlock) span
  | .whileLoop cond body span => .whileLoop cond (Block.Explicit.refl body) span
  | .ret value span => .ret value span
  | .importUnit path span => .importUnit path span
  | .tryCatch body errorVar handler span =>
    .tryCatch (Block.Explicit.refl body) errorVar (Block.Explicit.refl handler) span

theorem StmtsExplicit.refl : (ss : List Stmt) → StmtsExplicit ss ss
  | [] => .nil
  | s :: ss => .cons (Stmt.Explicit.refl s) (StmtsExplicit.refl ss)

theorem Block.Explicit.refl : (b : Block) → b.Explicit b
  | ⟨ss, span⟩ => .mk (StmtsExplicit.refl ss) span

theorem MethodsExplicit.refl : (ms : List FunctionDecl) → MethodsExplicit ms ms
  | [] => .nil
  | m :: ms => .cons (FunctionDecl.Explicit.refl m) (MethodsExplicit.refl ms)

theorem FunctionDecl.Explicit.refl : (decl : FunctionDecl) → decl.Explicit decl
  | ⟨name, params, ⟨body, bodySpan⟩, span⟩ =>
    .kept name params (StmtsExplicit.refl body) bodySpan span

end

/-- A program in which the bodies of some functions return explicitly. -/
structure Program.Explicit (p p' : Program) : Prop where
  stmts : StmtsExplicit p.stmts p'.stmts
  span : p.span = p'.span

/-! ## Declarations -/

/-- The function has the same name and the same parameters. -/
theorem FunctionDecl.Explicit.name_eq {decl decl' : FunctionDecl} (h : decl.Explicit decl') :
    decl.name = decl'.name ∧ decl.params = decl'.params := by
  cases h <;> exact ⟨rfl, rfl⟩

theorem explicitTail_cons (span : Span) (s s' : Stmt) (ss : List Stmt) :
    explicitTail span (s :: s' :: ss) = s :: explicitTail span (s' :: ss) := by
  cases s <;> simp only [explicitTail]

theorem explicitTail_ne_nil (span : Span) (ss : List Stmt) : explicitTail span ss ≠ [] := by
  fun_cases explicitTail span ss <;> exact List.cons_ne_nil _ _

theorem declarations_explicitTail (span : Span) (ss : List Stmt) :
    stmtDeclarations (explicitTail span ss) = stmtDeclarations ss := by
  fun_induction explicitTail span ss
  all_goals simp_all only [returnNull, stmtDeclarations, Stmt.declarations, Block.declarations,
    List.append_nil]

/-- The same kind of function, whose body may return explicitly. -/
def SameKind (e e' : Bool × FunctionDecl) : Prop := e.1 = e'.1 ∧ e.2.Explicit e'.2

mutual

theorem Stmt.Explicit.declarations : {s s' : Stmt} → s.Explicit s' →
    List.Forall₂ SameKind s.declarations s'.declarations
  | _, _, .expr _ | _, _, .print _ _ | _, _, .ret _ _ | _, _, .importUnit _ _ => .nil
  | _, _, .function h => h.declarations false
  | _, _, .classDecl _ h _ => h.declarations
  | _, _, .block h => h.declarations
  | _, _, .ifThen _ h _ => List.rel_append h.declarations .nil
  | _, _, .ifElse _ h helse _ => List.rel_append h.declarations helse.declarations
  | _, _, .whileLoop _ h _ => h.declarations
  | _, _, .tryCatch h _ hhandler _ => List.rel_append h.declarations hhandler.declarations

theorem StmtsExplicit.declarations : {ss ss' : List Stmt} → StmtsExplicit ss ss' →
    List.Forall₂ SameKind (stmtDeclarations ss) (stmtDeclarations ss')
  | _, _, .nil => .nil
  | _, _, .cons h hs => List.rel_append h.declarations hs.declarations

theorem Block.Explicit.declarations : {b b' : Block} → b.Explicit b' →
    List.Forall₂ SameKind b.declarations b'.declarations
  | _, _, .mk h _ => h.declarations

theorem MethodsExplicit.declarations : {ms ms' : List FunctionDecl} → MethodsExplicit ms ms' →
    List.Forall₂ SameKind (methodDeclarations ms) (methodDeclarations ms')
  | _, _, .nil => .nil
  | _, _, .cons h hs => List.rel_append (h.declarations true) hs.declarations

theorem FunctionDecl.Explicit.declarations (m : Bool) : {decl decl' : FunctionDecl} →
    decl.Explicit decl' → List.Forall₂ SameKind (decl.declarations m) (decl'.declarations m)
  | _, _, .kept name params h bodySpan span =>
    .cons ⟨rfl, .kept name params h bodySpan span⟩ h.declarations
  | _, _, @FunctionDecl.Explicit.explicit name params _ _ h bodySpan span => by
    refine .cons ⟨rfl, .explicit name params h bodySpan span⟩ ?_
    rw [declarations_explicitTail]
    exact h.declarations

end

end DotScript.Syntax
