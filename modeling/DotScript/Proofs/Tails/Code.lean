import DotScript.Proofs.Correspondence.InStep
import DotScript.Proofs.Flow.Code
import DotScript.Proofs.Semantics.Declared
import DotScript.Proofs.Tails.Explicit

/-!
# Code of functions that return explicitly

The code of a program goes in step with that of the program in which some functions return
explicitly, piece by piece: each piece does so if what follows it does. A body that returns
explicitly goes in step with one that leaves a value and returns at its end, but for the jumps to
that end.
-/

namespace DotScript.Machine

open DotScript.Bytecode DotScript.Syntax DotScript.Semantics
open DotScript.Compile hiding expr exprs pairs stmt stmts block program

section
variable {G : Prototype → Prototype → Prop} {c c' : Chunk} {i j : Image} {K : Nat → Nat → Prop}

/-! ## Expressions -/

section
variable {ns : List String} {a b : Nat}

theorem variable_inStep {onLocal onGlobal : Opcode} {name : String} (hlocal : TakesIndex onLocal)
    (hglobal : TakesName onGlobal) (h : VariableAt c ns a onLocal onGlobal name)
    (h' : VariableAt c' ns b onLocal onGlobal name) (hend : StepsOn G c c' K (a + 2) (b + 2)) :
    InStep G c c' K a b := by
  simp only [VariableAt] at h h'
  cases hslot : slotOf name ns with
  | some slot =>
    simp only [hslot] at h h'
    exact .of_twin (.index hlocal h h' hend)
  | none =>
    simp only [hslot] at h h'
    exact .of_twin (.name hglobal h h' hend)

theorem null_inStep (h : ConstAt c a .constant .null) (h' : ConstAt c' b .constant .null)
    (hend : StepsOn G c c' K (a + 2) (b + 2)) : InStep G c c' K a b :=
  .of_twin (.constant h h' .null hend)

end

theorem bare_binaryOpcode (op : BinaryOp) : Bare (binaryOpcode op) := by
  cases op <;> trivial

theorem bare_unaryOpcode (op : UnaryOp) : Bare (unaryOpcode op) := by
  cases op <;> trivial

mutual

theorem expr_inStep : (e : Expr) → {ns : List String} → {a b : Nat} → ExprAt c ns a e →
    ExprAt c' ns b e → StepsOn G c c' K (a + e.width) (b + e.width) → InStep G c c' K a b
  | .var id, ns, a, b, h, h', hend => by
    simp only [ExprAt] at h h'
    exact variable_inStep (by trivial) (by trivial) h h' hend
  | .null _, ns, a, b, h, h', hend => by
    simp only [ExprAt] at h h'
    exact null_inStep h h' hend
  | .bool v _, ns, a, b, h, h', hend => by
    simp only [ExprAt] at h h'
    exact .of_twin (.constant h h' (.bool v) hend)
  | .number n _, ns, a, b, h, h', hend => by
    simp only [ExprAt] at h h'
    exact .of_twin (.constant h h' (.number n) hend)
  | .str s _, ns, a, b, h, h', hend => by
    simp only [ExprAt] at h h'
    exact .of_twin (.constant h h' (.str s) hend)
  | .assign (.var id) value _, ns, a, b, h, h', hend => by
    simp only [ExprAt] at h h'
    simp only [Expr.width, ← Nat.add_assoc] at hend
    refine expr_inStep value h.1 h'.1 (.inr ?_)
    exact variable_inStep (by trivial) (by trivial) h.2 h'.2 hend
  | .set object name value _, ns, a, b, h, h', hend => by
    simp only [ExprAt] at h h'
    simp only [Expr.width, ← Nat.add_assoc] at hend
    refine expr_inStep object h.1 h'.1 (.inr ?_)
    refine expr_inStep value h.2.1 h'.2.1 (.inr ?_)
    exact .of_twin (.name (by trivial) h.2.2 h'.2.2 hend)
  | .get object name _, ns, a, b, h, h', hend => by
    simp only [ExprAt] at h h'
    simp only [Expr.width, ← Nat.add_assoc] at hend
    refine expr_inStep object h.1 h'.1 (.inr ?_)
    exact .of_twin (.name (by trivial) h.2 h'.2 hend)
  | .binary op left right _, ns, a, b, h, h', hend => by
    simp only [ExprAt] at h h'
    simp only [Expr.width, ← Nat.add_assoc] at hend
    refine expr_inStep left h.1 h'.1 (.inr ?_)
    refine expr_inStep right h.2.1 h'.2.1 (.inr ?_)
    exact .of_twin (.bare (bare_binaryOpcode op) h.2.2 h'.2.2 hend)
  | .unary op operand _, ns, a, b, h, h', hend => by
    simp only [ExprAt] at h h'
    simp only [Expr.width, ← Nat.add_assoc] at hend
    refine expr_inStep operand h.1 h'.1 (.inr ?_)
    exact .of_twin (.bare (bare_unaryOpcode op) h.2 h'.2 hend)
  | .call callee args _, ns, a, b, h, h', hend => by
    simp only [ExprAt] at h h'
    simp only [Expr.width, ← Nat.add_assoc] at hend
    refine expr_inStep callee h.1 h'.1 (.inr ?_)
    refine exprs_inStep args h.2.1 h'.2.1 ?_
    exact .of_twin (.index (by trivial) h.2.2 h'.2.2 hend)
  | .list elems _, ns, a, b, h, h', hend => by
    simp only [ExprAt] at h h'
    simp only [Expr.width, ← Nat.add_assoc] at hend
    refine exprs_inStep elems h.1 h'.1 ?_
    exact .of_twin (.index (by trivial) h.2 h'.2 hend)
  | .map entries _, ns, a, b, h, h', hend => by
    simp only [ExprAt] at h h'
    simp only [Expr.width, ← Nat.add_assoc] at hend
    refine pairs_inStep entries h.1 h'.1 ?_
    exact .of_twin (.index (by trivial) h.2 h'.2 hend)
  | .self _, ns, a, b, h, h', hend => by
    simp only [ExprAt] at h h'
    obtain ⟨slot, hslot, h⟩ := h
    obtain ⟨slot', hslot', h'⟩ := h'
    obtain rfl : slot = slot' := Option.some.inj (hslot.symm.trans hslot')
    exact .of_twin (.index (by trivial) h h' hend)
  | .spawn (.call callee args _) _, ns, a, b, h, h', hend => by
    simp only [ExprAt] at h h'
    simp only [Expr.width, ← Nat.add_assoc] at hend
    refine expr_inStep callee h.1 h'.1 (.inr ?_)
    refine exprs_inStep args h.2.1 h'.2.1 ?_
    exact .of_twin (.index (by trivial) h.2.2 h'.2.2 hend)

theorem exprs_inStep : (es : List Expr) → {ns : List String} → {a b : Nat} →
    ExprsAt c ns a es → ExprsAt c' ns b es →
    InStep G c c' K (a + widths es) (b + widths es) → InStep G c c' K a b
  | [], ns, a, b, h, h', hend => hend
  | e :: es, ns, a, b, h, h', hend => by
    simp only [ExprsAt] at h h'
    simp only [widths, ← Nat.add_assoc] at hend
    exact expr_inStep e h.1 h'.1 (.inr (exprs_inStep es h.2 h'.2 hend))

theorem pairs_inStep : (es : List (Expr × Expr)) → {ns : List String} → {a b : Nat} →
    PairsAt c ns a es → PairsAt c' ns b es →
    InStep G c c' K (a + pairWidths es) (b + pairWidths es) → InStep G c c' K a b
  | [], ns, a, b, h, h', hend => hend
  | (key, value) :: es, ns, a, b, h, h', hend => by
    simp only [PairsAt] at h h'
    simp only [pairWidths, ← Nat.add_assoc] at hend
    refine expr_inStep key h.1 h'.1 (.inr ?_)
    exact expr_inStep value h.2.1 h'.2.1 (.inr (pairs_inStep es h.2.2 h'.2.2 hend))

end

theorem optional_inStep {value : Option Expr} {ns : List String} {a b : Nat}
    (h : OptionalAt c ns a value) (h' : OptionalAt c' ns b value)
    (hend : StepsOn G c c' K (a + optionalWidth value) (b + optionalWidth value)) :
    InStep G c c' K a b := by
  cases value with
  | some e => exact expr_inStep e h h' hend
  | none => exact null_inStep h h' hend

/-! ## Functions in the order of the text -/

/-- What the code of a unit says of a function. -/
def prototype (f : Function) : Prototype := ⟨f.name, f.arity, f.entry⟩

/-- Two lists of functions, related one by one. -/
def SameFunctions (G : Prototype → Prototype → Prop) (ds ds' : List Declared) : Prop :=
  List.Forall₂ (fun d d' => G (prototype d.function) (prototype d'.function)) ds ds'

theorem SameFunctions.append {ds ds' es es' : List Declared}
    (h : SameFunctions G (ds ++ es) (ds' ++ es')) (hlength : ds.length = ds'.length) :
    SameFunctions G ds ds' ∧ SameFunctions G es es' := by
  induction ds generalizing ds' with
  | nil =>
    obtain rfl : ds' = [] := List.length_eq_zero_iff.mp hlength.symm
    exact ⟨.nil, h⟩
  | cons d ds ih =>
    cases ds' with
    | nil => cases hlength
    | cons d' ds' =>
      obtain ⟨hd, hrest⟩ := List.forall₂_cons.mp h
      obtain ⟨hds, hes⟩ := ih hrest (Nat.succ.inj hlength)
      exact ⟨.cons hd hds, hes⟩

theorem length_eq_of_lists {lo hi lo' hi' : Nat} {ds ds' : List Declared}
    {decls decls' : List (Bool × FunctionDecl)} (h : Lists c i lo hi ds decls)
    (h' : Lists c' j lo' hi' ds' decls') (hdecls : List.Forall₂ SameKind decls decls') :
    ds.length = ds'.length :=
  h.length.trans (hdecls.length_eq.trans h'.length.symm)

/-- The constant of a function stands for the same function on both sides. -/
theorem function_like {m : Bool} {a b : Nat} {decl decl' : FunctionDecl}
    (h : SameFunctions G (functionDeclared i a m decl) (functionDeclared j b m decl')) :
    ConstantLike G (.function (protoOf decl (a + 2))) (.function (protoOf decl' (b + 2))) := by
  obtain ⟨name, params, ⟨body, bodySpan⟩, span⟩ := decl
  obtain ⟨name', params', ⟨body', bodySpan'⟩, span'⟩ := decl'
  simp only [functionDeclared] at h
  exact .function (List.forall₂_cons.mp h).1

/-! ## Statements

Jumps are met first, for any code in the branches, the body and the handler. -/

section
variable {a b thenWidth elseWidth thenWidth' elseWidth' : Nat}

/-- Behind a condition, one of two branches. -/
theorem branch_inStep (h : BranchAt c a thenWidth elseWidth)
    (h' : BranchAt c' b thenWidth' elseWidth')
    (hthen : StepsOn G c c' K (a + 2 + thenWidth) (b + 2 + thenWidth') →
      StepsOn G c c' K (a + 2) (b + 2))
    (helse : StepsOn G c c' K (a + 2 + thenWidth + 2) (b + 2 + thenWidth' + 2))
    (hend : StepsOn G c c' K (a + 2 + thenWidth + 2 + elseWidth)
      (b + 2 + thenWidth' + 2 + elseWidth')) :
    InStep G c c' K a b :=
  .of_twin (.fork (by trivial) h.toElse h'.toElse helse
    (hthen (.inr (.of_twin (.jump h.toEnd h'.toEnd hend)))))

/-- Loops come back to their beginnings, which are assumed for conditions and bodies. -/
theorem loop_inStep {x y bodyWidth bodyWidth' : Nat} (h : LoopAt c a x bodyWidth)
    (h' : LoopAt c' b y bodyWidth')
    (hcond : ∀ {K'}, StepsOn G c c' K' x y → InStep G c c' K' a b)
    (hbody : ∀ {K'}, StepsOn G c c' K' (x + 2 + bodyWidth) (y + 2 + bodyWidth') →
      StepsOn G c c' K' (x + 2) (y + 2))
    (hend : StepsOn G c c' K (x + 2 + bodyWidth + 2) (y + 2 + bodyWidth' + 2)) :
    StepsOn G c c' K a b := by
  let K' : Nat → Nat → Prop := fun u v => K u v ∨ (u = a ∧ v = b)
  have hback : StepsOn G c c' K' a b := .inl (.inr ⟨rfl, rfl⟩)
  have hround := hbody (.inr (.of_twin (.jump h.toStart h'.toStart hback)))
  refine .inr (.of_cycle (hcond (.inr ?_)))
  exact .of_twin (.fork (by trivial) h.toEnd h'.toEnd (hend.mono fun _ _ => .inl) hround)

/-- Bodies with handlers. -/
theorem guarded_inStep {bodyWidth handlerWidth bodyWidth' handlerWidth' : Nat}
    (h : TryAt c a bodyWidth handlerWidth) (h' : TryAt c' b bodyWidth' handlerWidth')
    (hbody : StepsOn G c c' K (a + 2 + bodyWidth) (b + 2 + bodyWidth') →
      StepsOn G c c' K (a + 2) (b + 2))
    (hhandler : StepsOn G c c' K (a + 2 + bodyWidth + 3 + handlerWidth)
        (b + 2 + bodyWidth' + 3 + handlerWidth') →
      StepsOn G c c' K (a + 2 + bodyWidth + 3) (b + 2 + bodyWidth' + 3))
    (hend : StepsOn G c c' K (a + 2 + bodyWidth + 3 + handlerWidth + 1)
      (b + 2 + bodyWidth' + 3 + handlerWidth' + 1)) : StepsOn G c c' K a b := by
  have hcaught := hhandler (.inr (.of_twin (.bare (by trivial) h.unbind h'.unbind hend)))
  have hdone : InStep G c c' K (a + 2 + bodyWidth + 1) (b + 2 + bodyWidth' + 1) :=
    .of_twin (.jump h.toEnd h'.toEnd hend)
  have htried := hbody (.inr (.of_twin (.bare (by trivial) h.exit h'.exit (.inr hdone))))
  exact .inr (.of_twin (.fork (by trivial) h.enter h'.enter hcaught htried))

end

/-- Methods are added one after the other. -/
theorem methods_inStep : {ms ms' : List FunctionDecl} → MethodsExplicit ms ms' → {a b : Nat} →
    MethodsAt c a ms → MethodsAt c' b ms' →
    SameFunctions G (methodsDeclared i a ms) (methodsDeclared j b ms') →
    StepsOn G c c' K (a + methodsWidth ms) (b + methodsWidth ms') → StepsOn G c c' K a b
  | _, _, .nil, a, b, h, h', hF, hend => hend
  | m :: ms, m' :: ms', .cons hm hms, a, b, h, h', hF, hend => by
    simp only [MethodsAt] at h h'
    obtain ⟨hbody, hconstant, hmethod, hrest⟩ := h
    obtain ⟨hbody', hconstant', hmethod', hrest'⟩ := h'
    simp only [methodsDeclared] at hF
    obtain ⟨hfunction, hfunctions⟩ := hF.append (length_eq_of_lists (function_lists true m hbody)
      (function_lists true m' hbody') (hm.declarations true))
    simp only [methodsWidth, ← Nat.add_assoc] at hend
    rw [← hm.name_eq.1] at hmethod'
    refine .inr (.of_twin (.jump (functionAt_jump hbody) (functionAt_jump hbody') (.inr ?_)))
    refine .of_twin (.constant hconstant hconstant' (function_like hfunction) (.inr ?_))
    refine .of_twin (.name (by trivial) hmethod hmethod' ?_)
    exact methods_inStep hms hrest hrest' hfunctions hend

mutual

theorem stmt_inStep : {s s' : Stmt} → s.Explicit s' → {K : Nat → Nat → Prop} →
    {ns : List String} → {a b : Nat} → StmtAt c ns a s → StmtAt c' ns b s' →
    SameFunctions G (stmtDeclared i a s) (stmtDeclared j b s') →
    StepsOn G c c' K (a + s.width) (b + s'.width) → StepsOn G c c' K a b
  | _, _, .expr e, K, ns, a, b, h, h', hF, hend => by
    simp only [StmtAt] at h h'
    simp only [Stmt.width, ← Nat.add_assoc] at hend
    refine .inr (expr_inStep e h.1 h'.1 (.inr ?_))
    exact .of_twin (.bare (by trivial) h.2 h'.2 hend)
  | _, _, .print value _, K, ns, a, b, h, h', hF, hend => by
    simp only [StmtAt] at h h'
    simp only [Stmt.width, ← Nat.add_assoc] at hend
    refine .inr (expr_inStep value h.1 h'.1 (.inr ?_))
    exact .of_twin (.bare (by trivial) h.2 h'.2 hend)
  | .function decl, .function decl', .function hd, K, ns, a, b, h, h', hF, hend => by
    simp only [StmtAt] at h h'
    obtain ⟨hbody, hconstant, hset, hpop⟩ := h
    obtain ⟨hbody', hconstant', hset', hpop'⟩ := h'
    simp only [stmtDeclared] at hF
    simp only [Stmt.width, ← Nat.add_assoc] at hend
    rw [← hd.name_eq.1] at hset'
    refine .inr (.of_twin (.jump (functionAt_jump hbody) (functionAt_jump hbody') (.inr ?_)))
    refine .of_twin (.constant hconstant hconstant' (function_like hF) (.inr ?_))
    refine .of_twin (.name (by trivial) hset hset' (.inr ?_))
    exact .of_twin (.bare (by trivial) hpop hpop' hend)
  | .classDecl _ ms _, .classDecl _ ms' _, .classDecl name hms span, K, ns, a, b, h, h', hF,
      hend => by
    simp only [StmtAt] at h h'
    obtain ⟨hclass, hmethods, hpop⟩ := h
    obtain ⟨hclass', hmethods', hpop'⟩ := h'
    simp only [stmtDeclared] at hF
    rw [Stmt.add_width_classDecl, Stmt.add_width_classDecl] at hend
    refine .inr (.of_twin (.name (by trivial) hclass hclass' ?_))
    refine methods_inStep hms hmethods hmethods' hF (.inr ?_)
    exact .of_twin (.bare (by trivial) hpop hpop' hend)
  | _, _, .block hb, K, ns, a, b, h, h', hF, hend => by
    simp only [StmtAt] at h h'
    simp only [stmtDeclared] at hF
    simp only [Stmt.width] at hend
    exact block_inStep hb h h' hF hend
  | .ifElse _ t none _, .ifElse _ t' none _, .ifThen cond ht span, K, ns, a, b, h, h', hF,
      hend => by
    simp only [StmtAt] at h h'
    obtain ⟨hcond, hbranch, hthen, -⟩ := h
    obtain ⟨hcond', hbranch', hthen', -⟩ := h'
    simp only [stmtDeclared, List.append_nil] at hF
    rw [Stmt.add_width_ifThen, Stmt.add_width_ifThen] at hend
    refine .inr (expr_inStep cond hcond hcond' (.inr ?_))
    exact branch_inStep hbranch hbranch' (block_inStep ht hthen hthen' hF) hend hend
  | .ifElse _ t (some e) _, .ifElse _ t' (some e') _, .ifElse cond ht he span, K, ns, a, b, h, h',
      hF, hend => by
    simp only [StmtAt] at h h'
    obtain ⟨hcond, hbranch, hthen, helse⟩ := h
    obtain ⟨hcond', hbranch', hthen', helse'⟩ := h'
    simp only [stmtDeclared] at hF
    obtain ⟨hFthen, hFelse⟩ := hF.append (length_eq_of_lists (block_lists t hthen)
      (block_lists t' hthen') ht.declarations)
    rw [Stmt.add_width_ifElse, Stmt.add_width_ifElse] at hend
    refine .inr (expr_inStep cond hcond hcond' (.inr ?_))
    exact branch_inStep hbranch hbranch' (block_inStep ht hthen hthen' hFthen)
      (block_inStep he helse helse' hFelse hend) hend
  | .whileLoop _ body _, .whileLoop _ body' _, .whileLoop cond hb span, K, ns, a, b, h, h', hF,
      hend => by
    simp only [StmtAt] at h h'
    obtain ⟨hcond, hloop, hbody⟩ := h
    obtain ⟨hcond', hloop', hbody'⟩ := h'
    simp only [stmtDeclared] at hF
    rw [Stmt.add_width_whileLoop, Stmt.add_width_whileLoop] at hend
    exact loop_inStep hloop hloop' (expr_inStep cond hcond hcond') (block_inStep hb hbody hbody' hF)
      hend
  | _, _, .ret value _, K, ns, a, b, h, h', hF, hend => by
    simp only [StmtAt] at h h'
    exact .inr (optional_inStep h.1 h'.1 (.inr (.of_twin (.ret h.2 h'.2))))
  | _, _, .importUnit path _, K, ns, a, b, h, h', hF, hend => by
    simp only [StmtAt] at h h'
    simp only [Stmt.width, ← Nat.add_assoc] at hend
    refine .inr (expr_inStep path h.1 h'.1 (.inr ?_))
    exact .of_twin (.bare (by trivial) h.2 h'.2 hend)
  | .tryCatch body _ handler _, .tryCatch body' _ handler' _, .tryCatch hb errorVar hh span, K, ns,
      a, b, h, h', hF, hend => by
    simp only [StmtAt] at h h'
    obtain ⟨htry, hbody, hhandler⟩ := h
    obtain ⟨htry', hbody', hhandler'⟩ := h'
    simp only [stmtDeclared] at hF
    obtain ⟨hFbody, hFhandler⟩ := hF.append (length_eq_of_lists (block_lists body hbody)
      (block_lists body' hbody') hb.declarations)
    rw [Stmt.add_width_tryCatch, Stmt.add_width_tryCatch] at hend
    exact guarded_inStep htry htry' (block_inStep hb hbody hbody' hFbody)
      (block_inStep hh hhandler hhandler' hFhandler) hend

theorem stmts_inStep : {ss ss' : List Stmt} → StmtsExplicit ss ss' → {K : Nat → Nat → Prop} →
    {ns : List String} → {a b : Nat} → StmtsAt c ns a ss → StmtsAt c' ns b ss' →
    SameFunctions G (stmtsDeclared i a ss) (stmtsDeclared j b ss') →
    StepsOn G c c' K (a + stmtsWidth ss) (b + stmtsWidth ss') → StepsOn G c c' K a b
  | _, _, .nil, K, ns, a, b, h, h', hF, hend => hend
  | s :: ss, s' :: ss', .cons hs hss, K, ns, a, b, h, h', hF, hend => by
    simp only [StmtsAt] at h h'
    simp only [stmtsDeclared] at hF
    obtain ⟨hFhead, hFtail⟩ := hF.append (length_eq_of_lists (stmt_lists s h.1)
      (stmt_lists s' h'.1) hs.declarations)
    simp only [stmtsWidth, ← Nat.add_assoc] at hend
    exact stmt_inStep hs h.1 h'.1 hFhead (stmts_inStep hss h.2 h'.2 hFtail hend)

theorem block_inStep : {b₁ b₂ : Block} → b₁.Explicit b₂ → {K : Nat → Nat → Prop} →
    {ns : List String} → {a b : Nat} → BlockAt c ns a b₁ → BlockAt c' ns b b₂ →
    SameFunctions G (blockDeclared i a b₁) (blockDeclared j b b₂) →
    StepsOn G c c' K (a + b₁.width) (b + b₂.width) → StepsOn G c c' K a b
  | _, _, .mk hss _, K, ns, a, b, h, h', hF, hend => by
    simp only [BlockAt] at h h'
    simp only [blockDeclared] at hF
    simp only [Block.width] at hend
    exact stmts_inStep hss h h' hF hend

end

/-! ## Bodies that stay -/

/-- Statements of which the last leaves a value. -/
theorem value_inStep : {ss ss' : List Stmt} → StmtsExplicit ss ss' → {ns : List String} →
    {a b : Nat} → ValueAt c ns a ss → ValueAt c' ns b ss' →
    SameFunctions G (valueDeclared i a ss) (valueDeclared j b ss') →
    StepsOn G c c' K (a + valueWidth ss) (b + valueWidth ss') → StepsOn G c c' K a b
  | [], [], .nil, ns, a, b, h, h', hF, hend => .inr (null_inStep h h' hend)
  | [s], [s'], .cons hs .nil, ns, a, b, h, h', hF, hend => by
    have hplain : StmtAt c ns a s → StmtAt c' ns b s' →
        ConstAt c (a + s.width) .constant .null →
        ConstAt c' (b + s'.width) .constant .null →
        valueDeclared i a [s] = stmtDeclared i a s → valueDeclared j b [s'] = stmtDeclared j b s' →
        valueWidth [s] = s.width + 2 → valueWidth [s'] = s'.width + 2 → StepsOn G c c' K a b := by
      intro hstmt hstmt' hnull hnull' hds hds' hwidth hwidth'
      rw [hds, hds'] at hF
      rw [hwidth, hwidth', ← Nat.add_assoc, ← Nat.add_assoc] at hend
      exact stmt_inStep hs hstmt hstmt' hF (.inr (null_inStep hnull hnull' hend))
    match s, s', hs, h, h' with
    | _, _, .expr e, h, h' => exact .inr (expr_inStep e h h' hend)
    | .ifElse _ ⟨t, _⟩ none _, .ifElse _ ⟨t', _⟩ none _, .ifThen cond (.mk ht _) _, h, h' =>
      obtain ⟨hcond, hbranch, hthen, hnull⟩ := h
      obtain ⟨hcond', hbranch', hthen', hnull'⟩ := h'
      change SameFunctions G (valueDeclared i (a + cond.width + 2) t ++ [])
        (valueDeclared j (b + cond.width + 2) t' ++ []) at hF
      rw [List.append_nil, List.append_nil] at hF
      rw [add_valueWidth_ifThen, add_valueWidth_ifThen] at hend
      refine .inr (expr_inStep cond hcond hcond' (.inr ?_))
      exact branch_inStep hbranch hbranch' (value_inStep ht hthen hthen' hF)
        (.inr (null_inStep hnull hnull' hend)) hend
    | .ifElse _ ⟨t, _⟩ (some ⟨e, _⟩) _, .ifElse _ ⟨t', _⟩ (some ⟨e', _⟩) _,
        .ifElse cond (.mk ht _) (.mk he _) _, h, h' =>
      obtain ⟨hcond, hbranch, hthen, helse⟩ := h
      obtain ⟨hcond', hbranch', hthen', helse'⟩ := h'
      change SameFunctions G (valueDeclared i (a + cond.width + 2) t ++
          valueDeclared i (a + cond.width + 2 + valueWidth t + 2) e)
        (valueDeclared j (b + cond.width + 2) t' ++
          valueDeclared j (b + cond.width + 2 + valueWidth t' + 2) e') at hF
      obtain ⟨hFthen, hFelse⟩ := hF.append (length_eq_of_lists (value_lists t hthen)
        (value_lists t' hthen') ht.declarations)
      rw [add_valueWidth_ifElse, add_valueWidth_ifElse] at hend
      refine .inr (expr_inStep cond hcond hcond' (.inr ?_))
      exact branch_inStep hbranch hbranch' (value_inStep ht hthen hthen' hFthen)
        (value_inStep he helse helse' hFelse hend) hend
    | _, _, .print _ _, h, h' | _, _, .function _, h, h' | _, _, .classDecl _ _ _, h, h'
    | _, _, .block _, h, h' | _, _, .whileLoop _ _ _, h, h' | _, _, .ret _ _, h, h'
    | _, _, .importUnit _ _, h, h' | _, _, .tryCatch _ _ _ _, h, h' =>
      exact hplain h.1 h'.1 h.2 h'.2 rfl rfl rfl rfl
  | s :: t :: ss, s' :: t' :: ss', .cons hs hss, ns, a, b, h, h', hF, hend => by
    change SameFunctions G (stmtDeclared i a s ++ valueDeclared i (a + s.width) (t :: ss))
      (stmtDeclared j b s' ++ valueDeclared j (b + s'.width) (t' :: ss')) at hF
    rw [add_valueWidth_cons, add_valueWidth_cons] at hend
    obtain ⟨hFhead, hFtail⟩ := hF.append (length_eq_of_lists (stmt_lists s h.1)
      (stmt_lists s' h'.1) hs.declarations)
    exact stmt_inStep hs h.1 h'.1 hFhead (value_inStep hss h.2 h'.2 hFtail hend)

theorem endsInReturn_eq : {ss ss' : List Stmt} → StmtsExplicit ss ss' →
    endsInReturn ss = endsInReturn ss'
  | _, _, .nil => rfl
  | _, _, .cons hs .nil => by cases hs <;> rfl
  | s :: t :: ss, s' :: t' :: ss', .cons _ hss => by
    simp only [endsInReturn]
    exact endsInReturn_eq hss

theorem stmtsAt_cons {c : Chunk} {ns : List String} {a : Nat} {s : Stmt} {ss : List Stmt} :
    StmtsAt c ns a (s :: ss) ↔ StmtAt c ns a s ∧ StmtsAt c ns (a + s.width) ss := by
  rw [StmtsAt]

theorem endsInReturn_cons (s s' : Stmt) (ss : List Stmt) :
    endsInReturn (s :: s' :: ss) = endsInReturn (s' :: ss) := by
  cases s <;> rfl

/-- Nothing behind statements that end in a return is reached. -/
theorem ended_inStep : {ss ss' : List Stmt} → StmtsExplicit ss ss' → endsInReturn ss = true →
    {ns : List String} → {a b : Nat} → StmtsAt c ns a ss → StmtsAt c' ns b ss' →
    SameFunctions G (stmtsDeclared i a ss) (stmtsDeclared j b ss') → StepsOn G c c' K a b
  | [s], [s'], .cons hs .nil, hends, ns, a, b, h, h', hF => by
    have hstmt := (stmtsAt_cons.mp h).1
    have hstmt' := (stmtsAt_cons.mp h').1
    cases hs with
    | ret value span =>
      simp only [StmtAt] at hstmt hstmt'
      exact .inr (optional_inStep hstmt.1 hstmt'.1 (.inr (.of_twin (.ret hstmt.2 hstmt'.2))))
    | _ => cases hends
  | s :: t :: ss, s' :: t' :: ss', .cons hs hss, hends, ns, a, b, h, h', hF => by
    obtain ⟨hstmt, hrest⟩ := stmtsAt_cons.mp h
    obtain ⟨hstmt', hrest'⟩ := stmtsAt_cons.mp h'
    rw [stmtsDeclared.eq_def i a (s :: _), stmtsDeclared.eq_def j b (s' :: _)] at hF
    obtain ⟨hFhead, hFtail⟩ := hF.append (length_eq_of_lists (stmt_lists s hstmt)
      (stmt_lists s' hstmt') hs.declarations)
    rw [endsInReturn_cons] at hends
    exact stmt_inStep hs hstmt hstmt' hFhead (ended_inStep hss hends hrest hrest' hFtail)

/-! ## Bodies that return explicitly -/

/-- Jumps lead to a return. -/
inductive Returning (c : Chunk) : Nat → Prop
  | ret {a} (h : OpAt c a .ret) : Returning c a
  | jump {a t} (h : JumpAt c a .jump t) (hrest : Returning c t) : Returning c a

theorem returning_inStep {a b : Nat} (h : Returning c a) (h' : OpAt c' b .ret) :
    InStep G c c' K a b := by
  induction h with
  | ret h => exact .of_twin (.ret h h')
  | jump h _ ih => exact .of_skip h ih

/-- The code of statements behind which a function returns: they end in a return, or they leave a
value and a return is reached. -/
def TailAt (c : Chunk) (ns : List String) (a : Nat) (ss : List Stmt) : Prop :=
  (endsInReturn ss = true ∧ StmtsAt c ns a ss) ∨ (ValueAt c ns a ss ∧ Returning c (a + valueWidth ss))

/-- The code of statements that return explicitly. -/
def ExplicitAt (c : Chunk) (ns : List String) (a : Nat) (ss : List Stmt) : Prop :=
  (endsInReturn ss = true ∧ StmtsAt c ns a ss) ∨ ValueAt c ns a ss

section
variable {ns : List String} {a b : Nat}

theorem ExplicitAt.of_ret {c : Chunk} {value : Option Expr} {span : Text.Span}
    (h : ExplicitAt c ns a [.ret value span]) :
    OptionalAt c ns a value ∧ OpAt c (a + optionalWidth value) .ret := by
  rcases h with ⟨-, h⟩ | h
  · simp only [StmtsAt, StmtAt] at h
    exact h.1
  · have hstmt : StmtAt c ns a (.ret value span) := h.1
    simp only [StmtAt] at hstmt
    exact hstmt

theorem ExplicitAt.of_cons {c : Chunk} {s s' : Stmt} {ss : List Stmt}
    (h : ExplicitAt c ns a (s :: s' :: ss)) :
    StmtAt c ns a s ∧ ExplicitAt c ns (a + s.width) (s' :: ss) := by
  rcases h with ⟨hends, h⟩ | h
  · rw [endsInReturn_cons] at hends
    obtain ⟨hstmt, hrest⟩ := stmtsAt_cons.mp h
    exact ⟨hstmt, .inl ⟨hends, hrest⟩⟩
  · exact ⟨h.1, .inr h.2⟩

/-- `return null` behind a value of null that is returned. -/
theorem returnNull_inStep (span : Text.Span) (h : ConstAt c a .constant .null)
    (hreturn : Returning c (a + 2)) (h' : ExplicitAt c' ns b [returnNull span]) :
    InStep G c c' K a b := by
  obtain ⟨hnull, hret⟩ := h'.of_ret
  simp only [OptionalAt, ExprAt] at hnull
  exact null_inStep h hnull (.inr (returning_inStep hreturn hret))

theorem TailAt.explicitAt {c : Chunk} {ss : List Stmt} (h : TailAt c ns a ss) : ExplicitAt c ns a ss :=
  h.imp_right And.left

theorem TailAt.value {c : Chunk} {ss : List Stmt} (h : TailAt c ns a ss)
    (hends : endsInReturn ss = false) : ValueAt c ns a ss ∧ Returning c (a + valueWidth ss) :=
  h.resolve_left fun h => absurd (hends.symm.trans h.1) Bool.false_ne_true

theorem ExplicitAt.value {c : Chunk} {ss : List Stmt} (h : ExplicitAt c ns a ss)
    (hends : endsInReturn ss = false) : ValueAt c ns a ss :=
  h.resolve_left fun h => absurd (hends.symm.trans h.1) Bool.false_ne_true

theorem TailAt.of_cons {c : Chunk} {s s' : Stmt} {ss : List Stmt} (h : TailAt c ns a (s :: s' :: ss)) :
    StmtAt c ns a s ∧ TailAt c ns (a + s.width) (s' :: ss) := by
  rcases h with ⟨hends, h⟩ | ⟨h, hreturn⟩
  · rw [endsInReturn_cons] at hends
    obtain ⟨hstmt, hrest⟩ := stmtsAt_cons.mp h
    exact ⟨hstmt, .inl ⟨hends, hrest⟩⟩
  · rw [add_valueWidth_cons] at hreturn
    exact ⟨h.1, .inr ⟨h.2, hreturn⟩⟩

end

/-- Wherever the statements `ss` end a body in the one code, and `ss'` with explicit returns end one in
the other, the codes go in step. -/
def TailsInStep (G : Prototype → Prototype → Prop) (c c' : Chunk) (i j : Image)
    (K : Nat → Nat → Prop) (ss ss' : List Stmt) : Prop :=
  ∀ {span : Text.Span} {ns : List String} {a b : Nat}, TailAt c ns a ss →
    ExplicitAt c' ns b (explicitTail span ss') →
    SameFunctions G (valueDeclared i a ss) (valueDeclared j b (explicitTail span ss')) →
    StepsOn G c c' K a b

theorem noTail_inStep : TailsInStep G c c' i j K [] [] := by
  intro span ns a b h h' _
  obtain ⟨hnull, hreturn⟩ := h.value rfl
  simp only [explicitTail] at h'
  exact .inr (returnNull_inStep span hnull hreturn h')

theorem exprTail_inStep (e : Expr) : TailsInStep G c c' i j K [.expr e] [.expr e] := by
  intro span ns a b h h' _
  obtain ⟨hcode, hreturn⟩ := h.value rfl
  simp only [explicitTail] at h'
  obtain ⟨hcode', hret⟩ := h'.of_ret
  exact .inr (expr_inStep e hcode hcode' (.inr (returning_inStep hreturn hret)))

theorem retTail_inStep (value : Option Expr) (span : Text.Span) :
    TailsInStep G c c' i j K [.ret value span] [.ret value span] := by
  intro _ ns a b h h' _
  simp only [explicitTail] at h'
  obtain ⟨hvalue, hret⟩ := h.explicitAt.of_ret
  have hstmt' := h'.of_cons.1
  simp only [StmtAt] at hstmt'
  exact .inr (optional_inStep hvalue hstmt'.1 (.inr (.of_twin (.ret hret hstmt'.2))))

/-- A last statement that leaves no value. -/
theorem plainTail_inStep {s s' : Stmt} (hs : s.Explicit s') (hends : endsInReturn [s] = false)
    (htail : ∀ span, explicitTail span [s'] = [s', returnNull span])
    (hvalue : ∀ {ns a}, ValueAt c ns a [s] → StmtAt c ns a s ∧ ConstAt c (a + s.width) .constant .null)
    (hds : ∀ a, valueDeclared i a [s] = stmtDeclared i a s) (hwidth : valueWidth [s] = s.width + 2) :
    TailsInStep G c c' i j K [s] [s'] := by
  intro span ns a b h h' hF
  obtain ⟨hcode, hreturn⟩ := h.value hends
  obtain ⟨hstmt, hnull⟩ := hvalue hcode
  rw [htail] at h' hF
  obtain ⟨hstmt', hnull'⟩ := h'.of_cons
  rw [hds] at hF
  change SameFunctions G (stmtDeclared i a s) (stmtDeclared j b s' ++ []) at hF
  rw [List.append_nil] at hF
  rw [hwidth, ← Nat.add_assoc] at hreturn
  exact stmt_inStep hs hstmt hstmt' hF (.inr (returnNull_inStep span hnull hreturn hnull'))

theorem ifTail_inStep (cond : Expr) {t t' : List Stmt} (ht : TailsInStep G c c' i j K t t')
    (thenSpan span : Text.Span) :
    TailsInStep G c c' i j K [.ifElse cond ⟨t, thenSpan⟩ none span]
      [.ifElse cond ⟨t', thenSpan⟩ none span] := by
  intro bodySpan ns a b h h' hF
  obtain ⟨⟨hcond, ⟨htoElse, htoEnd⟩, hthen, hnull⟩, hreturn⟩ := h.value rfl
  simp only [explicitTail] at h' hF
  obtain ⟨hcond', ⟨htoElse', htoEnd'⟩, hthen', helse'⟩ := h'.value rfl
  dsimp only at htoElse htoEnd htoElse' htoEnd'
  rw [add_valueWidth_ifThen] at hreturn
  change SameFunctions G (valueDeclared i (a + cond.width + 2) t ++ [])
    (valueDeclared j (b + cond.width + 2) (explicitTail _ t') ++ []) at hF
  rw [List.append_nil, List.append_nil] at hF
  have hbranch := ht (.inr ⟨hthen, .jump htoEnd hreturn⟩) (.inr hthen') hF
  have hother : InStep G c c' K (a + cond.width + 2 + valueWidth t + 2)
      (b + cond.width + 2 + valueWidth (explicitTail _ t') + 2) :=
    returnNull_inStep bodySpan hnull hreturn (.inr helse')
  refine .inr (expr_inStep cond hcond hcond' (.inr ?_))
  exact .of_twin (.fork (by trivial) htoElse htoElse' (.inr hother) hbranch)

theorem ifElseTail_inStep (cond : Expr) {t t' e e' : List Stmt} (hs : StmtsExplicit t t')
    (ht : TailsInStep G c c' i j K t t') (he : TailsInStep G c c' i j K e e')
    (thenSpan elseSpan span : Text.Span) :
    TailsInStep G c c' i j K [.ifElse cond ⟨t, thenSpan⟩ (some ⟨e, elseSpan⟩) span]
      [.ifElse cond ⟨t', thenSpan⟩ (some ⟨e', elseSpan⟩) span] := by
  intro bodySpan ns a b h h' hF
  obtain ⟨⟨hcond, ⟨htoElse, htoEnd⟩, hthen, helse⟩, hreturn⟩ := h.value rfl
  simp only [explicitTail] at h' hF
  obtain ⟨hcond', ⟨htoElse', htoEnd'⟩, hthen', helse'⟩ := h'.value rfl
  dsimp only at htoElse htoEnd htoElse' htoEnd'
  rw [add_valueWidth_ifElse] at hreturn
  change SameFunctions G (valueDeclared i (a + cond.width + 2) t ++
      valueDeclared i (a + cond.width + 2 + valueWidth t + 2) e)
    (valueDeclared j (b + cond.width + 2) (explicitTail _ t') ++
      valueDeclared j (b + cond.width + 2 + valueWidth (explicitTail _ t') + 2)
        (explicitTail _ e')) at hF
  have hdecls : List.Forall₂ SameKind (stmtDeclarations t)
      (stmtDeclarations (explicitTail thenSpan t')) := by
    rw [declarations_explicitTail]
    exact hs.declarations
  obtain ⟨hFthen, hFelse⟩ := hF.append (length_eq_of_lists (value_lists t hthen)
    (value_lists (explicitTail _ t') hthen') hdecls)
  have hbranch := ht (.inr ⟨hthen, .jump htoEnd hreturn⟩) (.inr hthen') hFthen
  have hother := he (.inr ⟨helse, hreturn⟩) (.inr helse') hFelse
  refine .inr (expr_inStep cond hcond hcond' (.inr ?_))
  exact .of_twin (.fork (by trivial) htoElse htoElse' hother hbranch)

/-- A statement before others. -/
theorem consTail_inStep {s s' t t' : Stmt} {ss ss' : List Stmt} (hs : s.Explicit s')
    (hss : TailsInStep G c c' i j K (t :: ss) (t' :: ss')) :
    TailsInStep G c c' i j K (s :: t :: ss) (s' :: t' :: ss') := by
  intro span ns a b h h' hF
  obtain ⟨hstmt, hrest⟩ := h.of_cons
  rw [explicitTail_cons] at h' hF
  obtain ⟨u, rest, hu⟩ := List.exists_cons_of_ne_nil (explicitTail_ne_nil span (t' :: ss'))
  rw [hu] at h' hF
  obtain ⟨hstmt', hrest'⟩ := h'.of_cons
  change SameFunctions G (stmtDeclared i a s ++ valueDeclared i (a + s.width) (t :: ss))
    (stmtDeclared j b s' ++ valueDeclared j (b + s'.width) (u :: rest)) at hF
  obtain ⟨hFhead, hFtail⟩ := hF.append (length_eq_of_lists (stmt_lists s hstmt)
    (stmt_lists s' hstmt') hs.declarations)
  rw [← hu] at hrest' hFtail
  exact stmt_inStep hs hstmt hstmt' hFhead (hss hrest hrest' hFtail)

/-- A body that leaves a value and returns goes in step with one that returns explicitly. -/
theorem explicit_inStep : {ss ss' : List Stmt} → StmtsExplicit ss ss' →
    TailsInStep G c c' i j K ss ss'
  | [], [], .nil => noTail_inStep
  | [s], [s'], .cons hs .nil => by
    have hplain := hs
    cases hs with
    | expr e => exact exprTail_inStep e
    | ret value span => exact retTail_inStep value span
    | ifThen cond hthenBlock span =>
      obtain ⟨ht, thenSpan⟩ := hthenBlock
      exact ifTail_inStep cond (explicit_inStep ht) thenSpan span
    | ifElse cond hthenBlock helseBlock span =>
      obtain ⟨ht, thenSpan⟩ := hthenBlock
      obtain ⟨he, elseSpan⟩ := helseBlock
      exact ifElseTail_inStep cond ht (explicit_inStep ht) (explicit_inStep he) thenSpan elseSpan span
    | _ =>
      exact plainTail_inStep hplain rfl (fun _ => by simp only [explicitTail]) id (fun _ => rfl) rfl
  | s :: t :: ss, s' :: t' :: ss', .cons hs hss => consTail_inStep hs (explicit_inStep hss)

/-- The code of a function goes in step with that of the function that returns explicitly. -/
theorem function_inStep {m : Bool} {a b : Nat} {decl decl' : FunctionDecl}
    (hdecl : decl.Explicit decl') (h : FunctionAt c m a decl) (h' : FunctionAt c' m b decl')
    (hF : SameFunctions G (valueDeclared i (a + 2) decl.body.stmts)
      (valueDeclared j (b + 2) decl'.body.stmts)) :
    InStep G c c' (fun _ _ => False) (a + 2) (b + 2) := by
  suffices hresumes : StepsOn G c c' (fun _ _ => False) (a + 2) (b + 2) from
    hresumes.resolve_left id
  cases hdecl with
  | @kept name params body body' hbody =>
    simp only [FunctionAt, ← endsInReturn_eq hbody] at h h'
    obtain ⟨-, h⟩ := h
    obtain ⟨-, h'⟩ := h'
    by_cases hends : endsInReturn body = true
    · rw [if_pos hends] at h h'
      have hends' : endsInReturn body' = true := (endsInReturn_eq hbody).symm.trans hends
      rw [valueDeclared_of_endsInReturn _ hends, valueDeclared_of_endsInReturn _ hends'] at hF
      exact ended_inStep hbody hends h h' hF
    · rw [if_neg hends] at h h'
      exact value_inStep hbody h.1 h'.1 hF (.inr (.of_twin (.ret h.2 h'.2)))
  | @explicit name params body body' hbody bodySpan =>
    simp only [FunctionAt] at h h'
    obtain ⟨-, h⟩ := h
    obtain ⟨-, h'⟩ := h'
    have htail : TailAt c (bodyNames m (params.map (·.name))) (a + 2) body := by
      by_cases hends : endsInReturn body = true
      · rw [if_pos hends] at h
        exact .inl ⟨hends, h⟩
      · rw [if_neg hends] at h
        exact .inr ⟨h.1, .ret h.2⟩
    have htail' : ExplicitAt c' (bodyNames m (params.map (·.name))) (b + 2)
        (explicitTail bodySpan body') := by
      by_cases hends : endsInReturn (explicitTail bodySpan body') = true
      · rw [if_pos hends] at h'
        exact .inl ⟨hends, h'⟩
      · rw [if_neg hends] at h'
        exact .inr h'.1
    exact explicit_inStep hbody htail htail' hF

end

end DotScript.Machine
