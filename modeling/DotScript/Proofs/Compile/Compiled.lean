import DotScript.Proofs.Compile.Emission

/-!
# Compiled code has its layout

Every construct of the language is laid out as `Proofs.Compile.Layout` says, by recursion on the
tree. Main statement: `compile_layout`, for a whole program.
-/

namespace DotScript.Compile

open DotScript.Bytecode DotScript.Syntax

/-! ## Expressions -/

mutual

theorem expr_lays : (e : Expr) → Lays (expr e) e.width (fun ns a c => ExprAt c ns a e)
  | .var id => by
    simpa only [expr, Expr.width, ExprAt] using emitVariable_lays .getLocal .getGlobal id.name
  | .null _ => by
    simpa only [expr, emitConstant, internStr, Expr.width, ExprAt] using
      intern_lays .constant .null
  | .bool b _ => by
    simpa only [expr, emitConstant, internStr, Expr.width, ExprAt] using
      intern_lays .constant (.bool b)
  | .number n _ => by
    simpa only [expr, emitConstant, internStr, Expr.width, ExprAt] using
      intern_lays .constant (.number n)
  | .str s _ => by
    simpa only [expr, emitConstant, internStr, Expr.width, ExprAt] using
      intern_lays .constant (.str s)
  | .assign target value _ => by
    cases target with
    | var id =>
      simpa only [expr, Expr.width, ExprAt] using
        (expr_lays value).seq (emitVariable_lays .setLocal .setGlobal id.name)
    | _ =>
      simp only [expr]
      exact .fails _
  | .set object name value _ => by
    simpa only [expr, Expr.width, ExprAt, Nat.add_assoc] using
      (expr_lays object).seq ((expr_lays value).seq (emitName_lays .setProperty name.name))
  | .get object name _ => by
    simpa only [expr, Expr.width, ExprAt] using
      (expr_lays object).seq (emitName_lays .getProperty name.name)
  | .binary op left right _ => by
    simpa only [expr, Expr.width, ExprAt, Nat.add_assoc] using
      (expr_lays left).seq ((expr_lays right).seq (emit_lays (binaryOpcode op)))
  | .unary op operand _ => by
    simpa only [expr, Expr.width, ExprAt] using
      (expr_lays operand).seq (emit_lays (unaryOpcode op))
  | .call callee args _ => by
    simpa only [expr, Expr.width, ExprAt, Nat.add_assoc] using
      (expr_lays callee).seq ((exprs_lays args).seq (emitWith_lays .call args.length))
  | .list elems _ => by
    simpa only [expr, Expr.width, ExprAt] using
      (exprs_lays elems).seq (emitWith_lays .buildList elems.length)
  | .map entries _ => by
    simpa only [expr, Expr.width, ExprAt] using
      (pairs_lays entries).seq (emitWith_lays .buildMap entries.length)
  | .self span => by
    refine ⟨fun {b b'} hb h => ?_⟩
    simp only [expr] at h
    obtain ⟨_, _, ⟨⟩, h⟩ := bind_eq_ok.mp h
    rw [Scope.resolve_eq_slotOf] at h
    cases hslot : slotOf "this" b.scope.names with
    | some slot =>
      rw [hslot] at h
      obtain ⟨hscope, hemits⟩ := (emitWith_lays .getLocal slot).out hb h
      refine ⟨hscope, (hemits.mono fun c hc => ?_).cast (by simp only [Expr.width])⟩
      simpa only [ExprAt] using ⟨slot, hslot, hc⟩
    | none =>
      rw [hslot] at h
      cases h
  | .spawn operand _ => by
    cases operand with
    | call callee args _ =>
      simpa only [expr, Expr.width, ExprAt, Nat.add_assoc] using
        (expr_lays callee).seq ((exprs_lays args).seq (emitWith_lays .spawn args.length))
    | _ =>
      simp only [expr]
      exact .fails _

theorem exprs_lays : (es : List Expr) →
    Lays (exprs es) (widths es) (fun ns a c => ExprsAt c ns a es)
  | [] => by simpa only [exprs, widths, ExprsAt] using Lays.nothing
  | e :: es => by
    simpa only [exprs, widths, ExprsAt] using (expr_lays e).seq (exprs_lays es)

theorem pairs_lays : (es : List (Expr × Expr)) →
    Lays (pairs es) (pairWidths es) (fun ns a c => PairsAt c ns a es)
  | [] => by simpa only [pairs, pairWidths, PairsAt] using Lays.nothing
  | (key, value) :: es => by
    simpa only [pairs, pairWidths, PairsAt, Nat.add_assoc] using
      (expr_lays key).seq ((expr_lays value).seq (pairs_lays es))

end

/-! ## Control flow -/

section
variable {x y z : Build Unit} {n m k : Nat} {P Q R : List String → Nat → Chunk → Prop}

theorem conditional_lays (hx : Lays x n P) (hy : Lays y m Q) (hz : Lays z k R) :
    Lays (conditional x y z) (n + m + 4 + k) (fun ns a c =>
      P ns a c ∧ BranchAt c (a + n) m k ∧ Q ns (a + n + 2) c ∧ R ns (a + n + 2 + m + 2) c) := by
  refine ⟨fun {b b'} hb h => ?_⟩
  unfold conditional at h
  simp only [bind_eq_ok] at h
  obtain ⟨_, b1, h1, s1, b2, h2, _, b3, h3, s2, b4, h4, _, b5, h5, _, b6, h6, h7⟩ := h
  obtain ⟨hs1, e1⟩ := hx.out hb h1
  obtain ⟨hs2, hslot1, e2⟩ := emitJump_emits h2
  obtain ⟨hs3, e3⟩ := hy.out (by rwa [hs2, hs1]) h3
  obtain ⟨hs4, hslot2, e4⟩ := emitJump_emits h4
  have size1 := e1.size
  have size2 := e2.size
  have size3 := e3.size
  have size4 := e4.size
  obtain ⟨hs5, size5, e5⟩ := patchJump_emits h5 (((e1.trans e2).trans e3).trans e4)
    (by simp; omega)
  obtain ⟨hs6, e6⟩ := hz.out (by rwa [hs5, hs4, hs3, hs2, hs1]) h6
  have size6 := e6.size
  obtain ⟨hs7, size7, e7⟩ := patchJump_emits h7 (e5.trans e6) (by simp)
  refine ⟨by rw [hs7, hs6, hs5, hs4, hs3, hs2, hs1], (e7.mono ?_).cast (by omega)⟩
  rintro c ⟨⟨⟨⟨⟨⟨hP, hop1⟩, hQ⟩, hop2⟩, w1, hw1, htarget1, hbound1⟩, hR⟩, w2, hw2, htarget2, hbound2⟩
  rw [hs2, hs1, size2, size1] at hQ
  rw [hs5, hs4, hs3, hs2, hs1, size5, size4, size3, size2, size1] at hR
  rw [size1] at hop1
  rw [size3, size2, size1] at hop2
  rw [hslot1, size1] at hw1
  rw [hslot2, size3, size2, size1] at hw2
  refine ⟨hP, ⟨⟨hop1, w1, hw1, by omega, by omega⟩, ⟨hop2, w2, hw2, by omega, by omega⟩⟩, hQ, hR⟩

theorem loop_lays (hx : Lays x n P) (hy : Lays y m Q) :
    Lays (do
      let start ← here
      x
      let exit ← emitJump .jumpIfFalse
      y
      emitLoop start
      patchJump exit) (n + m + 4) (fun ns a c =>
      P ns a c ∧ LoopAt c a (a + n) m ∧ Q ns (a + n + 2) c) := by
  refine ⟨fun {b b'} hb h => ?_⟩
  simp only [bind_eq_ok] at h
  obtain ⟨_, _, ⟨⟩, _, b1, h1, s1, b2, h2, _, b3, h3, _, b4, h4, h5⟩ := h
  obtain ⟨hs1, e1⟩ := hx.out hb h1
  obtain ⟨hs2, hslot1, e2⟩ := emitJump_emits h2
  obtain ⟨hs3, e3⟩ := hy.out (by rwa [hs2, hs1]) h3
  have size1 := e1.size
  have size2 := e2.size
  have size3 := e3.size
  obtain ⟨hs4, e4⟩ := emitLoop_emits h4
  have size4 := e4.size
  obtain ⟨hs5, size5, e5⟩ := patchJump_emits h5 (((e1.trans e2).trans e3).trans e4) (by simp)
  refine ⟨by rw [hs5, hs4, hs3, hs2, hs1], (e5.mono ?_).cast (by omega)⟩
  rintro c ⟨⟨⟨⟨hP, hop1⟩, hQ⟩, hop2, w2, hw2, htarget2⟩, w1, hw1, htarget1, hbound1⟩
  rw [hs2, hs1, size2, size1] at hQ
  rw [size1] at hop1
  rw [size3, size2, size1] at hop2 hw2
  rw [hslot1, size1] at hw1
  exact ⟨hP, ⟨⟨hop1, w1, hw1, by omega, by omega⟩, ⟨hop2, w2, hw2, by omega, by omega⟩⟩, hQ⟩

/-- Leaving a block that declared nothing emits nothing. -/
theorem leaveScope_enter {sc : Scope} {b b' : Builder} (hsc : sc.Tidy) (hb : b.scope = sc.enter)
    (h : leaveScope b = .ok () b') : b' = { b with scope := sc } := by
  unfold leaveScope at h
  simp only [bind_eq_ok] at h
  obtain ⟨_, _, ⟨⟩, _, _, ⟨⟩, h⟩ := h
  rw [hb, hsc.leave_enter, show sc.enter.locals.length - sc.locals.length = 0 from Nat.sub_self _]
    at h
  cases h
  rfl

/-- Leaving a block that declared one local pops it. -/
theorem leaveScope_declare {sc : Scope} {name : String} {b b' : Builder} (hsc : sc.Tidy)
    (hb : b.scope = sc.enter.declare name) (h : leaveScope b = .ok () b') :
    b' = { b with chunk := b.chunk.writeOp .pop, scope := sc } := by
  unfold leaveScope at h
  simp only [bind_eq_ok] at h
  obtain ⟨_, _, ⟨⟩, _, _, ⟨⟩, h⟩ := h
  rw [hb, hsc.leave_declare, show (sc.enter.declare name).locals.length - sc.locals.length = 1 from
    Nat.add_sub_cancel_left ..] at h
  cases h
  rfl

theorem block_lays (hx : Lays x n P) :
    Lays (do
      enterScope
      x
      leaveScope) n P := by
  refine ⟨fun {b b'} hb h => ?_⟩
  simp only [bind_eq_ok] at h
  obtain ⟨_, _, ⟨⟩, _, b1, h1, h2⟩ := h
  obtain ⟨hs1, e1⟩ := hx.out hb.enter h1
  rw [leaveScope_enter hb hs1 h2]
  exact ⟨rfl, e1⟩

theorem try_lays (name : String) (hx : Lays x n P) (hy : Lays y m Q) :
    Lays (do
      let handlerJump ← emitJump .tryEnter
      x
      emit .tryExit
      let endJump ← emitJump .jump
      patchJump handlerJump
      enterScope
      declare name
      y
      leaveScope
      patchJump endJump) (n + m + 6) (fun ns a c =>
      TryAt c a n m ∧ P ns (a + 2) c ∧ Q (name :: ns) (a + 2 + n + 3) c) := by
  refine ⟨fun {b b'} hb h => ?_⟩
  simp only [bind_eq_ok] at h
  obtain ⟨s1, b1, h1, _, b2, h2, _, b3, h3, s2, b4, h4, _, b5, h5, _, _, ⟨⟩, _, _, ⟨⟩, _, b6, h6,
    _, b7, h7, h8⟩ := h
  obtain ⟨hs1, hslot1, e1⟩ := emitJump_emits h1
  obtain ⟨hs2, e2⟩ := hx.out (by rwa [hs1]) h2
  obtain ⟨hs3, e3⟩ := (emit_lays .tryExit).out (by rwa [hs2, hs1]) h3
  obtain ⟨hs4, hslot2, e4⟩ := emitJump_emits h4
  have size1 := e1.size
  have size2 := e2.size
  have size3 := e3.size
  have size4 := e4.size
  obtain ⟨hs5, size5, e5⟩ := patchJump_emits h5 (((e1.trans e2).trans e3).trans e4)
    (by simp; omega)
  have hscope5 : b5.scope = b.scope := by rw [hs5, hs4, hs3, hs2, hs1]
  have htidy5 : b5.scope.Tidy := by rwa [hscope5]
  obtain ⟨hs6, e6⟩ := hy.out (htidy5.enter.declare name) h6
  have size6 := e6.size
  -- The pop of the error variable is emitted after the scope of the handler is left.
  have hb7 := leaveScope_declare htidy5 hs6 h7
  have e7 : Emits [] 1 b6.chunk b7.chunk (fun c => OpAt c b6.chunk.code.size .pop) := by
    rw [hb7]
    exact emits_write _ _
  have size7 := e7.size
  obtain ⟨hs8, size8, e8⟩ := patchJump_emits h8 ((e5.trans e6).trans e7) (by simp)
  refine ⟨by rw [hs8, hb7, hscope5], (e8.mono ?_).cast (by omega)⟩
  rintro c ⟨⟨⟨⟨⟨⟨⟨hop1, hP⟩, hexit⟩, hop2⟩, w1, hw1, htarget1, hbound1⟩, hQ⟩, hpop⟩, w2, hw2,
    htarget2, hbound2⟩
  change Q (b5.scope.enter.declare name).names b5.chunk.code.size c at hQ
  change b6.chunk.code.size = b5.chunk.code.size + m at size6
  rw [Scope.names_declare, Scope.names_enter, hscope5, size5, size4, size3, size2, size1] at hQ
  rw [hs1, size1] at hP
  rw [size2, size1] at hexit
  rw [size3, size2, size1] at hop2
  rw [size6, size5, size4, size3, size2, size1] at hpop
  rw [hslot1] at hw1
  rw [hslot2, size3, size2, size1] at hw2
  exact ⟨⟨⟨hop1, w1, hw1, by omega, by omega⟩, hexit, ⟨hop2, w2, hw2, by omega, by omega⟩, hpop⟩,
    hP, hQ⟩

end

/-! ## Functions -/

/-- A function body is its statements if they end in a `return`, and otherwise returns the value
they leave. -/
theorem functionBody_eq (body : List Stmt) :
    functionBody body =
      if endsInReturn body then stmts body else (do valueOf body; emit .ret) := by
  induction body with
  | nil => rfl
  | cons s ss ih =>
    cases ss with
    | nil =>
      cases s with
      | expr e => rfl
      | ret value span => exact (bind_pure_unit (x := stmt (.ret value span))).symm
      | ifElse cond thenBlock elseBlock span =>
        obtain ⟨thenStmts, thenSpan⟩ := thenBlock
        match elseBlock with
        | none => rfl
        | some ⟨elseStmts, elseSpan⟩ => rfl
      | _ => exact (bind_assoc (stmt _) (fun _ => emitNull) (fun _ => emit .ret)).symm
    | cons s' ss' =>
      have hends : endsInReturn (s :: s' :: ss') = endsInReturn (s' :: ss') := by
        cases s <;> rfl
      have hbody : functionBody (s :: s' :: ss') = (do stmt s; functionBody (s' :: ss')) := rfl
      have hvalue : valueOf (s :: s' :: ss') = (do stmt s; valueOf (s' :: ss')) := rfl
      have hstmts : stmts (s :: s' :: ss') = (do stmt s; stmts (s' :: ss')) := rfl
      rw [hbody, ih, hends, hvalue, hstmts]
      split
      · rfl
      · rw [bind_assoc]

/-- The code of a function: a jump over its body, and a constant for its address. -/
theorem function_emits {isMethod : Bool} {name : Ident} {params : List Ident} {body : List Stmt}
    {blockSpan span : Text.Span} {n index : Nat} {P : List String → Nat → Chunk → Prop}
    (hbody : Lays (functionBody body) n P) {b b' : Builder}
    (h : function isMethod ⟨name, params, ⟨body, blockSpan⟩, span⟩ b = .ok index b') :
    b'.scope = b.scope ∧ Emits [] (2 + n) b.chunk b'.chunk (fun c =>
      (JumpAt c b.chunk.code.size .jump (b.chunk.code.size + 2 + n) ∧
        P (bodyNames isMethod (params.map (·.name))) (b.chunk.code.size + 2) c) ∧
      c.constants[index]? = some (.function ⟨name.name, params.length, b.chunk.code.size + 2⟩)) := by
  obtain ⟨s1, b1, h1, h⟩ := bind_eq_ok.mp h
  simp only [bind_eq_ok] at h
  obtain ⟨_, _, ⟨⟩, _, b2, h2, _, b3, h3, h4⟩ := h
  obtain ⟨hs1, hslot, e1⟩ := emitJump_emits h1
  cases h4
  unfold withScope at h2
  cases hrun : functionBody body
      { b1 with scope := .ofParams isMethod (params.map (·.name)) } with
  | error e b2' =>
    rw [hrun] at h2
    cases h2
  | ok _ b2' =>
    rw [hrun] at h2
    cases h2
    obtain ⟨-, e2⟩ := hbody.out (Scope.tidy_ofParams _ _) hrun
    have size1 := e1.size
    have size2 := e2.size
    obtain ⟨hs3, size3, e3⟩ := patchJump_emits h3 (e1.trans e2) (by simp)
    have e4 := e3.trans (emits_addConstant b3.chunk
      (.function ⟨name.name, params.length, b1.chunk.code.size⟩))
    refine ⟨hs3.trans hs1, e4.mono ?_⟩
    rintro c ⟨⟨⟨hop, hP⟩, w, hw, htarget, hbound⟩, hconst⟩
    rw [Scope.names_ofParams, size1] at hP
    rw [size1] at hconst
    rw [hslot] at hw
    change ((s1 : Nat) : Int) + 1 + w.toInt = (b2'.chunk.code.size : Nat) at htarget
    change b2'.chunk.code.size ≤ c.code.size at hbound
    change b2'.chunk.code.size = b1.chunk.code.size + n at size2
    exact ⟨⟨⟨hop, w, hw, by omega, by omega⟩, hP⟩, hconst⟩

/-- A function, the constant that pushes it, and an instruction that names it. -/
theorem define_emits {x : Build Nat} {op : Opcode} {name : String} {n : Nat} {k : Constant}
    {P : Chunk → Prop} {b b' : Builder}
    (hx : ∀ {index b1}, x b = .ok index b1 → b1.scope = b.scope ∧
      Emits [] n b.chunk b1.chunk (fun c => P c ∧ c.constants[index]? = some k))
    (hb : b.scope.Tidy)
    (h : (do
      let proto ← x
      let index ← internStr name
      emitConstant proto
      discard (emitWith op index)) b = .ok () b') :
    b'.scope = b.scope ∧ Emits [] (n + 4) b.chunk b'.chunk (fun c => P c ∧
      ConstAt c (b.chunk.code.size + n) .constant k ∧
      ConstAt c (b.chunk.code.size + n + 2) op (.str name)) := by
  simp only [bind_eq_ok] at h
  obtain ⟨proto, b1, h1, index, b2, h2, _, b3, h3, h4⟩ := h
  obtain ⟨hs1, e1⟩ := hx h1
  obtain ⟨hs2, e2⟩ := intern_emits h2
  obtain ⟨hs3, e3⟩ := (emitWith_lays .constant proto).out (by rwa [hs2, hs1]) h3
  obtain ⟨hs4, e4⟩ := (emitWith_lays op index).out (by rwa [hs3, hs2, hs1]) h4
  have size1 := e1.size
  have size2 := e2.size
  have size3 := e3.size
  refine ⟨by rw [hs4, hs3, hs2, hs1], (((e1.trans e2).trans e3).trans e4).mono ?_⟩
  rintro c ⟨⟨⟨⟨hP, hproto⟩, hindex⟩, hconst⟩, hop⟩
  rw [size2, size1] at hconst
  rw [size3, size2, size1] at hop
  exact ⟨hP, ⟨proto, hconst, hproto⟩, ⟨index, hop, hindex⟩⟩

/-! ## Statements -/

/-- A function declaration with its global. -/
theorem declaration_lays {decl : FunctionDecl}
    (hdecl : ∀ {index b b'}, function false decl b = .ok index b' → b'.scope = b.scope ∧
      Emits [] decl.width b.chunk b'.chunk (fun c => FunctionAt c false b.chunk.code.size decl ∧
        c.constants[index]? = some (.function (protoOf decl (b.chunk.code.size + 2))))) :
    Lays (stmt (.function decl)) (decl.width + 5) (fun ns a c => StmtAt c ns a (.function decl)) := by
  refine ⟨fun {b b'} hb h => ?_⟩
  have hsplit : stmt (.function decl) = (do
      (do
        let proto ← function false decl
        let name ← internStr decl.name.name
        emitConstant proto
        discard (emitWith .setGlobal name))
      emit .pop) := by
    simp only [bind_assoc]
    rfl
  rw [hsplit] at h
  obtain ⟨_, b1, h1, h2⟩ := bind_eq_ok.mp h
  obtain ⟨hs1, e1⟩ := define_emits hdecl hb h1
  obtain ⟨hs2, e2⟩ := (emit_lays .pop).out (by rwa [hs1]) h2
  refine ⟨hs2.trans hs1, (e1.trans e2).mono ?_⟩
  rintro c ⟨⟨hfunction, hconst, hname⟩, hpop⟩
  rw [e1.size] at hpop
  simp only [StmtAt]
  exact ⟨hfunction, hconst, hname, hpop⟩

/-- A method definition and those behind it. -/
theorem methods_lays {m : FunctionDecl} {ms : List FunctionDecl}
    (hm : ∀ {index b b'}, function true m b = .ok index b' → b'.scope = b.scope ∧
      Emits [] m.width b.chunk b'.chunk (fun c => FunctionAt c true b.chunk.code.size m ∧
        c.constants[index]? = some (.function (protoOf m (b.chunk.code.size + 2)))))
    (hms : Lays (methodDefs ms) (methodsWidth ms) (fun _ a c => MethodsAt c a ms)) :
    Lays (methodDefs (m :: ms)) (m.width + 4 + methodsWidth ms)
      (fun _ a c => MethodsAt c a (m :: ms)) := by
  refine ⟨fun {b b'} hb h => ?_⟩
  have hsplit : methodDefs (m :: ms) = (do
      (do
        let proto ← function true m
        let name ← internStr m.name.name
        emitConstant proto
        discard (emitWith .method name))
      methodDefs ms) := by
    simp only [bind_assoc]
    rfl
  rw [hsplit] at h
  obtain ⟨_, b1, h1, h2⟩ := bind_eq_ok.mp h
  obtain ⟨hs1, e1⟩ := define_emits hm hb h1
  obtain ⟨hs2, e2⟩ := hms.out (by rwa [hs1]) h2
  refine ⟨hs2.trans hs1, (e1.trans e2).mono ?_⟩
  rintro c ⟨⟨hfunction, hconst, hname⟩, hrest⟩
  rw [e1.size] at hrest
  simp only [MethodsAt]
  exact ⟨hfunction, hconst, hname, hrest⟩

mutual

theorem stmt_lays : (s : Stmt) → Lays (stmt s) s.width (fun ns a c => StmtAt c ns a s)
  | .expr e => by
    simp only [Stmt.width, StmtAt]
    exact (expr_lays e).seq (emit_lays .pop)
  | .print value _ => by
    simp only [Stmt.width, StmtAt]
    exact (expr_lays value).seq (emit_lays .print)
  | .function decl => by
    simp only [Stmt.width]
    exact declaration_lays fun h => function_lays false decl h
  | .classDecl name methods _ => by
    simp only [Stmt.width, StmtAt]
    refine ((emitName_lays .classDef name.name).seq
      ((methodDefs_lays methods).seq (emit_lays .pop))).cast (by omega)
  | .block body => by
    simp only [Stmt.width, StmtAt]
    exact blockStmts_lays body
  | .ifElse cond thenBlock elseBlock _ => by
    cases elseBlock with
    | some elseBlock =>
      simp only [Stmt.width, StmtAt]
      exact conditional_lays (expr_lays cond) (blockStmts_lays thenBlock) (blockStmts_lays elseBlock)
    | none =>
      simp only [Stmt.width, StmtAt]
      exact conditional_lays (expr_lays cond) (blockStmts_lays thenBlock) .nothing
  | .whileLoop cond body _ => by
    simp only [Stmt.width, StmtAt]
    exact loop_lays (expr_lays cond) (blockStmts_lays body)
  | .ret value _ => by
    simp only [Stmt.width, StmtAt]
    cases value with
    | some e => exact (expr_lays e).seq (emit_lays .ret)
    | none => exact emitNull_lays.seq (emit_lays .ret)
  | .importUnit path _ => by
    simp only [Stmt.width, StmtAt]
    exact (expr_lays path).seq (emit_lays .importUnit)
  | .tryCatch body errorVar handler _ => by
    simp only [Stmt.width, StmtAt]
    exact try_lays errorVar.name (blockStmts_lays body) (blockStmts_lays handler)

theorem stmts_lays : (ss : List Stmt) →
    Lays (stmts ss) (stmtsWidth ss) (fun ns a c => StmtsAt c ns a ss)
  | [] => by
    simp only [stmtsWidth, StmtsAt]
    exact .nothing
  | s :: ss => by
    simp only [stmtsWidth, StmtsAt]
    exact (stmt_lays s).seq (stmts_lays ss)

theorem blockStmts_lays : (b : Block) → Lays (block b) b.width (fun ns a c => BlockAt c ns a b)
  | ⟨ss, _⟩ => by
    simp only [Block.width, BlockAt]
    exact block_lays (stmts_lays ss)

theorem methodDefs_lays : (ms : List FunctionDecl) →
    Lays (methodDefs ms) (methodsWidth ms) (fun _ a c => MethodsAt c a ms)
  | [] => by
    simp only [methodsWidth, MethodsAt]
    exact .nothing
  | m :: ms => by
    simp only [methodsWidth]
    exact methods_lays (fun h => function_lays true m h) (methodDefs_lays ms)

theorem function_lays (isMethod : Bool) : (decl : FunctionDecl) → ∀ {index : Nat} {b b' : Builder},
    function isMethod decl b = .ok index b' → b'.scope = b.scope ∧
      Emits [] decl.width b.chunk b'.chunk (fun c => FunctionAt c isMethod b.chunk.code.size decl ∧
        c.constants[index]? = some (.function (protoOf decl (b.chunk.code.size + 2))))
  | ⟨name, params, ⟨body, _⟩, _⟩ => by
    intro h
    have hbody : Lays (functionBody body) (bodyWidth body) (fun ns a c => BodyAt c ns a body) := by
      rw [functionBody_eq]
      simp only [bodyWidth, BodyAt]
      split
      · exact stmts_lays body
      · exact (valueOf_lays body).seq (emit_lays .ret)
    simp only [FunctionDecl.width, FunctionAt]
    exact function_emits hbody h

theorem valueOf_lays : (ss : List Stmt) →
    Lays (valueOf ss) (valueWidth ss) (fun ns a c => ValueAt c ns a ss)
  | [] => by
    simp only [valueWidth, ValueAt]
    exact emitNull_lays
  | [s] => by
    have hs := stmt_lays s
    cases s with
    | expr e =>
      simp only [valueWidth, ValueAt]
      exact expr_lays e
    | ifElse cond thenBlock elseBlock span =>
      match thenBlock, elseBlock with
      | ⟨thenStmts, _⟩, some ⟨elseStmts, _⟩ =>
        simp only [valueWidth, ValueAt]
        exact conditional_lays (expr_lays cond) (valueOf_lays thenStmts) (valueOf_lays elseStmts)
      | ⟨thenStmts, _⟩, none =>
        simp only [valueWidth, ValueAt]
        exact conditional_lays (expr_lays cond) (valueOf_lays thenStmts) emitNull_lays
    | _ =>
      simp only [valueWidth, ValueAt]
      exact hs.seq emitNull_lays
  | s :: s' :: ss => by
    simp only [valueWidth, ValueAt]
    exact (stmt_lays s).seq (valueOf_lays (s' :: ss))

end

theorem compile_layout {p : Program} {name : String} {c : Chunk} (h : compile p name = .ok c) :
    ProgramAt c p := by
  unfold compile at h
  cases hrun : program p (.new name) with
  | error e b =>
    rw [hrun] at h
    cases h
  | ok _ b =>
    rw [hrun] at h
    cases h
    have hlays := (stmts_lays p.stmts).seq (emitNull_lays.seq (emit_lays .ret))
    obtain ⟨-, e⟩ := hlays.out Scope.tidy_empty hrun
    have hsize : b.chunk.code.size = stmtsWidth p.stmts + 3 := by
      rw [e.size]
      exact Nat.zero_add _
    have hself : Agrees b.chunk b.chunk 0 [] :=
      ⟨fun _ _ _ _ => rfl, fun _ _ hk => hk, Nat.le_refl _⟩
    obtain ⟨hstmts, hnull, hret⟩ := e.holds b.chunk hself
    have hstart : (Builder.new name).chunk.code.size = 0 := rfl
    rw [hstart, Nat.zero_add] at hnull hret
    exact ⟨hstmts, hnull, hret, hsize⟩

end DotScript.Compile
