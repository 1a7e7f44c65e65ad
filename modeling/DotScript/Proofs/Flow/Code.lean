import DotScript.Proofs.Flow.Site

/-!
# Compiled code flows

Only points are reached from the beginning of each piece of a program, provided that this holds of
the address behind it. For an expression that address has one more temporary, for a statement none;
a loop comes back to its beginning. What jumps is met first, for any code in the branches, the body
and the handler: `branch_flow`, `loop_flow`, `guarded_flow`. Main statements: `program_flow`, and
`function_flow` for the code of functions.
-/

namespace DotScript.Machine

open DotScript.Bytecode DotScript.Syntax
open DotScript.Compile hiding expr exprs pairs stmt stmts block program

theorem Site.push_pushes (σ : Site) (n : Nat) : (σ.push .any).pushes n = σ.pushes (n + 1) := by
  simp only [Site.push, Site.pushes, List.replicate_succ', List.append_assoc, List.cons_append,
    List.nil_append]

section
variable {R : Realm} {p : Program} {i : Image} {K : Nat → Site → Prop}

/-! ## Expressions -/

section
variable {ns : List String} {a lo hi : Nat} {σ : Site}

theorem Flow.of_move (hg : Guarded p (Fine R p i K) lo hi σ) (hlo : lo ≤ a) (hhi : a ≤ hi)
    (h : Move R p i (Fine R p i K) a σ) : Flow R p i K a σ :=
  .of_point ⟨hg.sub hlo hhi, h⟩

theorem readVariable_flow {name : String}
    (h : VariableAt i.chunk ns a .getLocal .getGlobal name) (hns : ns.length = σ.locals)
    (hg : Guarded p (Fine R p i K) a hi σ) (hhi : a ≤ hi)
    (hend : Fine R p i K (a + 2) (σ.push .any)) : Flow R p i K a σ := by
  simp only [VariableAt] at h
  cases hslot : slotOf name ns with
  | some slot =>
    simp only [hslot] at h
    exact .of_move hg (Nat.le_refl _) hhi (.getLocal h (hns ▸ slotOf_lt hslot) hend)
  | none =>
    simp only [hslot] at h
    exact .of_move hg (Nat.le_refl _) hhi (.getGlobal h hend)

theorem writeVariable_flow {name : String}
    (h : VariableAt i.chunk ns a .setLocal .setGlobal name) (hns : ns.length = σ.locals)
    (hg : Guarded p (Fine R p i K) lo hi σ) (hlo : lo ≤ a) (hhi : a ≤ hi)
    (hend : Fine R p i K (a + 2) (σ.push .any)) : Flow R p i K a (σ.push .any) := by
  simp only [VariableAt] at h
  cases hslot : slotOf name ns with
  | some slot =>
    simp only [hslot] at h
    exact .of_move (hg.push .any) hlo hhi (.setLocal h (hns ▸ slotOf_lt hslot) hend)
  | none =>
    simp only [hslot] at h
    exact .of_move (hg.push .any) hlo hhi (.setGlobal h hend)

theorem constant_flow {k : Constant} (h : ConstAt i.chunk a .constant k)
    (hk : (constantValue i k).In R) (hg : Guarded p (Fine R p i K) lo hi σ) (hlo : lo ≤ a)
    (hhi : a ≤ hi) (hend : Fine R p i K (a + 2) (σ.push .any)) : Flow R p i K a σ :=
  .of_move hg hlo hhi (.constant h hk hend)

end

mutual

theorem expr_flow : (e : Expr) → {ns : List String} → {a : Nat} → {σ : Site} →
    ExprAt i.chunk ns a e → ns.length = σ.locals →
    Guarded p (Fine R p i K) a (a + e.width) σ → Fine R p i K (a + e.width) (σ.push .any) →
    Flow R p i K a σ
  | .var id, ns, a, σ, h, hns, hg, hend => by
    simp only [ExprAt] at h
    exact readVariable_flow h hns hg (Nat.le_add_right ..) hend
  | .null _, ns, a, σ, h, hns, hg, hend => by
    simp only [ExprAt] at h
    exact constant_flow h Value.in_null hg (Nat.le_refl _) (Nat.le_add_right ..) hend
  | .bool b _, ns, a, σ, h, hns, hg, hend => by
    simp only [ExprAt] at h
    exact constant_flow h (Value.in_bool b) hg (Nat.le_refl _) (Nat.le_add_right ..) hend
  | .number n _, ns, a, σ, h, hns, hg, hend => by
    simp only [ExprAt] at h
    exact constant_flow h (Value.in_number n) hg (Nat.le_refl _) (Nat.le_add_right ..) hend
  | .str s _, ns, a, σ, h, hns, hg, hend => by
    simp only [ExprAt] at h
    exact constant_flow h (Value.in_str s) hg (Nat.le_refl _) (Nat.le_add_right ..) hend
  | .assign (.var id) value _, ns, a, σ, h, hns, hg, hend => by
    simp only [ExprAt] at h
    simp only [Expr.width, ← Nat.add_assoc] at hg hend
    refine expr_flow value h.1 hns (hg.sub (Nat.le_refl _) (by omega)) (.inr ?_)
    exact writeVariable_flow h.2 hns hg (by omega) (by omega) hend
  | .set object name value _, ns, a, σ, h, hns, hg, hend => by
    simp only [ExprAt] at h
    simp only [Expr.width, ← Nat.add_assoc] at hg hend
    refine expr_flow object h.1 hns (hg.sub (Nat.le_refl _) (by omega)) (.inr ?_)
    refine expr_flow value h.2.1 hns ((hg.sub (by omega) (by omega)).push .any) (.inr ?_)
    exact .of_move ((hg.push .any).push .any) (by omega) (by omega) (.setProperty h.2.2 hend)
  | .get object name _, ns, a, σ, h, hns, hg, hend => by
    simp only [ExprAt] at h
    simp only [Expr.width, ← Nat.add_assoc] at hg hend
    refine expr_flow object h.1 hns (hg.sub (Nat.le_refl _) (by omega)) (.inr ?_)
    exact .of_move (hg.push .any) (by omega) (by omega) (.getProperty h.2 hend)
  | .binary op left right _, ns, a, σ, h, hns, hg, hend => by
    simp only [ExprAt] at h
    simp only [Expr.width, ← Nat.add_assoc] at hg hend
    refine expr_flow left h.1 hns (hg.sub (Nat.le_refl _) (by omega)) (.inr ?_)
    refine expr_flow right h.2.1 hns ((hg.sub (by omega) (by omega)).push .any) (.inr ?_)
    exact .of_move ((hg.push .any).push .any) (by omega) (by omega) (.binary h.2.2 hend)
  | .unary op operand _, ns, a, σ, h, hns, hg, hend => by
    simp only [ExprAt] at h
    simp only [Expr.width, ← Nat.add_assoc] at hg hend
    refine expr_flow operand h.1 hns (hg.sub (Nat.le_refl _) (by omega)) (.inr ?_)
    exact .of_move (hg.push .any) (by omega) (by omega) (.unary h.2 hend)
  | .call callee args _, ns, a, σ, h, hns, hg, hend => by
    simp only [ExprAt] at h
    simp only [Expr.width, ← Nat.add_assoc] at hg hend
    refine expr_flow callee h.1 hns (hg.sub (Nat.le_refl _) (by omega)) (.inr ?_)
    refine exprs_flow args h.2.1 hns ((hg.sub (by omega) (by omega)).push .any) ?_
    exact .of_move ((hg.push .any).pushes _) (by omega) (by omega) (.call h.2.2 hend)
  | .list elems _, ns, a, σ, h, hns, hg, hend => by
    simp only [ExprAt] at h
    simp only [Expr.width, ← Nat.add_assoc] at hg hend
    refine exprs_flow elems h.1 hns (hg.sub (Nat.le_refl _) (by omega)) ?_
    exact .of_move (hg.pushes _) (by omega) (by omega) (.buildList h.2 hend)
  | .map entries _, ns, a, σ, h, hns, hg, hend => by
    simp only [ExprAt] at h
    simp only [Expr.width, ← Nat.add_assoc] at hg hend
    refine pairs_flow entries h.1 hns (hg.sub (Nat.le_refl _) (by omega)) ?_
    exact .of_move (hg.pushes _) (by omega) (by omega) (.buildMap h.2 hend)
  | .self _, ns, a, σ, h, hns, hg, hend => by
    simp only [ExprAt] at h
    obtain ⟨slot, hslot, h⟩ := h
    exact .of_move hg (Nat.le_refl _) (Nat.le_add_right ..)
      (.getLocal h (hns ▸ slotOf_lt hslot) hend)
  | .spawn (.call callee args _) _, ns, a, σ, h, hns, hg, hend => by
    simp only [ExprAt] at h
    simp only [Expr.width, ← Nat.add_assoc] at hg hend
    refine expr_flow callee h.1 hns (hg.sub (Nat.le_refl _) (by omega)) (.inr ?_)
    refine exprs_flow args h.2.1 hns ((hg.sub (by omega) (by omega)).push .any) ?_
    exact .of_move ((hg.push .any).pushes _) (by omega) (by omega) (.spawn h.2.2 hend)

theorem exprs_flow : (es : List Expr) → {ns : List String} → {a : Nat} → {σ : Site} →
    ExprsAt i.chunk ns a es → ns.length = σ.locals →
    Guarded p (Fine R p i K) a (a + widths es) σ → Flow R p i K (a + widths es) (σ.pushes es.length) →
    Flow R p i K a σ
  | [], ns, a, σ, h, hns, hg, hend => hend
  | e :: es, ns, a, σ, h, hns, hg, hend => by
    simp only [ExprsAt] at h
    simp only [widths, ← Nat.add_assoc, List.length_cons, ← Site.push_pushes] at hg hend
    refine expr_flow e h.1 hns (hg.sub (Nat.le_refl _) (by omega)) (.inr ?_)
    exact exprs_flow es h.2 hns ((hg.sub (by omega) (by omega)).push .any) hend

theorem pairs_flow : (es : List (Expr × Expr)) → {ns : List String} → {a : Nat} → {σ : Site} →
    PairsAt i.chunk ns a es → ns.length = σ.locals →
    Guarded p (Fine R p i K) a (a + pairWidths es) σ →
    Flow R p i K (a + pairWidths es) (σ.pushes (es.length * 2)) → Flow R p i K a σ
  | [], ns, a, σ, h, hns, hg, hend => by
    rw [List.length_nil, Nat.zero_mul] at hend
    exact hend
  | (key, value) :: es, ns, a, σ, h, hns, hg, hend => by
    simp only [PairsAt] at h
    simp only [pairWidths, ← Nat.add_assoc] at hg hend
    rw [List.length_cons, Nat.add_mul, Nat.one_mul, ← Site.push_pushes, ← Site.push_pushes] at hend
    refine expr_flow key h.1 hns (hg.sub (Nat.le_refl _) (by omega)) (.inr ?_)
    refine expr_flow value h.2.1 hns ((hg.sub (by omega) (by omega)).push .any) (.inr ?_)
    exact pairs_flow es h.2.2 hns (((hg.sub (by omega) (by omega)).push .any).push .any) hend

end

theorem optional_flow {value : Option Expr} {ns : List String} {a : Nat} {σ : Site}
    (h : OptionalAt i.chunk ns a value) (hns : ns.length = σ.locals)
    (hg : Guarded p (Fine R p i K) a (a + optionalWidth value) σ)
    (hend : Fine R p i K (a + optionalWidth value) (σ.push .any)) : Flow R p i K a σ := by
  cases value with
  | some e => exact expr_flow e h hns hg hend
  | none => exact constant_flow h Value.in_null hg (Nat.le_refl _) (Nat.le_add_right ..) hend

/-! ## Statements -/

theorem Guarded.bind {b : Bool} {n lo hi : Nat} {ts : List Try}
    (h : Guarded p K lo hi ⟨b, n, [], ts⟩) : Guarded p K lo hi ⟨b, n + 1, [], ts⟩ := by
  intro τ outer hτ
  obtain ⟨hlo, hhi, hlocals, htarget, hocc⟩ := h τ outer hτ
  exact ⟨hlo, hhi, Nat.le_succ_of_le hlocals, htarget, hocc⟩

theorem Guarded.none {b : Bool} {n lo hi : Nat} {ks : List Kind} :
    Guarded p K lo hi ⟨b, n, ks, []⟩ := nofun

/-- Behind a condition, one of two branches; each leaves the temporaries `left`. -/
theorem branch_flow {a thenWidth elseWidth : Nat} {σ : Site} (left : List Kind)
    (h : BranchAt i.chunk a thenWidth elseWidth)
    (hg : Guarded p (Fine R p i K) a (a + 2 + thenWidth + 2 + elseWidth) σ)
    (hthen : Fine R p i K (a + 2 + thenWidth) { σ with temps := left ++ σ.temps } →
      Fine R p i K (a + 2) σ)
    (helse : Fine R p i K (a + 2 + thenWidth + 2) σ)
    (hend : Fine R p i K (a + 2 + thenWidth + 2 + elseWidth) { σ with temps := left ++ σ.temps }) :
    Flow R p i K a (σ.push .any) := by
  have hleft : Guarded p (Fine R p i K) a (a + 2 + thenWidth + 2 + elseWidth)
      { σ with temps := left ++ σ.temps } := hg
  have hjump : Flow R p i K (a + 2 + thenWidth) { σ with temps := left ++ σ.temps } :=
    .of_move hleft (by omega) (by omega) (.jump h.toEnd hend (.inr (by omega)))
  exact .of_move (hg.push .any) (Nat.le_refl _) (by omega)
    (.jumpIfFalse h.toElse (hthen (.inr hjump)) helse (by omega))

/-- A loop comes back to its beginning, which is assumed for its condition and its body. -/
theorem loop_flow {a b bodyWidth : Nat} {σ : Site} (h : LoopAt i.chunk a b bodyWidth)
    (hloops : Loops p) (hle : a ≤ b)
    (hg : Guarded p (Fine R p i K) a (b + 2 + bodyWidth + 2) σ)
    (hcond : ∀ {K'}, Guarded p (Fine R p i K') a b σ → Fine R p i K' b (σ.push .any) →
      Flow R p i K' a σ)
    (hbody : ∀ {K'}, Guarded p (Fine R p i K') (b + 2) (b + 2 + bodyWidth) σ →
      Fine R p i K' (b + 2 + bodyWidth) σ → Fine R p i K' (b + 2) σ)
    (hend : Fine R p i K (b + 2 + bodyWidth + 2) σ) : Fine R p i K a σ := by
  let K' : Nat → Site → Prop := fun x ρ => K x ρ ∨ (x = a ∧ ρ = σ)
  have hK : ∀ x ρ, Fine R p i K x ρ → Fine R p i K' x ρ := fun x ρ h => h.mono fun _ _ => .inl
  have hg' : Guarded p (Fine R p i K') a (b + 2 + bodyWidth + 2) σ := hg.mono hK
  have hback : Flow R p i K' (b + 2 + bodyWidth) σ :=
    .of_move hg' (by omega) (by omega) (.jump h.toStart (.inl (.inr ⟨rfl, rfl⟩)) (.inl hloops))
  have hround := hbody (hg'.sub (by omega) (by omega)) (.inr hback)
  refine .inr (.of_cycle (hcond (hg'.sub (Nat.le_refl _) (by omega)) (.inr ?_)))
  exact .of_move (hg'.push .any) hle (by omega)
    (.jumpIfFalse h.toEnd hround (hK _ _ hend) (by omega))

/-- A body with a handler, which finds the message as one more local. -/
theorem guarded_flow {b : Bool} {k : Nat} {ts : List Try} (τ : Try)
    (h : TryAt i.chunk τ.enter τ.body.width τ.handler.width)
    (hocc : Occurs p ⟨b, k, τ.names, τ.enter⟩ (.stmt τ.stmt))
    (hg : Guarded p (Fine R p i K) τ.enter
      (τ.enter + 2 + τ.body.width + 3 + τ.handler.width + 1) ⟨b, τ.names.length, [], ts⟩)
    (hbody : Guarded p (Fine R p i K) (τ.enter + 2) (τ.enter + 2 + τ.body.width)
        ⟨b, τ.names.length, [], τ :: ts⟩ →
      Fine R p i K (τ.enter + 2 + τ.body.width) ⟨b, τ.names.length, [], τ :: ts⟩ →
      Fine R p i K (τ.enter + 2) ⟨b, τ.names.length, [], τ :: ts⟩)
    (hhandler : Fine R p i K (τ.target + τ.handler.width) ⟨b, τ.names.length + 1, [], ts⟩ →
      Fine R p i K τ.target ⟨b, τ.names.length + 1, [], ts⟩)
    (hend : Fine R p i K (τ.enter + 2 + τ.body.width + 3 + τ.handler.width + 1)
      ⟨b, τ.names.length, [], ts⟩) :
    Fine R p i K τ.enter ⟨b, τ.names.length, [], ts⟩ := by
  have hunbind : Flow R p i K (τ.target + τ.handler.width) ⟨b, τ.names.length + 1, [], ts⟩ :=
    .of_move hg.bind (by simp only [Try.target]; omega) (by simp only [Try.target]; omega)
      (.unbind h.unbind hend)
  have hguarded : Guarded p (Fine R p i K) (τ.enter + 2) (τ.enter + 2 + τ.body.width)
      ⟨b, τ.names.length, [], τ :: ts⟩ := by
    intro τ' outer hτ
    cases hτ
    exact ⟨Nat.le_refl _, Nat.le_refl _, Nat.le_refl _, hhandler (.inr hunbind), k, hocc⟩
  have hjump : Flow R p i K (τ.enter + 2 + τ.body.width + 1) ⟨b, τ.names.length, [], ts⟩ :=
    .of_move hg (by omega) (by omega) (.jump h.toEnd hend (.inr (by omega)))
  have hexit : Flow R p i K (τ.enter + 2 + τ.body.width) ⟨b, τ.names.length, [], τ :: ts⟩ :=
    .of_move hguarded (by omega) (Nat.le_refl _) (.tryExit h.exit (.inr hjump))
  exact .inr (.of_move hg (Nat.le_refl _) (by omega)
    (.tryEnter h.enter rfl (hbody hguarded (.inr hexit))))

/-- The functions of a program belong to the realm. -/
theorem function_in (hR : R.OfCode) (hc : CompiledFrom R.program p i.chunk) {x : Position}
    {decl : FunctionDecl} (h : Occurs p x (.function false decl)) :
    (constantValue i (.function (protoOf decl (x.address + 2)))).In R := by
  exact (Value.in_function _).mpr ((hR.function _).mpr ⟨p, x, decl, hc, h, rfl, rfl, rfl⟩)

theorem functionAt_jump {c : Chunk} {m : Bool} {a : Nat} : {decl : FunctionDecl} →
    FunctionAt c m a decl → JumpAt c a .jump (a + decl.width)
  | ⟨_, _, ⟨body, _⟩, _⟩, h => by
    simp only [FunctionAt, bodyWidth, Nat.add_assoc] at h
    simp only [FunctionDecl.width]
    exact h.1

/-- The jump over the body of a function leads forth. -/
theorem lt_add_width (decl : FunctionDecl) (a : Nat) : a < a + decl.width := by
  obtain ⟨name, params, ⟨body, blockSpan⟩, span⟩ := decl
  simp only [FunctionDecl.width]
  omega

/-- The methods of a class are added one after the other. -/
theorem methods_flow (hR : R.OfCode) (hc : CompiledFrom R.program p i.chunk) :
    (ms : List FunctionDecl) → {b : Bool} → {k n a : Nat} → {ns : List String} → {ts : List Try} →
    Occurs p ⟨b, k, ns, a⟩ (.methods ms) → MethodsAt i.chunk a ms →
    Guarded p (Fine R p i K) a (a + methodsWidth ms) ⟨b, n, [.cls], ts⟩ →
    Fine R p i K (a + methodsWidth ms) ⟨b, n, [.cls], ts⟩ → Fine R p i K a ⟨b, n, [.cls], ts⟩
  | [], b, k, n, a, ns, ts, hocc, h, hg, hend => hend
  | m :: ms, b, k, n, a, ns, ts, hocc, h, hg, hend => by
    simp only [MethodsAt] at h
    simp only [methodsWidth, ← Nat.add_assoc] at hg hend
    obtain ⟨hbody, hconstant, hmethod, hrest⟩ := h
    have hmore := methods_flow hR hc ms (.moreMethods hocc) hrest
      (hg.sub (by omega) (Nat.le_refl _)) hend
    have hadd : Flow R p i K (a + m.width + 2) ⟨b, n, [.method, .cls], ts⟩ :=
      .of_move (hg.push .method) (by omega) (by omega)
        (.method (σ := ⟨b, n, [], ts⟩) hmethod hmore)
    have hcompiled : IsCompiled R.program true (Function.mk m.name.name m.params.length (a + 2) i) :=
      ⟨p, _, m, hc, .method hocc, rfl, rfl, rfl⟩
    have hpush : Flow R p i K (a + m.width) ⟨b, n, [.cls], ts⟩ :=
      .of_move hg (by omega) (by omega)
        (.methodConstant hconstant ((hR.method _).mpr hcompiled) (.inr hadd))
    exact .inr (.of_move hg (Nat.le_refl _) (by omega) (.jump (functionAt_jump hbody) (.inr hpush)
      (.inr (lt_add_width m a))))

/-- Nothing behind a return is reached. -/
theorem ret_flow (hp : ProgramAt i.chunk p) {b : Bool} {k a : Nat} {ns : List String}
    {ts : List Try} {value : Option Expr} {span : Text.Span}
    (hocc : Occurs p ⟨b, k, ns, a⟩ (.stmt (.ret value span)))
    (hg : Guarded p (Fine R p i K) a (a + optionalWidth value) ⟨b, ns.length, [], ts⟩) :
    Flow R p i K a ⟨b, ns.length, [], ts⟩ := by
  have h := hocc.layout hp
  simp only [PieceAt, StmtAt] at h
  have hends : b = true → Ends p (a + optionalWidth value) ns.length := by
    rintro rfl
    have hnames := hocc.names_length rfl
    simp only at hnames
    subst hnames
    exact .ret hocc rfl
  have hwithin := hocc.within
  simp only [Piece.width, Stmt.width] at hwithin
  refine optional_flow h.1 rfl hg (.inr ?_)
  exact .of_move (hg.push .any) (Nat.le_add_right ..) (Nat.le_refl _)
    (.ret h.2 hends fun _ => by omega)

mutual

theorem stmt_flow (hR : R.OfCode) (hc : CompiledFrom R.program p i.chunk)
    (hp : ProgramAt i.chunk p) : (s : Stmt) → {K : Nat → Site → Prop} → {b : Bool} →
    {k a : Nat} → {ns : List String} → {ts : List Try} → Occurs p ⟨b, k, ns, a⟩ (.stmt s) →
    Guarded p (Fine R p i K) a (a + s.width) ⟨b, ns.length, [], ts⟩ →
    Fine R p i K (a + s.width) ⟨b, ns.length, [], ts⟩ → Fine R p i K a ⟨b, ns.length, [], ts⟩
  | .expr e, K, b, k, a, ns, ts, hocc, hg, hend => by
    have h := hocc.layout hp
    simp only [PieceAt, StmtAt] at h
    simp only [Stmt.width, ← Nat.add_assoc] at hg hend
    refine .inr (expr_flow e h.1 rfl (hg.sub (Nat.le_refl _) (by omega)) (.inr ?_))
    exact .of_move (hg.push .any) (by omega) (by omega) (.pop h.2 hend)
  | .print value _, K, b, k, a, ns, ts, hocc, hg, hend => by
    have h := hocc.layout hp
    simp only [PieceAt, StmtAt] at h
    simp only [Stmt.width, ← Nat.add_assoc] at hg hend
    refine .inr (expr_flow value h.1 rfl (hg.sub (Nat.le_refl _) (by omega)) (.inr ?_))
    exact .of_move (hg.push .any) (by omega) (by omega) (.print h.2 hend)
  | .function decl, K, b, k, a, ns, ts, hocc, hg, hend => by
    have h := hocc.layout hp
    simp only [PieceAt, StmtAt] at h
    simp only [Stmt.width, ← Nat.add_assoc] at hg hend
    obtain ⟨hbody, hconstant, hset, hpop⟩ := h
    have hin := function_in hR hc (.function hocc)
    refine .inr (.of_move hg (Nat.le_refl _) (by omega) (.jump (functionAt_jump hbody) (.inr ?_)
      (.inr (lt_add_width decl a))))
    refine constant_flow hconstant hin hg (by omega) (by omega) (.inr ?_)
    refine .of_move (hg.push .any) (by omega) (by omega) (.setGlobal hset (.inr ?_))
    exact .of_move (hg.push .any) (by omega) (by omega) (.pop hpop hend)
  | .classDecl name ms _, K, b, k, a, ns, ts, hocc, hg, hend => by
    have h := hocc.layout hp
    simp only [PieceAt, StmtAt] at h
    rw [Stmt.add_width_classDecl] at hg hend
    obtain ⟨hclass, hmethods, hpop⟩ := h
    refine .inr (.of_move hg (Nat.le_refl _) (by omega) (.classDef hclass
      (hR.objects hc.program hocc) ?_))
    refine methods_flow hR hc ms (.methods hocc) hmethods
      ((hg.push .cls).sub (by omega) (by omega)) (.inr ?_)
    exact .of_move (hg.push .cls) (by omega) (by omega) (.pop hpop hend)
  | .block body, K, b, k, a, ns, ts, hocc, hg, hend => by
    simp only [Stmt.width] at hg hend
    exact block_flow hR hc hp body (.block hocc) hg hend
  | .ifElse cond thenBlock none _, K, b, k, a, ns, ts, hocc, hg, hend => by
    have h := hocc.layout hp
    simp only [PieceAt, StmtAt] at h
    rw [Stmt.add_width_ifThen] at hg hend
    refine .inr (expr_flow cond h.1 rfl (hg.sub (Nat.le_refl _) (by omega)) (.inr ?_))
    exact branch_flow [] h.2.1 (hg.sub (by omega) (Nat.le_refl _))
      (block_flow hR hc hp thenBlock (.thenBranch hocc) (hg.sub (by omega) (by omega))) hend hend
  | .ifElse cond thenBlock (some elseBlock) _, K, b, k, a, ns, ts, hocc, hg, hend => by
    have h := hocc.layout hp
    simp only [PieceAt, StmtAt] at h
    rw [Stmt.add_width_ifElse] at hg hend
    have helse := block_flow hR hc hp elseBlock (.elseBranch hocc)
      (hg.sub (by omega) (Nat.le_refl _)) hend
    refine .inr (expr_flow cond h.1 rfl (hg.sub (Nat.le_refl _) (by omega)) (.inr ?_))
    exact branch_flow [] h.2.1 (hg.sub (by omega) (Nat.le_refl _))
      (block_flow hR hc hp thenBlock (.thenBranch hocc) (hg.sub (by omega) (by omega))) helse hend
  | .whileLoop cond body _, K, b, k, a, ns, ts, hocc, hg, hend => by
    have h := hocc.layout hp
    simp only [PieceAt, StmtAt] at h
    rw [Stmt.add_width_whileLoop] at hg hend
    exact loop_flow h.2.1 ⟨_, _, _, _, hocc⟩ (Nat.le_add_right ..) hg (expr_flow cond h.1 rfl)
      (block_flow hR hc hp body (.loop hocc)) hend
  | .ret value _, K, b, k, a, ns, ts, hocc, hg, hend => by
    simp only [Stmt.width, ← Nat.add_assoc] at hg
    exact .inr (ret_flow hp hocc (hg.sub (Nat.le_refl _) (by omega)))
  | .importUnit path _, K, b, k, a, ns, ts, hocc, hg, hend => by
    have h := hocc.layout hp
    simp only [PieceAt, StmtAt] at h
    simp only [Stmt.width, ← Nat.add_assoc] at hg hend
    refine .inr (expr_flow path h.1 rfl (hg.sub (Nat.le_refl _) (by omega)) (.inr ?_))
    exact .of_move (hg.push .any) (by omega) (by omega) (.importUnit h.2 hend)
  | .tryCatch body errorVar handler span, K, b, k, a, ns, ts, hocc, hg, hend => by
    have h := hocc.layout hp
    simp only [PieceAt, StmtAt] at h
    rw [Stmt.add_width_tryCatch] at hg hend
    exact guarded_flow ⟨ns, body, errorVar, handler, span, a⟩ h.1 hocc hg
      (block_flow hR hc hp body (.tryBody hocc))
      (block_flow hR hc hp handler (.handler hocc) (hg.bind.sub (by omega) (by omega))) hend

theorem stmts_flow (hR : R.OfCode) (hc : CompiledFrom R.program p i.chunk)
    (hp : ProgramAt i.chunk p) : (ss : List Stmt) → {K : Nat → Site → Prop} → {b : Bool} →
    {k a : Nat} → {ns : List String} → {ts : List Try} → Occurs p ⟨b, k, ns, a⟩ (.stmts ss) →
    Guarded p (Fine R p i K) a (a + stmtsWidth ss) ⟨b, ns.length, [], ts⟩ →
    Fine R p i K (a + stmtsWidth ss) ⟨b, ns.length, [], ts⟩ →
    Fine R p i K a ⟨b, ns.length, [], ts⟩
  | [], K, b, k, a, ns, ts, hocc, hg, hend => hend
  | s :: ss, K, b, k, a, ns, ts, hocc, hg, hend => by
    simp only [stmtsWidth, ← Nat.add_assoc] at hg hend
    refine stmt_flow hR hc hp s (.head hocc) (hg.sub (Nat.le_refl _) (by omega)) ?_
    exact stmts_flow hR hc hp ss (.tail hocc) (hg.sub (by omega) (Nat.le_refl _)) hend

theorem block_flow (hR : R.OfCode) (hc : CompiledFrom R.program p i.chunk)
    (hp : ProgramAt i.chunk p) : (body : Block) → {K : Nat → Site → Prop} → {b : Bool} →
    {k a : Nat} → {ns : List String} → {ts : List Try} →
    Occurs p ⟨b, k, ns, a⟩ (.stmts body.stmts) →
    Guarded p (Fine R p i K) a (a + body.width) ⟨b, ns.length, [], ts⟩ →
    Fine R p i K (a + body.width) ⟨b, ns.length, [], ts⟩ → Fine R p i K a ⟨b, ns.length, [], ts⟩
  | ⟨ss, _⟩, K, b, k, a, ns, ts, hocc, hg, hend => by
    simp only [Block.width] at hg hend
    exact stmts_flow hR hc hp ss hocc hg hend

end

/-! ## Functions and programs -/

/-- Statements of which the last leaves a value. -/
theorem value_flow (hR : R.OfCode) (hc : CompiledFrom R.program p i.chunk)
    (hp : ProgramAt i.chunk p) : (ss : List Stmt) → {b : Bool} → {k a : Nat} →
    {ns : List String} → {ts : List Try} → Occurs p ⟨b, k, ns, a⟩ (.value ss) →
    Guarded p (Fine R p i K) a (a + valueWidth ss) ⟨b, ns.length, [], ts⟩ →
    Fine R p i K (a + valueWidth ss) ⟨b, ns.length, [.any], ts⟩ →
    Fine R p i K a ⟨b, ns.length, [], ts⟩
  | [], b, k, a, ns, ts, hocc, hg, hend =>
    .inr (constant_flow (hocc.layout hp) Value.in_null hg (Nat.le_refl _) (Nat.le_add_right ..)
      hend)
  | [s], b, k, a, ns, ts, hocc, hg, hend => by
    have hplain : Occurs p ⟨b, k, ns, a⟩ (.stmt s) →
        ConstAt i.chunk (a + s.width) .constant .null → valueWidth [s] = s.width + 2 →
        Fine R p i K a ⟨b, ns.length, [], ts⟩ := by
      intro hs hnull hwidth
      rw [hwidth, ← Nat.add_assoc] at hg hend
      refine stmt_flow hR hc hp s hs (hg.sub (Nat.le_refl _) (by omega)) (.inr ?_)
      exact constant_flow hnull Value.in_null hg (by omega) (by omega) hend
    have h := hocc.layout hp
    match s, hocc, h with
    | .expr e, hocc, h => exact .inr (expr_flow e h rfl hg hend)
    | .ifElse cond ⟨thenStmts, _⟩ none _, hocc, h =>
      obtain ⟨hcond, hbranch, -, hnull⟩ := h
      rw [add_valueWidth_ifThen] at hg hend
      have helse : Flow R p i K (a + cond.width + 2 + valueWidth thenStmts + 2)
          ⟨b, ns.length, [], ts⟩ :=
        constant_flow hnull Value.in_null hg (by omega) (by omega) hend
      refine .inr (expr_flow cond hcond rfl (hg.sub (Nat.le_refl _) (by omega)) (.inr ?_))
      exact branch_flow [.any] hbranch (hg.sub (by omega) (Nat.le_refl _))
        (value_flow hR hc hp thenStmts (.valueThen hocc) (hg.sub (by omega) (by omega)))
        (.inr helse) hend
    | .ifElse cond ⟨thenStmts, _⟩ (some ⟨elseStmts, _⟩) _, hocc, h =>
      obtain ⟨hcond, hbranch, -, -⟩ := h
      rw [add_valueWidth_ifElse] at hg hend
      have helse := value_flow hR hc hp elseStmts (.valueElse hocc)
        (hg.sub (by omega) (Nat.le_refl _)) hend
      refine .inr (expr_flow cond hcond rfl (hg.sub (Nat.le_refl _) (by omega)) (.inr ?_))
      exact branch_flow [.any] hbranch (hg.sub (by omega) (Nat.le_refl _))
        (value_flow hR hc hp thenStmts (.valueThen hocc) (hg.sub (by omega) (by omega))) helse hend
    | .print _ _, hocc, h | .function _, hocc, h | .classDecl _ _ _, hocc, h | .block _, hocc, h
    | .whileLoop _ _ _, hocc, h | .ret _ _, hocc, h | .importUnit _ _, hocc, h
    | .tryCatch _ _ _ _, hocc, h => exact hplain (.valueLast hocc nofun nofun) h.2 rfl
  | s :: s' :: ss, b, k, a, ns, ts, hocc, hg, hend => by
    rw [add_valueWidth_cons] at hg hend
    refine stmt_flow hR hc hp s (.valueHead hocc) (hg.sub (Nat.le_refl _) (by omega)) ?_
    exact value_flow hR hc hp (s' :: ss) (.valueTail hocc) (hg.sub (by omega) (Nat.le_refl _)) hend

/-- Nothing behind statements that end in a return is reached. -/
theorem returning_flow (hR : R.OfCode) (hc : CompiledFrom R.program p i.chunk)
    (hp : ProgramAt i.chunk p) {b : Bool} {k : Nat} {ns : List String} :
    (ss : List Stmt) → {a : Nat} → endsInReturn ss = true → Occurs p ⟨b, k, ns, a⟩ (.stmts ss) →
    Fine R p i K a ⟨b, ns.length, [], []⟩
  | [s], a, hreturn, hocc => by
    cases s with
    | ret value span => exact .inr (ret_flow hp (.head hocc) .none)
    | _ => cases hreturn
  | s :: s' :: ss, a, hreturn, hocc => by
    simp only [endsInReturn] at hreturn
    refine stmt_flow hR hc hp s (.head hocc) .none ?_
    exact returning_flow hR hc hp (s' :: ss) hreturn (.tail hocc)

/-- Where no sites are assumed, fine sites flow. -/
theorem Fine.flow {a : Nat} {σ : Site} (h : Fine R p i (fun _ _ => False) a σ) :
    Flow R p i (fun _ _ => False) a σ :=
  h.elim False.elim id

theorem length_bodyNames (m : Bool) (params : List String) :
    (bodyNames m params).length = params.length + if m then 1 else 0 := by
  cases m <;> simp [bodyNames]

/-- The code of a function that a program declares flows from its entry, with its parameters on the
stack. -/
theorem function_flow (hR : R.OfCode) {m : Bool} {f : Function} (h : IsCompiled R.program m f) :
    ∃ p, CompiledFrom R.program p f.image.chunk ∧
      Flow R p f.image (fun _ _ => False) f.entry
        ⟨false, f.arity + if m then 1 else 0, [], []⟩ := by
  obtain ⟨p, ⟨b, k, ns, a⟩, decl, hc, hocc, -, harity, hentry⟩ := h
  obtain ⟨name, hcompile⟩ := hc.compiled
  have hp := compile_layout hcompile
  refine ⟨p, hc, ?_⟩
  have hlength : (bodyNames m (decl.params.map (·.name))).length =
      f.arity + if m then 1 else 0 := by
    rw [length_bodyNames, List.length_map, harity]
  rw [hentry, ← hlength]
  have h := hocc.layout hp
  obtain ⟨fname, params, ⟨body, blockSpan⟩, span⟩ := decl
  simp only [PieceAt, FunctionAt] at h
  by_cases hreturn : endsInReturn body
  · exact (returning_flow hR hc hp body hreturn (.body hocc hreturn)).flow
  · simp only [if_neg hreturn] at h
    have hwithin := hocc.within
    simp only [Piece.width, FunctionDecl.width, if_neg hreturn] at hwithin
    refine (value_flow hR hc hp body (.valueBody hocc (by simpa using hreturn)) .none
      (.inr ?_)).flow
    have hfunction : (false : Bool) ≠ true := Bool.false_ne_true
    exact .of_point ⟨.none, .ret h.2.2 (absurd · hfunction) fun _ => by omega⟩

/-- The code of a program flows from its beginning. -/
theorem program_flow (hR : R.OfCode) (hc : CompiledFrom R.program p i.chunk) :
    Flow R p i (fun _ _ => False) 0 ⟨true, 0, [], []⟩ := by
  obtain ⟨name, hcompile⟩ := hc.compiled
  have hp := compile_layout hcompile
  obtain ⟨-, hnull, hret, -⟩ := id hp
  have hocc : Occurs p ⟨true, 0, [], 0⟩ (.stmts p.stmts) := .program
  refine (stmts_flow hR hc hp p.stmts hocc .none (.inr ?_)).flow
  rw [Nat.zero_add]
  refine constant_flow (σ := ⟨true, 0, [], []⟩) hnull Value.in_null .none (Nat.le_refl _)
    (Nat.le_refl _) (.inr ?_)
  exact .of_point ⟨.none, .ret hret (fun _ => .last rfl rfl) nofun⟩

end

end DotScript.Machine
