import DotScript.Proofs.Compile.Refusals
import DotScript.Proofs.Correspondence.Agreement
import DotScript.Proofs.Tails.Counterparts

/-!
# Implicit and explicit returns agree

A program does the same whether the bodies of its functions leave their values or return them. The
functions of the one correspond to those of the other, and the code of both goes in step.

Main statement: `agree_of_explicit`.
-/

namespace DotScript.Syntax

open DotScript.Compile DotScript.Text

/-! ## Refusals -/

theorem refusals_explicitTail (ns : List String) (span : Span) (ss : List Stmt) :
    stmtRefusals ns (explicitTail span ss) = stmtRefusals ns ss := by
  fun_induction explicitTail span ss
  all_goals simp_all only [returnNull, stmtRefusals, Stmt.refusals, Block.refusals, Expr.refusals,
    List.append_nil]

mutual

/-- Explicit returns are no reason to refuse a program, and do away with none. -/
theorem Stmt.Explicit.refusals (ns : List String) : {s s' : Stmt} → s.Explicit s' →
    s.refusals ns = s'.refusals ns
  | _, _, .expr _ | _, _, .print _ _ | _, _, .ret _ _ | _, _, .importUnit _ _ => rfl
  | _, _, .function h => h.refusals false
  | _, _, .classDecl _ h _ => h.refusals
  | _, _, .block h => h.refusals ns
  | _, _, .ifThen _ h _ => by simp only [Stmt.refusals, h.refusals ns]
  | _, _, .ifElse _ h helse _ => by simp only [Stmt.refusals, h.refusals ns, helse.refusals ns]
  | _, _, .whileLoop _ h _ => by simp only [Stmt.refusals, h.refusals ns]
  | _, _, .tryCatch h errorVar hhandler _ => by
    simp only [Stmt.refusals, h.refusals ns, hhandler.refusals (errorVar.name :: ns)]

theorem StmtsExplicit.refusals (ns : List String) : {ss ss' : List Stmt} → StmtsExplicit ss ss' →
    stmtRefusals ns ss = stmtRefusals ns ss'
  | _, _, .nil => rfl
  | _, _, .cons h hs => by simp only [stmtRefusals, h.refusals ns, hs.refusals ns]

theorem Block.Explicit.refusals (ns : List String) : {b b' : Block} → b.Explicit b' →
    b.refusals ns = b'.refusals ns
  | _, _, .mk h _ => by simp only [Block.refusals, h.refusals ns]

theorem MethodsExplicit.refusals : {ms ms' : List FunctionDecl} → MethodsExplicit ms ms' →
    methodRefusals ms = methodRefusals ms'
  | _, _, .nil => rfl
  | _, _, .cons h hs => by simp only [methodRefusals, h.refusals true, hs.refusals]

theorem FunctionDecl.Explicit.refusals (isMethod : Bool) : {decl decl' : FunctionDecl} →
    decl.Explicit decl' → decl.refusals isMethod = decl'.refusals isMethod
  | _, _, .kept _ params h _ _ => by
    simp only [FunctionDecl.refusals, h.refusals (bodyNames isMethod (params.map (·.name)))]
  | _, _, .explicit _ params h _ _ => by
    simp only [FunctionDecl.refusals, refusals_explicitTail,
      h.refusals (bodyNames isMethod (params.map (·.name)))]

end

end DotScript.Syntax

namespace DotScript.Machine

open DotScript.Bytecode DotScript.Syntax DotScript.Semantics
open DotScript.Compile hiding expr exprs pairs stmt stmts block program

/-- The functions that two programs declare, in the order of their texts, if the units that they are
loaded as have a name. -/
def programCounterparts (unit : ImageId) (c c' : Chunk) (p p' : Program) : List (Function × Function) :=
  counterparts (stmtsDeclared ⟨unit, c⟩ 0 p.stmts) (stmtsDeclared ⟨unit, c'⟩ 0 p'.stmts)

/-- The same machine, apart from a unit in which some functions return explicitly. -/
def tails (unit : ImageId) (c c' : Chunk) (p p' : Program) : Relocation where
  units u v := u = v ∧ u ≠ unit
  functions := programCounterparts unit c c' p p'
  places i a j b := i = ⟨unit, c⟩ ∧ j = ⟨unit, c'⟩ ∧
    InStep (fun f g => ∃ q ∈ programCounterparts unit c c' p p', prototype q.1 = f ∧ prototype q.2 = g)
      c c' (fun _ _ => False) a b
  fresh id n := (id = unit.thread ∧ unit.serial < n) ∨ unit.thread.length < id.length
  lead _ := 0

section
variable {unit : ImageId} {c c' : Chunk} {p p' : Program} {name : String}

theorem programLists (h : ProgramAt c p) : Lists c ⟨unit, c⟩ 0 (0 + stmtsWidth p.stmts)
    (stmtsDeclared ⟨unit, c⟩ 0 p.stmts) (stmtDeclarations p.stmts) :=
  stmts_lists p.stmts h.1

variable (hp : p.Explicit p') (h : ProgramAt c p) (h' : ProgramAt c' p')
include hp h h'

theorem sameFunctions_programs : SameFunctions
    (fun f g => ∃ q ∈ programCounterparts unit c c' p p', prototype q.1 = f ∧ prototype q.2 = g)
    (stmtsDeclared ⟨unit, c⟩ 0 p.stmts) (stmtsDeclared ⟨unit, c'⟩ 0 p'.stmts) :=
  sameFunctions_of_counterparts
    (length_eq_of_lists (programLists h) (programLists h') hp.stmts.declarations)
    fun q hq => ⟨q, hq, rfl, rfl⟩

theorem tails_valid : (tails unit c c' p p').Valid where
  unique h h' := by rw [h.1, h'.1]
  apart q hq u := by
    obtain ⟨himage, himage'⟩ := image_of_counterparts (programLists h) (programLists h') hq
    rw [himage, himage']
    exact ⟨fun h => h.2 rfl, fun h => h.2 h.1⟩
  header _ hq :=
    header_of_counterparts (programLists h) (programLists h') hp.stmts.declarations hq
  distinct := (pairwise_counterparts (programLists h) (programLists h')).imp fun h =>
    ⟨sameCode_eq_false_of_lt h.1, sameCode_eq_false_of_lt h.2⟩
  entry q hq := by
    obtain ⟨himage, himage'⟩ := image_of_counterparts (programLists h) (programLists h') hq
    exact ⟨himage, himage', inStep_of_counterparts (programLists h) (programLists h')
      hp.stmts.declarations (sameFunctions_programs hp h h') hq⟩
  load := by
    rintro id n (⟨rfl, hn⟩ | hlength) -
    · refine ⟨rfl, fun heq => ?_⟩
      rw [← heq] at hn
      exact Nat.lt_irrefl _ hn
    · refine ⟨rfl, fun heq => ?_⟩
      rw [← heq] at hlength
      exact Nat.lt_irrefl _ hlength
  child := by
    rintro id n h k
    refine ⟨.inr ?_, rfl⟩
    rcases h with ⟨rfl, -⟩ | h
    · exact Nat.lt_succ_self _
    · exact Nat.lt_succ_of_lt h

theorem tails_lasting : (tails unit c c' p p').correspondence.Lasting where
  toSound := (tails_valid hp h h').correspondence_sound
  next := Or.imp_left fun h => ⟨h.1, Nat.lt_succ_of_lt h.2⟩

omit hp in
theorem tails_closed : (tails unit c c' p p').correspondence.Closed := by
  refine Relocation.closed ?_
  rintro _ a _ b ⟨rfl, rfl, hstep⟩
  refine hstep.leads (Begins.refl _) (Begins.refl _) ?_ ?_
  · rintro _ _ ⟨q, hq, rfl, rfl⟩
    obtain ⟨himage, himage'⟩ := image_of_counterparts (programLists h) (programLists h') hq
    refine .inr ?_
    rw [← himage, ← himage']
    exact hq
  · exact fun x y hxy => .inr ⟨rfl, rfl, hxy.resolve_left id⟩

/-- The programs themselves go in step. -/
theorem program_inStep : InStep
    (fun f g => ∃ q ∈ programCounterparts unit c c' p p', prototype q.1 = f ∧ prototype q.2 = g)
    c c' (fun _ _ => False) 0 0 := by
  have hfunctions : SameFunctions _ (stmtsDeclared ⟨unit, c⟩ 0 p.stmts)
      (stmtsDeclared ⟨unit, c'⟩ 0 p'.stmts) := sameFunctions_programs hp h h'
  obtain ⟨hstmts, hnull, hret, -⟩ := h
  obtain ⟨hstmts', hnull', hret', -⟩ := h'
  refine (stmts_inStep hp.stmts hstmts hstmts' hfunctions (.inr ?_)).resolve_left id
  rw [Nat.zero_add, Nat.zero_add]
  exact null_inStep hnull hnull' (.inr (.of_twin (.ret hret hret')))

end

/-- A thread at rest that holds no functions of a unit goes on to other units. -/
theorem tails_start {s : State} {c c' : Chunk} {p p' : Program}
    (hs : Holds (fun f => f.image.id ≠ ⟨s.thread.id, s.thread.loaded⟩) s) :
    (s.start c).Like (tails ⟨s.thread.id, s.thread.loaded⟩ c c' p p').correspondence
      (s.start c') := by
  refine hs.start_like (fun f hf => ?_) rfl rfl ?_ c c'
  · exact .inl ⟨⟨rfl, hf⟩, rfl, rfl, rfl, rfl⟩
  · exact .inl ⟨rfl, Nat.lt_succ_self _⟩

/-- Implicit and explicit returns agree. Let the bodies of some functions and methods of a program
that compiles return explicitly. Then the program is refused for nothing but lack of room for an
operand. Otherwise run both programs on a thread at rest, whatever it has run before, as long as its
globals and the objects hold no function of the unit that is about to be loaded; there are none if they
hold no functions at all. The runs end both or neither, with the same result or failure, output and
globals, and so do their spawned calls in all orders. In values only functions may differ: for each
there is one of the same unit with the same name and parameters, and comparing functions comes out the
same. Of the natives it is used that they do not tell such functions apart. -/
theorem agree_of_explicit (host : Host)
    (hhost : ∀ C : Correspondence, Interchangeable C.function → host.Respects C) (p p' : Program)
    (hp : p.Explicit p') (name : String) (c : Chunk) (hc : compile p name = .ok c) (s : State)
    (hs : Holds (fun f => f.image.id ≠ ⟨s.thread.id, s.thread.loaded⟩) s) :
    (∃ n, compile p' name = .error (.operandOverflow n)) ∨ ∃ c' F, compile p' name = .ok c' ∧
      F = (tails ⟨s.thread.id, s.thread.loaded⟩ c c' p p').Same ∧ Interchangeable F ∧
      (∀ f g, F f g → f.name = g.name ∧ f.arity = g.arity ∧ f.image.id = g.image.id) ∧
      RunsAgree F host c s c' s ∧ SessionsAgree F host c s c' s := by
  cases hc' : compile p' name with
  | error e =>
    rcases refusal_of_compile hc' with hfirst | ⟨⟨n, rfl⟩, -⟩
    · have hnone : p'.refusals = [] := (hp.stmts.refusals []).symm.trans (refusals_of_compile hc)
      rw [hnone] at hfirst
      cases hfirst
    · exact .inl ⟨n, rfl⟩
  | ok c' =>
    have h := compile_layout hc
    have h' := compile_layout hc'
    let unit : ImageId := ⟨s.thread.id, s.thread.loaded⟩
    have hvalid : (tails unit c c' p p').Valid := tails_valid hp h h'
    have hlasting : (tails unit c c' p p').correspondence.Lasting := tails_lasting hp h h'
    have hclosed : (tails unit c c' p p').correspondence.Closed := tails_closed h h'
    have hrespects : host.Respects (tails unit c c' p p').correspondence :=
      hhost _ hvalid.interchangeable
    have hplace : (s.start c).thread.AtPlace (tails unit c c' p p').correspondence
        (s.start c').thread := .inr ⟨rfl, rfl, program_inStep hp h h'⟩
    refine .inr ⟨c', _, rfl, rfl, hvalid.interchangeable, fun f g hfg => ?_,
      runsAgree_of_like hlasting hclosed hrespects rfl (tails_start hs) hplace,
      sessionsAgree_of_like hlasting hclosed hrespects rfl (tails_start hs) hplace⟩
    rcases hfg with hfg | hfg
    · exact ⟨hfg.name, hfg.arity, hfg.units.1⟩
    · obtain ⟨hname, harity⟩ := hvalid.header _ hfg
      obtain ⟨himage, himage'⟩ := image_of_counterparts (programLists h) (programLists h') hfg
      exact ⟨hname, harity, by rw [himage, himage']⟩

/-- `fun pick x: if x: "yes" . .` and `print pick(true)`, where the body of the function may be
written in some other way. -/
def picks (body : List Stmt) : Program where
  stmts :=
    [.function ⟨⟨"pick", ⟨4, 8⟩⟩, [⟨"x", ⟨9, 10⟩⟩], ⟨body, ⟨10, 27⟩⟩, ⟨0, 27⟩⟩,
      .print (.call (.var ⟨"pick", ⟨34, 38⟩⟩) [.bool true ⟨39, 43⟩] ⟨34, 44⟩) ⟨28, 44⟩]
  span := ⟨0, 44⟩

def picksBody : List Stmt :=
  [.ifElse (.var ⟨"x", ⟨15, 16⟩⟩) ⟨[.expr (.str "yes" ⟨18, 23⟩)], ⟨16, 25⟩⟩ none ⟨12, 25⟩]

/-- `if x: return "yes" else: return null`. -/
def picksExplicitBody : List Stmt :=
  [.ifElse (.var ⟨"x", ⟨15, 16⟩⟩) ⟨[.ret (some (.str "yes" ⟨18, 23⟩)) ⟨18, 23⟩], ⟨16, 25⟩⟩
    (some ⟨[returnNull ⟨10, 27⟩], ⟨10, 27⟩⟩) ⟨12, 25⟩]

theorem agree_of_explicit_picks : ∃ c c' F, compile (picks picksBody) "main" = .ok c ∧
    compile (picks picksExplicitBody) "main" = .ok c' ∧ Interchangeable F ∧
    RunsAgree F (Session.hostWith {} none) c ⟨{}, {}⟩ c' ⟨{}, {}⟩ ∧
    SessionsAgree F (Session.hostWith {} none) c ⟨{}, {}⟩ c' ⟨{}, {}⟩ := by
  have hbody : StmtsExplicit picksBody picksBody :=
    .cons (.ifThen _ (.mk (.cons (.expr _) .nil) _) _) .nil
  have htail : picksExplicitBody = explicitTail ⟨10, 27⟩ picksBody := by
    simp only [picksExplicitBody, picksBody, explicitTail, Expr.span]
  have hp : (picks picksBody).Explicit (picks picksExplicitBody) := by
    rw [htail]
    exact ⟨.cons (.function (.explicit _ _ hbody _ _)) (.cons (.print _ _) .nil), rfl⟩
  have hcompiles : (compile (picks picksBody) "main").toBool = true := by decide +kernel
  have hcompiles' : (compile (picks picksExplicitBody) "main").toBool = true := by decide +kernel
  have hs : Holds (fun f => f.image.id ≠ ⟨[], 0⟩) ⟨{}, {}⟩ := holds_empty _
  cases hc : compile (picks picksBody) "main" with
  | error e =>
    rw [hc] at hcompiles
    cases hcompiles
  | ok c =>
    have hhost (C : Correspondence) (hC : Interchangeable C.function) :
        (Session.hostWith {} none).Respects C := Natives.respects_of_callForHost hC rfl
    rcases agree_of_explicit _ hhost _ _ hp "main" c hc ⟨{}, {}⟩ hs with
      ⟨n, hn⟩ | ⟨c', F, hc', -, hinter, -, hruns, hsessions⟩
    · rw [hn] at hcompiles'
      cases hcompiles'
    · exact ⟨c, c', F, rfl, hc', hinter, hruns, hsessions⟩

end DotScript.Machine
