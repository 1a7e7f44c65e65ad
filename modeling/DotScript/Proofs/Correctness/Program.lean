import DotScript.Proofs.Correctness.Calls
import DotScript.Proofs.Compile.Compiled
import DotScript.Proofs.Semantics.Soundness
import DotScript.Proofs.Natives.Inert
import DotScript.Session.Basic

/-!
# Compiled programs mean what their trees mean

A program without imports and spawned calls, compiled and run on an idle thread, ends exactly if its
evaluation ends, with the same value or failure, the same globals and the same world. A run that
overflows is left out. Main statement: `interpret_iff_runProgram`.
-/

namespace DotScript.Correctness

open DotScript.Machine DotScript.Semantics DotScript.Bytecode DotScript.Syntax
open DotScript.Compile hiding expr exprs pairs stmt stmts block program

/-- Function values that stand for the declarations of a program: one for each, in the order of the
text, under its name, and different for different declarations. -/
structure StandsFor (declared : List Declared) (p : Program) : Prop where
  declarations : declared.map (fun d => (d.isMethod, d.decl)) = stmtDeclarations p.stmts
  named : ∀ d ∈ declared, d.function.name = d.decl.name.name ∧
    d.function.arity = d.decl.params.length
  different : declared.Pairwise fun d d' => d.function.sameCode d'.function = false

/-- The functions of a program that a thread is about to run. -/
def programFunctions (t : Thread) (c : Chunk) (p : Program) : List Declared :=
  stmtsDeclared ⟨⟨t.id, t.loaded⟩, c⟩ 0 p.stmts

/-- What a program runs in. -/
def programContext (host : Host) (t : Thread) (c : Chunk) (p : Program) (n : Nat) : Context :=
  context host t.id (programFunctions t c p) n

/-- The activation of a program that a thread is about to run. -/
def programActivation (t : Thread) (c : Chunk) : Activation := ⟨t.start c, #[], none⟩

section
variable {host : Host} {p : Program} {c : Chunk} {t : Thread} {w : World}

/-! ## Functions -/

/-- The functions of a program in the order of its text, with their code. -/
theorem lists_programFunctions (h : ProgramAt c p) :
    Lists c ⟨⟨t.id, t.loaded⟩, c⟩ 0 (0 + stmtsWidth p.stmts) (programFunctions t c p)
      (stmtDeclarations p.stmts) :=
  stmts_lists p.stmts h.1

theorem standsFor_programFunctions (h : ProgramAt c p) : StandsFor (programFunctions t c p) p where
  declarations := (lists_programFunctions h).names
  named := by
    intro d hd
    obtain ⟨k, hk⟩ := List.mem_iff_getElem?.mp hd
    obtain ⟨a, hdecl, -, -⟩ := ((lists_programFunctions h).placed k d hk).code
    rw [hdecl]
    exact ⟨rfl, rfl⟩
  different := by
    refine (lists_programFunctions h).ordered.imp fun {d d'} hlt => ?_
    simp only [Function.sameCode, Bool.and_eq_false_iff, beq_eq_false_iff_ne]
    exact .inr (Nat.ne_of_lt hlt)

/-! ## The machine follows the evaluation -/

theorem sound_programActivation (hidle : t.windows = []) :
    (programActivation t c).Sound t.id ⟨⟨t.id, t.loaded⟩, c⟩ ([] : List String).length where
  id := rfl
  image := rfl
  base := rfl
  windows := hidle
  depth := nofun
  height := nofun

/-- The machine follows a program to a return: of null, when its end is reached. -/
theorem program_follows (h : ProgramAt c p) (hidle : t.windows = []) (n : Nat) :
    Follows host n (programActivation t c) [] ⟨t.start c, w⟩ (fun (_ : Unit) _ => ⟨t, w⟩)
      ((stmts (programContext host t c p n) 0 p.stmts >>= fun _ => throw (.returned .null))
        { globals := t.globals, world := w }) := by
  have hx := sound_programActivation (c := c) hidle
  have hcalls : CallsFollow (programContext host t c p n) ⟨⟨t.id, t.loaded⟩, c⟩ :=
    callsFollow_context (lists_programFunctions h).placed n
  obtain ⟨hstmts, hnull, hret, -⟩ := h
  have hfollows := stmts_follows (σ := { globals := t.globals, world := w }) (k := 0) hcalls p.stmts
    hx ⟨rfl, nofun⟩ hstmts (List.prefix_refl _)
  refine hfollows.bind fun _ σ' _ hσ' => ?_
  rw [Nat.zero_add]
  exact (constant_follows hx hσ' hnull).afterOk (return_follows hx hret)

/-- A program that returns has ended. -/
theorem returning_halts {a : Nat} {st : Array Value} {handler : Option Handler} {v : Value}
    {σ : Store} (hidle : t.windows = []) (h : OpAt c a .ret) :
    ∃ s', Halts host ((programActivation t c).returning a st handler v σ) (.ok v) s' ∧
      s'.thread.globals = σ.globals ∧ s'.world = σ.world := by
  let s' : State :=
    ⟨{ ((programActivation t c).returning a st handler v σ).thread with
      ip := a + 1, stack := #[] ++ st }, σ.world⟩
  have hinstr : instruction host ((programActivation t c).returning a st handler v σ) =
      .ok (some v) s' :=
    (instruction_ret host h rfl).trans (doReturn_of_le host v (Nat.zero_le _))
  have hwindows : s'.thread.windows = [] := hidle
  refine ⟨s', ⟨1, ?_⟩, rfl, rfl⟩
  simp only [run, step, hinstr, hwindows]

/-! ## Both directions -/

/-- How an evaluation of a program ends shows how its run ends. -/
theorem halts_of_runProgram (h : ProgramAt c p) (hidle : t.windows = [])
    (hcalm : Calm host ⟨t.start c, w⟩) {n : Nat} {r : Except RuntimeError Value}
    {globals : Table String Value} {world : World}
    (hrun : runProgram host t.id (programFunctions t c p) n p t.globals w =
      some (r, globals, world)) :
    ∃ s', Halts host ⟨t.start c, w⟩ r s' ∧ s'.thread.globals = globals ∧ s'.world = world := by
  have hfollows := program_follows (w := w) h hidle n hcalm
  have hreturn : ∀ {v : Value} {σ : Store} {a : Nat} {st : Array Value} {handler},
      OpAt c a .ret →
      Reaches host ⟨t.start c, w⟩ ((programActivation t c).returning a st handler v σ) →
      ∃ s', Halts host ⟨t.start c, w⟩ (.ok v) s' ∧
        s'.thread.globals = σ.globals ∧ s'.world = σ.world := fun hret hreach => by
    obtain ⟨s', hhalts, hs'⟩ := returning_halts hidle hret
    exact ⟨s', hreach.halts hhalts, hs'⟩
  simp only [runProgram] at hrun
  unfold programContext at hfollows
  cases hr : stmts (context host t.id (programFunctions t c p) n) 0 p.stmts
    { globals := t.globals, world := w } with
  | ok _ σ =>
    rw [hr] at hrun
    rw [bind_of_ok hr] at hfollows
    obtain ⟨a, st, handler, hret, hreach⟩ := hfollows
    cases hrun
    exact hreturn hret hreach
  | error stop σ =>
    rw [hr] at hrun
    rw [bind_of_error hr] at hfollows
    cases stop with
    | returned v =>
      obtain ⟨a, st, handler, hret, hreach⟩ := hfollows
      cases hrun
      exact hreturn hret hreach
    | fatal e =>
      cases hrun
      exact hfollows
    | _ => cases hrun

/-- The realm of a program: its own functions, and the objects that are new to the heap. -/
def programRealm (t : Thread) (w : World) (c : Chunk) (p : Program) : Realm where
  program := (· = p)
  function f := ∃ d ∈ programFunctions t c p, d.function = f ∧ d.isMethod = false
  method f := ∃ d ∈ programFunctions t c p, d.function = f ∧ d.isMethod = true
  native _ := True
  objects := True
  classes := w.heap.classes.size
  instances := w.heap.instances.size

theorem program_settled (h : ProgramAt c p) (hs : stmtsSequential p.stmts) (hinert : host.Inert)
    (hplain : ∀ e ∈ t.globals.entries, e.2.Plain) (n : Nat) :
    Settled (programRealm t w c p) [] (fun _ => True)
      (stmts (programContext host t c p n) 0 p.stmts { globals := t.globals, world := w }) := by
  have hR : ∀ n, RealmOf (programRealm t w c p) (programContext host t c p n) := fun n =>
    ⟨fun f => Iff.rfl, fun f => Iff.rfl, trivial, fun _ => trivial⟩
  have hdecls : ∀ d ∈ programFunctions t c p, d.decl.sequential := fun d hd =>
    stmtsSequential_of_mem p.stmts hs (d.isMethod, d.decl) (by
      rw [← (lists_programFunctions h).names]
      exact List.mem_map_of_mem hd)
  have hplaced : ∀ n, AllPlaced (programContext host t c p n) ⟨⟨t.id, t.loaded⟩, c⟩ := fun _ =>
    (lists_programFunctions h).placed
  have hcalls : CallsKept (programRealm t w c p) (programContext host t c p n) :=
    callsKept_context hR hplaced hdecls hinert n
  have hnum : Numbered (programContext host t c p n) 0
      (stmtsDeclared ⟨⟨t.id, t.loaded⟩, c⟩ 0 p.stmts) := List.prefix_refl _
  exact stmts_keeps hcalls (hR n) p.stmts h.1 hs hnum _
    ⟨rfl, fun e he => (List.not_mem_nil he).elim, fun e he => (hplain e he).in fun _ => trivial,
      Heap.in_of_size rfl rfl⟩

/-- A bound as large as the run is long suffices for the evaluation. -/
theorem runProgram_of_run (h : ProgramAt c p) (hidle : t.windows = [])
    (hcalm : Calm host ⟨t.start c, w⟩) (hs : stmtsSequential p.stmts) (hinert : host.Inert)
    (hplain : ∀ e ∈ t.globals.entries, e.2.Plain) {n : Nat} {r : Except RuntimeError Value × State}
    (hrun : run host n ⟨t.start c, w⟩ = some r) :
    ∃ r' globals world, runProgram host t.id (programFunctions t c p) n p t.globals w =
      some (r', globals, world) := by
  have hfollows := program_follows (w := w) h hidle n hcalm
  have hsettled := program_settled (w := w) h hs hinert hplain n
  simp only [runProgram]
  unfold programContext at hfollows hsettled
  cases hr : stmts (context host t.id (programFunctions t c p) n) 0 p.stmts
    { globals := t.globals, world := w } with
  | ok _ σ => exact ⟨_, _, _, rfl⟩
  | error stop σ =>
    rw [bind_of_error hr] at hfollows
    rw [hr] at hsettled
    cases stop with
    | returned v => exact ⟨_, _, _, rfl⟩
    | fatal e => exact ⟨_, _, _, rfl⟩
    | raised e =>
      obtain ⟨-, _, hhandler, -⟩ := hfollows
      cases hhandler
    | exhausted =>
      obtain ⟨s', hsteps⟩ := hfollows
      rw [run_eq_none_of_steps hsteps] at hrun
      cases hrun
    | stuck => exact hsettled.elim

/-! ## Running a chunk -/

/-- Running a chunk is running it from its beginning; a failure leaves globals and world alone. -/
theorem interpret_eq_some {fuel : Nat} {s s' : State} {r : Except RuntimeError Value}
    (h : interpret host fuel c s = some (r, s')) :
    ∃ s₁, run host fuel ⟨s.thread.start c, s.world⟩ = some (r, s₁) ∧
      s'.thread.globals = s₁.thread.globals ∧ s'.world = s₁.world := by
  simp only [interpret, Option.bind_eq_bind, Option.bind_eq_some_iff] at h
  obtain ⟨⟨r', s₁⟩, hrun, h⟩ := h
  cases r' with
  | ok v =>
    cases h
    exact ⟨_, hrun, rfl, rfl⟩
  | error e =>
    cases h
    exact ⟨_, hrun, rfl, rfl⟩

theorem interpret_of_run {fuel : Nat} {s s₁ : State} {r : Except RuntimeError Value}
    (h : run host fuel ⟨s.thread.start c, s.world⟩ = some (r, s₁)) :
    ∃ s', interpret host fuel c s = some (r, s') ∧
      s'.thread.globals = s₁.thread.globals ∧ s'.world = s₁.world := by
  simp only [interpret, h, Option.bind_eq_bind, Option.bind_some]
  cases r with
  | ok v => exact ⟨_, rfl, rfl, rfl⟩
  | error e => exact ⟨_, rfl, rfl, rfl⟩

end

/-- Compiling keeps the meaning of programs. Take a program without imports and spawned calls that
compiles, and an idle thread whose globals hold no functions, bound methods, classes or instances.
There are function values that stand for the declarations of the program, such that the run of its
chunk ends with a value or a failure, globals and a world exactly if the evaluation of its tree
does, provided that no instruction of the run overflows. -/
theorem interpret_iff_runProgram (host : Host) (p : Program) (name : String) (c : Chunk) (s : State)
    (hcompile : compile p name = .ok c) (hs : stmtsSequential p.stmts) (hinert : host.Inert)
    (hidle : s.thread.windows = []) (hplain : ∀ e ∈ s.thread.globals.entries, e.2.Plain)
    (hcalm : Calm host { s with thread := s.thread.start c }) :
    ∃ declared : List Declared, StandsFor declared p ∧
      ∀ (r : Except RuntimeError Value) (globals : Table String Value) (world : World),
        (∃ fuel s', interpret host fuel c s = some (r, s') ∧
          s'.thread.globals = globals ∧ s'.world = world) ↔
        ∃ n, runProgram host s.thread.id declared n p s.thread.globals s.world =
          some (r, globals, world) := by
  have hat := compile_layout hcompile
  refine ⟨programFunctions s.thread c p, standsFor_programFunctions hat, fun r globals world => ?_⟩
  constructor
  · rintro ⟨fuel, s', hinterpret, rfl, rfl⟩
    obtain ⟨s₁, hrun, hglobals, hworld⟩ := interpret_eq_some hinterpret
    obtain ⟨r', globals', world', hprogram⟩ :=
      runProgram_of_run hat hidle hcalm hs hinert hplain hrun
    obtain ⟨s₂, hhalts, rfl, rfl⟩ := halts_of_runProgram hat hidle hcalm hprogram
    obtain ⟨rfl, rfl⟩ := hhalts.unique ⟨fuel, hrun⟩
    exact ⟨fuel, by rw [hprogram, hglobals, hworld]⟩
  · rintro ⟨n, hprogram⟩
    obtain ⟨s₁, ⟨fuel, hrun⟩, rfl, rfl⟩ := halts_of_runProgram hat hidle hcalm hprogram
    obtain ⟨s', hinterpret, hglobals, hworld⟩ := interpret_of_run hrun
    exact ⟨fuel, s', hinterpret, hglobals, hworld⟩

/-- A function that returns out of a `try`, or out of its handler if the sum fails:
`fun guarded n: try: return n + m . catch e: return e . . print guarded(null)`. -/
def guarded : Program where
  stmts :=
    [.function ⟨⟨"guarded", ⟨4, 11⟩⟩, [⟨"n", ⟨12, 13⟩⟩],
        ⟨[.tryCatch
            ⟨[.ret (some (.binary .add (.var ⟨"n", ⟨27, 28⟩⟩) (.var ⟨"m", ⟨31, 32⟩⟩) ⟨27, 32⟩))
              ⟨20, 32⟩], ⟨18, 34⟩⟩
            ⟨"e", ⟨41, 42⟩⟩ ⟨[.ret (some (.var ⟨"e", ⟨51, 52⟩⟩)) ⟨44, 52⟩], ⟨42, 54⟩⟩ ⟨15, 54⟩],
          ⟨13, 56⟩⟩, ⟨0, 56⟩⟩,
      .print (.call (.var ⟨"guarded", ⟨63, 70⟩⟩) [.null ⟨71, 75⟩] ⟨63, 76⟩) ⟨57, 76⟩]
  span := ⟨0, 76⟩

/-- The two ways to run `guarded` agree. -/
theorem interpret_iff_runProgram_guarded : ∃ c declared, compile guarded "main" = .ok c ∧
    StandsFor declared guarded ∧ ∀ r globals world,
      (∃ fuel s', interpret (Session.hostWith {} none) fuel c ⟨{}, {}⟩ = some (r, s') ∧
        s'.thread.globals = globals ∧ s'.world = world) ↔
      ∃ n, runProgram (Session.hostWith {} none) [] declared n guarded {} {} =
        some (r, globals, world) := by
  have hruns : (match compile guarded "main" with
      | .ok c => calmFor (Session.hostWith {} none) 40 ⟨Thread.start {} c, {}⟩
      | .error _ => false) = true := by
    decide +kernel
  cases hcompile : compile guarded "main" with
  | error e =>
    rw [hcompile] at hruns
    cases hruns
  | ok c =>
    rw [hcompile] at hruns
    obtain ⟨declared, hdeclared, hagree⟩ :=
      interpret_iff_runProgram (Session.hostWith {} none) guarded "main" c ⟨{}, {}⟩ hcompile
        (by decide) (Natives.inert_of_callForHost rfl) rfl (fun e he => (List.not_mem_nil he).elim)
        (calm_of_calmFor hruns)
    exact ⟨c, declared, rfl, hdeclared, hagree⟩

end DotScript.Correctness
