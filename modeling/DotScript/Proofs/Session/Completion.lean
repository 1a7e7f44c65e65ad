import DotScript.Proofs.Machine.Loading
import DotScript.Proofs.Session.Within

/-!
# Programs that have carried out their statements

When the thread that runs a program comes behind the last statement, nothing is left of the run: no
calls or imports are in progress, the stack is empty, and no handler is armed. For the code that
stands there, which returns null, is reached from the ground only, with no locals, and in no body of
a `try` statement; and a module that is being imported is another unit.

* `Underway`: what holds all along the run of a program;
* `Underway.cleared`: behind the last statement nothing is left;
* `Underway.finished`: a run ends where the program returns;
* `State.OfCode`: where such a run can begin, `State.OfCode.exists_underway`.
-/

namespace DotScript.Machine

open DotScript.Bytecode DotScript.Compile DotScript.Syntax

/-! ## The code behind the last statement -/

section
variable {R : Realm} {p : Program} {i : Image} {K : Nat → Site → Prop} {a : Nat} {σ : Site}

theorem opAt_unique {c : Chunk} {op op' : Opcode} (h : OpAt c a op) (h' : OpAt c a op') :
    op = op' :=
  Classical.not_not.mp fun hne => h.ne hne h'

variable (p K a σ) in
/-- What is known where a constant is pushed or a return stands. -/
def OpcodeMove : Opcode → Prop
  | .constant => ∃ k, K (a + 2) (σ.push k)
  | .ret => ∃ b n ts, σ = ⟨b, n, [.any], ts⟩ ∧ (b = true → Ends p a n) ∧
      (b = false → a < stmtsWidth p.stmts)
  | _ => True

theorem Move.opcodeMove (h : Move R p i K a σ) {op : Opcode} (hop : OpAt i.chunk a op) :
    OpcodeMove p K a σ op := by
  cases h with
  | constant h hk hnext | methodConstant h hf hnext =>
    cases opAt_unique hop h.opAt
    exact ⟨_, hnext⟩
  | ret h hend hbody =>
    cases opAt_unique hop h
    exact ⟨_, _, _, rfl, hend, hbody⟩
  | getGlobal h | setGlobal h | classDef h | method h | getProperty h | setProperty h =>
    cases opAt_unique hop h.opAt
    trivial
  | getLocal h | setLocal h | jump h | jumpIfFalse h | buildList h | buildMap h | call h | spawn h
  | tryEnter h =>
    cases opAt_unique hop h.1
    trivial
  | @binary _ o h =>
    cases opAt_unique hop h
    cases o <;> trivial
  | @unary _ o h =>
    cases opAt_unique hop h
    cases o <;> trivial
  | print h | pop h | unbind h | importUnit h | tryExit h =>
    cases opAt_unique hop h
    trivial

/-- Behind the last statement there are no locals, no temporaries and no `try` statements. -/
theorem Flow.behind (h : Flow R p i (fun _ _ => False) (stmtsWidth p.stmts) σ)
    (hp : ProgramAt i.chunk p) : σ = ⟨true, 0, [], []⟩ := by
  obtain ⟨-, hnull, hret, -⟩ := hp
  obtain ⟨k, hflow⟩ := h.point.move.opcodeMove hnull.opAt
  obtain ⟨b, n, ts, hσ, hend, hbody⟩ := hflow.point.move.opcodeMove hret
  have hts : ts = [] := by
    cases ts with
    | nil => rfl
    | cons τ outer =>
      have htries : (σ.push k).tries = τ :: outer := by rw [hσ]
      obtain ⟨-, hexit, -, -, k, hocc⟩ := hflow.point.guarded τ outer htries
      have hwithin := hocc.within
      simp only [Piece.width, Try.stmt, Stmt.width, Try.exit] at hwithin hexit
      omega
  have htop : b = true := by
    cases b with
    | true => rfl
    | false =>
      have hlt := hbody rfl
      omega
  have hn : n = 0 := by
    cases hend htop with
    | @ret ns a value span hocc ha =>
      have hwithin := hocc.within
      simp only [Piece.width, Stmt.width] at hwithin
      omega
    | last ha h => exact h
  subst hts htop hn
  obtain ⟨top, locals, temps, tries⟩ := σ
  simp only [Site.push, Site.mk.injEq, List.cons.injEq] at hσ
  obtain ⟨rfl, rfl, ⟨-, rfl⟩, rfl⟩ := hσ
  rfl

end

/-! ## Runs of a program -/

/-- Nothing of a run is left on a thread. -/
structure Thread.Cleared (t : Thread) : Prop where
  frames : t.frames = #[]
  windows : t.windows = []
  stack : t.stack = #[]
  base : t.base = 0
  handler : t.handler = none

/-- A thread runs a program, with its activation at the ground `G`, and had loaded `n` units when it
began. -/
structure Underway (host : Host) (R : Realm) (G : Level) (n : Nat) (s : State) (past : List Thread)
    (Ls : List Level) : Prop where
  history : History host (s.thread :: past)
  tracked : Tracked R (s.thread :: past) Ls
  world : s.world.In R
  ground : [G] <:+ Ls
  loaded : n ≤ s.thread.loaded
  /-- Modules are later units. -/
  modules : ∀ L ∈ Ls, L.top = true → L.windows ≠ [] → n ≤ L.image.id.serial

section
variable {host : Host} {R : Realm} {G : Level} {n : Nat} {s s' : State} {past : List Thread}
  {Ls : List Level}

/-- The activation of a module that has just begun belongs to the unit that was loaded. -/
theorem Runs.module_unit {t t' : Thread} {L : Level} (hhistory : History host (t :: past))
    (hmoves : t.Moves host t') (hbefore : Runs R (t :: past) Ls)
    (h : Runs R (t' :: t :: past) (L :: Ls)) (htop : L.top = true) :
    L.image.id = ⟨t.id, t.loaded⟩ := by
  obtain ⟨L₀, Ls₀, rfl, hcarries₀⟩ := hbefore.exists_top
  obtain ⟨tower, stands, -⟩ := h
  have hwindows := stands.carries.tops.windows
  cases tower with
  | call => cases htop
  | module =>
    have habove : t.Above t' := by
      right
      rw [hwindows, hcarries₀.tops.windows]
      exact Nat.lt_succ_self _
    cases hmoves.rises hhistory habove with
    | enter op slot_eq below control =>
      simp only [Thread.control, Control.mk.injEq] at control
      rw [control.2.1, hcarries₀.tops.windows] at hwindows
      have hlength := congrArg List.length hwindows
      simp at hlength
    | load op stack control unit =>
      simp only [Thread.control, Control.mk.injEq] at control
      rw [← stands.carries.image, control.2.2.2.1]
      exact unit

section
variable (hR : R.OfCode) (hinert : host.InertIn R) (hload : host.LoadsFrom R.program)
include hR hinert hload

theorem Underway.step (h : Underway host R G n s past Ls) (hstep : step host s = .running s') :
    ∃ Ls', Underway host R G n s' (s.thread :: past) Ls' := by
  have hmoves : s.thread.Moves host s'.thread := ⟨s.world, s'.world, hstep⟩
  have hnext := h.tracked.runs.next hR hinert hload h.world
  rw [hstep] at hnext
  cases hnext with
  | @running _ Ls' hruns hw hlevels =>
    refine ⟨Ls', h.history.next hmoves, h.tracked.next hruns hlevels, hw, ?_,
      Nat.le_trans h.loaded (later_of_step hstep).loaded, ?_⟩
    · obtain ⟨L, Ls'', rfl, -⟩ := hruns.exists_top
      rcases hlevels with hlevels | ⟨L', heq⟩
      · exact List.suffix_of_suffix_length_le h.ground hlevels (by simp)
      · exact heq ▸ h.ground.trans (List.suffix_cons ..)
    · rcases hlevels with hlevels | ⟨L, rfl⟩
      · exact fun L hL => h.modules L (hlevels.subset hL)
      · intro L' hL' htop hwindows
        rcases List.mem_cons.mp hL' with rfl | hL'
        · rw [Runs.module_unit h.history hmoves h.tracked.runs hruns htop]
          exact h.loaded
        · exact h.modules L' hL' htop hwindows

theorem Underway.steps {m : Nat} (h : Underway host R G n s past Ls) (hsteps : Steps host m s s') :
    ∃ past' Ls', Underway host R G n s' past' Ls' := by
  induction m generalizing s past Ls with
  | zero =>
    cases hsteps
    exact ⟨past, Ls, h⟩
  | succ m ih =>
    obtain ⟨s₁, hstep, hsteps⟩ := hsteps
    obtain ⟨Ls', h'⟩ := h.step hR hinert hload hstep
    exact ih h' hsteps

/-- A run of a program ends where the program returns, at the ground. -/
theorem Underway.finished {v : Value} (h : Underway host R G n s past Ls) (hG : G.top = true)
    (hstep : Machine.step host s = .finished v s') : s.thread.frames = #[] ∧ s.thread.windows = [] ∧
      s.thread.image = G.image ∧ ∃ k, Ends G.program s.thread.ip k := by
  have hruns := h.tracked.runs
  have hnext := hruns.next hR hinert hload h.world
  rw [hstep] at hnext
  cases hnext with
  | @finished L _ _ levels world globals tops windows image ip ends =>
    subst levels
    have hground : G = L := by
      rcases List.suffix_cons_iff.mp h.ground with heq | hnil
      · exact (List.cons.inj heq).1
      · cases List.eq_nil_of_suffix_nil hnil
    subst hground
    obtain ⟨tower, stands, -⟩ := hruns
    refine ⟨?_, stands.carries.tops.windows.trans windows, stands.carries.image, _, ends hG⟩
    rw [stands.carries.tops.frames]
    cases tower
    rfl

end

/-- Behind the last statement nothing is left of the run. -/
theorem Underway.cleared {p : Program} (h : Underway host R G n s past Ls)
    (hunit : G.image.id.serial < n) (hp : ProgramAt G.image.chunk p)
    (himage : s.thread.image = G.image) (hip : s.thread.ip = stmtsWidth p.stmts) :
    s.thread.Cleared := by
  have hmodules := h.modules
  obtain @⟨_, _, L, Ls, inherited, σ, ls, vs, tower, stands, held⟩ := h.tracked.runs
  have hL : L.image = G.image := stands.carries.image.symm.trans himage
  have hlayout : ProgramAt L.image.chunk L.program := by
    obtain ⟨name, hcompile⟩ := stands.site.compiled.compiled
    exact compile_layout hcompile
  have hend : s.thread.ip = stmtsWidth L.program.stmts := by
    obtain ⟨-, -, -, hsize⟩ := hp
    obtain ⟨-, -, -, hsize'⟩ := hlayout
    rw [hL] at hsize'
    omega
  have hflow := stands.site.flow
  rw [hend] at hflow
  have hσ := hflow.behind hlayout
  subst hσ
  have hls : ls = [] := List.eq_nil_of_length_eq_zero stands.site.locals
  have hvs : vs = [] := fits_nil stands.site.temps
  subst hls hvs
  have htop : L.top = true := stands.site.top.symm
  have hwindows : L.windows = [] := by
    refine Classical.byContradiction fun hne => ?_
    have hle := hmodules L List.mem_cons_self htop hne
    rw [hL] at hle
    omega
  cases tower with
  | ground =>
    refine ⟨stands.carries.tops.frames, stands.carries.tops.windows, stands.stack,
      stands.carries.base, ?_⟩
    generalize s.thread.handler = handler at held
    cases held <;> rfl
  | call => cases htop
  | module => cases hwindows

end

/-! ## The end of a program -/

section
variable {host : Host} {s s' : State} {v : Value}

/-- From behind the last statement a run ends at once, unless there is no room for a value. -/
theorem Thread.Cleared.halts (h : s.thread.Cleared)
    (hnull : ConstAt s.thread.image.chunk s.thread.ip .constant .null)
    (hret : OpAt s.thread.image.chunk (s.thread.ip + 2) .ret) (hhalts : Halts host s (.ok v) s') :
    s' = ⟨{ s.thread with ip := s.thread.ip + 3 }, s.world⟩ := by
  obtain ⟨t, w⟩ := s
  have hpush : instruction host ⟨t, w⟩ = pushed host .null { t with ip := t.ip + 2 } w :=
    instruction_constant host hnull
  rw [pushed] at hpush
  by_cases hfull : host.limits.stack ≤ t.stack.size
  · rw [if_pos hfull] at hpush
    have hstep : step host ⟨t, w⟩ = .failed .stackOverflow ⟨{ t with ip := t.ip + 2 }, w⟩ := by
      have hwindows : t.windows = [] := h.windows
      have hhandler : t.handler = none := h.handler
      simp only [step, hpush, hwindows, Thread.raise, hhandler]
    have hfails : Halts host ⟨t, w⟩ (.error .stackOverflow) ⟨{ t with ip := t.ip + 2 }, w⟩ :=
      ⟨1, by rw [run, hstep]⟩
    cases (hhalts.unique hfails).1
  · rw [if_neg hfull] at hpush
    let t₁ : Thread := { t with ip := t.ip + 2, stack := t.stack.push .null }
    have hstep : step host ⟨t, w⟩ = .running ⟨t₁, w⟩ := by
      simp only [step, hpush]
      rfl
    have hle : t₁.frames.size ≤ t₁.floor := by
      have hframes : t.frames = #[] := h.frames
      simp only [t₁, hframes]
      exact Nat.zero_le _
    have hend : instruction host ⟨t₁, w⟩ =
        .ok (some .null) ⟨{ t₁ with ip := t.ip + 3, stack := t.stack }, w⟩ := by
      rw [instruction_ret (t := t₁) host hret rfl]
      exact doReturn_of_le host .null hle
    have hstep' : step host ⟨t₁, w⟩ = .finished .null ⟨{ t with ip := t.ip + 3 }, w⟩ := by
      simp only [step, hend]
      split
      · rfl
      · next hwindows => cases h.windows.symm.trans hwindows
    have hends : Halts host ⟨t, w⟩ (.ok .null) ⟨{ t with ip := t.ip + 3 }, w⟩ :=
      (Reaches.step hstep).halts ⟨1, by rw [run, hstep']⟩
    exact (hhalts.unique hends).2

end

/-! ## Programs in a session -/

/-- A thread on which no import is in progress, in a session of compiled programs: all functions that it
can get at are theirs. -/
structure State.OfCode (s : State) : Prop where
  windows : s.thread.windows = []
  imports : s.thread.imports = 0
  code : ∃ heap, s.thread.globals.In (codeRealm (fun _ => True) heap) ∧
    s.world.In (codeRealm (fun _ => True) heap)

/-- The main thread is one between two runs. -/
theorem Reachable.ofCode {host : Host} (hinert : host.Inert) (hload : host.LoadsCompiled) {t : Thread}
    {past : List Thread} {work : Work} {activity : Activity} {cells : List Cell} {w : World}
    (hP : Reachable host Compiled ⟨⟨t, past, work, activity⟩ :: cells, w⟩)
    (hidle : activity ≠ .running) : State.OfCode ⟨t, w⟩ := by
  obtain ⟨heap, hgood⟩ := exists_good hinert hload hP
  obtain ⟨hglobals, hwindows, himports⟩ := (hgood.cells _ List.mem_cons_self).rests hidle
  exact ⟨hwindows, himports, heap, hglobals, hgood.world⟩

/-- What holds along the run of a program that such a thread begins. -/
theorem State.OfCode.exists_underway {host : Host} (hinert : host.Inert) (hload : host.LoadsCompiled)
    {s : State} (h : s.OfCode) {p : Program} {c : Chunk} (hc : Compiled p c) :
    ∃ R, R.OfCode ∧ host.InertIn R ∧ host.LoadsFrom R.program ∧
      ∃ Ls, Underway host R (.ground ⟨⟨s.thread.id, s.thread.loaded⟩, c⟩ p true) (s.thread.loaded + 1)
        ⟨s.thread.start c, s.world⟩ [] Ls := by
  obtain ⟨hwindows, himports, heap, hglobals, hworld⟩ := h
  have hR := codeRealm_ofCode (fun _ => True) heap
  refine ⟨_, hR, hinert _ trivial fun _ => trivial, hload, _, .begin (.start hwindows himports c),
    .begin (.start hR hc hglobals hwindows), hworld, List.suffix_refl _, Nat.le_refl _,
    fun L hL htop hne => ?_⟩
  cases List.mem_singleton.mp hL
  exact absurd rfl hne

end DotScript.Machine
