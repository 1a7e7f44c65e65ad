import DotScript.Proofs.Machine.Nesting
import DotScript.Proofs.Machine.Preservation
import DotScript.Proofs.Natives.Inert
import DotScript.Proofs.Session.Pool

/-!
# Sessions of compiled code

If all chunks that are run or loaded are compiled programs, then all threads of a session run
compiled code, and everything they can get at belongs to one realm.

* `Tracked`: the activations of a thread all along its history;
* `Cell.Good`, `Pool.Good`, `good_of_reachable`: what holds in all sessions of compiled code.

Main statement: `internal_eq_false`, no instruction fails for one of the machine's own reasons.
-/

namespace DotScript.Machine

open DotScript.Bytecode DotScript.Compile DotScript.Syntax

/-! ## Compiled programs -/

/-- A chunk is a compiled program. -/
abbrev Compiled : Program → Chunk → Prop := CompiledFrom fun _ => True

/-- The loader gives compiled programs only. -/
abbrev Host.LoadsCompiled (host : Host) : Prop := host.LoadsFrom fun _ => True

/-- The hosts of the program itself load compiled modules only. -/
theorem loadsCompiled_hostWith (limits : Limits) (settings : Session.Settings) :
    (Session.hostWith limits (some settings.loader)).LoadsCompiled := by
  intro load hload files path chunk hchunk
  cases hload
  simp only [Session.Settings.loader, Session.Settings.load] at hchunk
  cases hfile : settings.resolve files path with
  | none =>
    simp only [hfile] at hchunk
    cases hchunk
  | some file =>
    simp only [hfile] at hchunk
    cases hread : Session.readSource files file with
    | error e =>
      rw [hread] at hchunk
      cases hchunk
    | ok source =>
      rw [hread] at hchunk
      replace hchunk : ((compileSource source).mapError Session.LoadError.refused).mapError
        Session.LoadError.message = .ok chunk := hchunk
      cases hunit : compileSource source with
      | error e =>
        rw [hunit] at hchunk
        cases hchunk
      | ok c =>
        rw [hunit] at hchunk
        cases hchunk
        simp only [compileSource] at hunit
        split at hunit
        · cases hunit
        · next p hp =>
          split at hunit
          · cases hunit
          · next hc =>
            cases hunit
            exact ⟨p, trivial, source.name, hc⟩

/-- The functions of some programs when compiled, and the objects that are new to a heap. -/
def codeRealm (programs : Program → Prop) (h : Heap) : Realm where
  program := programs
  function := IsCompiled programs false
  method := IsCompiled programs true
  native _ := True
  objects := True
  classes := h.classes.size
  instances := h.instances.size

theorem codeRealm_ofCode (programs : Program → Prop) (h : Heap) : (codeRealm programs h).OfCode :=
  ⟨fun _ => Iff.rfl, fun _ => Iff.rfl, fun _ _ => trivial⟩

/-! ## Activations along a history -/

/-- The activations of a thread, all along its history: each step leaves some of them, or begins one
more. -/
inductive Tracked (R : Realm) : List Thread → List Level → Prop
  | begin {t L} (runs : Runs R [t] [L]) : Tracked R [t] [L]
  | next {t t' past Ls Ls'} (before : Tracked R (t :: past) Ls)
    (runs : Runs R (t' :: t :: past) Ls') (levels : Ls' <:+ Ls ∨ ∃ L, Ls' = L :: Ls) :
    Tracked R (t' :: t :: past) Ls'

section
variable {R : Realm} {host : Host} {t : Thread} {past : List Thread} {Ls : List Level}

theorem Tracked.runs (h : Tracked R (t :: past) Ls) : Runs R (t :: past) Ls := by
  cases h with
  | begin runs => exact runs
  | next before runs levels => exact runs

/-- The run of a compiled program begins at the ground. -/
theorem Runs.start {p : Program} {c : Chunk} (hR : R.OfCode) (hc : CompiledFrom R.program p c)
    (hglobals : t.globals.In R) (hwindows : t.windows = []) :
    Runs R [t.start c] [.ground ⟨⟨t.id, t.loaded⟩, c⟩ p true] := by
  let image : Image := ⟨⟨t.id, t.loaded⟩, c⟩
  have hflow : Flow R p image (fun _ _ => False) 0 ⟨true, 0, [], []⟩ := program_flow hR hc
  have hsite : AtSite R (.ground image p true) 0 ⟨true, 0, [], []⟩ [] [] :=
    ⟨hc, hflow, rfl, rfl, nofun, trivial⟩
  exact ⟨.ground, ⟨⟨⟨rfl, hwindows⟩, rfl, rfl, hglobals⟩, rfl, hsite⟩, .none⟩

/-- So does the run of a spawned call. -/
theorem Runs.job (h : (Job.script t).In R) : ∃ L, Runs R [t] [L] := by
  obtain ⟨hhandler, -, p, ls, hstands⟩ := h
  refine ⟨_, .ground, hstands, ?_⟩
  rw [hhandler]
  exact .none

theorem Thread.Fresh.job (h : (Job.script t).In R) : t.Fresh := by
  obtain ⟨hhandler, himports, p, ls, hstands⟩ := h
  exact ⟨hstands.carries.tops.frames, hstands.carries.tops.windows, himports, hhandler⟩

/-! ## Threads and pools -/

/-- A thread runs compiled code, or it is at rest and its globals belong to the realm. -/
inductive Cell.Good (host : Host) (R : Realm) : Cell → Prop
  | running {t past work Ls} (history : History host (t :: past)) (tracked : Tracked R (t :: past) Ls)
    (program : ∀ p, work = .main (some p) → ∃ image, [Level.ground image p true] <:+ Ls) :
    Good host R ⟨t, past, work, .running⟩
  | resting {t past work activity} (rests : activity ≠ .running) (globals : t.globals.In R)
    (windows : t.windows = []) (imports : t.imports = 0) : Good host R ⟨t, past, work, activity⟩

/-- All threads run compiled code or are at rest, and everything they can get at belongs to the
realm. -/
structure Pool.Good (host : Host) (R : Realm) (P : Pool) : Prop where
  cells : ∀ c ∈ P.cells, c.Good host R
  world : P.world.In R

section
variable {w : World} {before after cells : List Cell} {work : Work}

theorem Cell.Good.tracked (h : Cell.Good host R ⟨t, past, work, .running⟩) :
    History host (t :: past) ∧ ∃ Ls, Tracked R (t :: past) Ls ∧
      ∀ p, work = .main (some p) → ∃ image, [Level.ground image p true] <:+ Ls := by
  cases h with
  | running history tracked program => exact ⟨history, _, tracked, program⟩
  | resting rests => exact absurd rfl rests

theorem Cell.Good.rests {activity : Activity} (h : Cell.Good host R ⟨t, past, work, activity⟩)
    (hidle : activity ≠ .running) : t.globals.In R ∧ t.windows = [] ∧ t.imports = 0 := by
  cases h with
  | running => exact absurd rfl hidle
  | resting rests globals windows imports => exact ⟨globals, windows, imports⟩

/-- One thread has changed. -/
theorem Pool.Good.replace {c c' : Cell} (h : Pool.Good host R ⟨before ++ c :: after, w⟩)
    (hc : c'.Good host R) {w' : World} (hw : w'.In R) :
    Pool.Good host R ⟨before ++ c' :: after, w'⟩ := by
  refine ⟨fun d hd => ?_, hw⟩
  rcases List.mem_append.mp hd with hd | hd
  · exact h.cells d (List.mem_append_left _ hd)
  · rcases List.mem_cons.mp hd with rfl | hd
    · exact hc
    · exact h.cells d (List.mem_append_right _ (List.mem_cons_of_mem _ hd))

theorem World.In.launch {task : Task} {rest rest' : List Task} (h : w.In R)
    (hw : w.pending = rest ++ task :: rest') :
    task.job.In R ∧ World.In R { w with pending := rest ++ rest' } := by
  refine ⟨h.pending task (hw ▸ List.mem_append_right _ List.mem_cons_self), h.heap,
    fun task' h' => h.pending task' ?_⟩
  rw [hw]
  rcases List.mem_append.mp h' with h' | h'
  · exact List.mem_append_left _ h'
  · exact List.mem_append_right _ (List.mem_cons_of_mem _ h')

theorem World.In.failed (h : w.In R) (work : Work) (e : RuntimeError) : (work.failed e w).In R := by
  cases work <;> exact ⟨h.heap, h.pending⟩

theorem World.In.call {b : Builtin} {args : List Value} {r : Except String Value} {w' : World}
    (h : w.In R) (hinert : host.InertIn R) (hb : R.native b)
    (hcall : host.call b args w = (r, w')) (hargs : ∀ a ∈ args, a.In R) : w'.In R := by
  refine ⟨hinert.heap hb hcall hargs h.heap, ?_⟩
  rw [hinert.pending hb hcall]
  exact h.pending

/-- A thread that has ended its run has no imports in progress. -/
theorem History.finished {v : Value} {s : State} (h : History host (t :: past))
    (hstep : step host ⟨t, w⟩ = .finished v s) : s.thread.windows = [] ∧ s.thread.imports = 0 := by
  have hshift := instruction_shift host t w
  simp only [step] at hstep
  cases hr : instruction host ⟨t, w⟩ with
  | error e s' =>
    rw [hr] at hstep
    cases hraise : s'.thread.raise s'.thread.windows e <;>
      simp only [hraise] at hstep <;> cases hstep
  | ok r s' =>
    rw [hr] at hshift hstep
    cases r with
    | none => cases hstep
    | some v =>
      cases hw : s'.thread.windows with
      | cons window outer =>
        simp only [hw] at hstep
        cases hstep
      | nil =>
        simp only [hw] at hstep
        cases hstep
        cases hshift with
        | finish floor control =>
          simp only [Thread.control, Control.mk.injEq] at control
          obtain ⟨-, hws, hi, -, -, -⟩ := control
          refine ⟨hw, ?_⟩
          rw [hi, h.sound_state.imports, ← hws, hw]
          rfl

theorem History.failed {e : RuntimeError} {s : State} (h : History host (t :: past))
    (hstep : step host ⟨t, w⟩ = .failed e s) : s.thread.windows = [] ∧ s.thread.imports = 0 := by
  have hshift := instruction_shift host t w
  simp only [step] at hstep
  cases hr : instruction host ⟨t, w⟩ with
  | ok r s' =>
    rw [hr] at hstep
    cases r with
    | none => cases hstep
    | some v => cases hw : s'.thread.windows <;> simp only [hw] at hstep <;> cases hstep
  | error e' s' =>
    rw [hr] at hshift hstep
    obtain ⟨-, -, hws, hi⟩ := h.sound_state.failed hshift
    cases hraise : s'.thread.raise s'.thread.windows e' with
    | ok t' =>
      simp only [hraise] at hstep
      cases hstep
    | error failure =>
      simp only [hraise] at hstep
      cases hstep
      exact raise_error rfl (by rw [hi, h.sound_state.imports, hws]) hraise

variable (hR : R.OfCode) (hinert : host.InertIn R) (hload : host.LoadsFrom R.program)
include hR hinert hload

/-- Whatever the threads of a session do, they run compiled code. -/
theorem Pool.Good.move {P P' : Pool} (h : P.Good host R) (hmove : P.Move host P') :
    P'.Good host R := by
  cases hmove with
  | @run before after t past work w s hstep =>
    have hcell := h.cells _ (List.mem_append_right _ List.mem_cons_self)
    obtain ⟨hhistory, Ls, htracked, hprogram⟩ := hcell.tracked
    have hnext := htracked.runs.next hR hinert hload h.world
    rw [hstep] at hnext
    cases hnext with
    | @running _ Ls' hruns hw hlevels =>
      refine h.replace (.running (hhistory.next ⟨_, _, hstep⟩) (htracked.next hruns hlevels)
        fun p hp => ?_) hw
      obtain ⟨image, hground⟩ := hprogram p hp
      refine ⟨image, ?_⟩
      rcases hlevels with hlevels | ⟨L, rfl⟩
      · obtain ⟨L, Ls'', rfl⟩ : ∃ L Ls'', Ls' = L :: Ls'' := by
          cases hruns
          exact ⟨_, _, rfl⟩
        exact List.suffix_of_suffix_length_le hground hlevels (by simp)
      · exact hground.trans (List.suffix_cons ..)
  | @finish before after t past work w v s hstep =>
    have hcell := h.cells _ (List.mem_append_right _ List.mem_cons_self)
    obtain ⟨hhistory, Ls, htracked, -⟩ := hcell.tracked
    have hnext := htracked.runs.next hR hinert hload h.world
    obtain ⟨hwindows, himports⟩ := hhistory.finished hstep
    rw [hstep] at hnext
    cases hnext with
    | finished _ hw hglobals =>
      have hrests : Cell.Good host R ⟨s.thread, t :: past, work, .ended (.ok v)⟩ :=
        .resting nofun hglobals hwindows himports
      exact h.replace hrests hw
  | @fail before after t past work w e s hstep =>
    have hcell := h.cells _ (List.mem_append_right _ List.mem_cons_self)
    obtain ⟨hhistory, Ls, htracked, -⟩ := hcell.tracked
    have hnext := htracked.runs.next hR hinert hload h.world
    obtain ⟨hwindows, himports⟩ := hhistory.failed hstep
    rw [hstep] at hnext
    cases hnext with
    | failed hw hglobals =>
      have hrests : Cell.Good host R ⟨s.thread.abandon, t :: past, work, .ended (.error e)⟩ :=
        .resting nofun hglobals hwindows himports
      exact h.replace hrests (hw.failed work e)
  | @launch cells w before task after t hw hjob =>
    obtain ⟨hin, hworld⟩ := h.world.launch hw
    rw [hjob] at hin
    refine ⟨fun c hc => ?_, hworld⟩
    rcases List.mem_append.mp hc with hc | hc
    · exact h.cells c hc
    · cases List.mem_singleton.mp hc
      obtain ⟨L, hruns⟩ := Runs.job hin
      exact .running (.begin (.job hin)) (.begin hruns) nofun
  | @native cells w before task after n args v w' hw hjob hcall =>
    obtain ⟨hin, hworld⟩ := h.world.launch hw
    rw [hjob] at hin
    exact ⟨h.cells, hworld.call hinert hin.1 hcall hin.2⟩
  | @nativeFail cells w before task after n args message w' hw hjob hcall =>
    obtain ⟨hin, hworld⟩ := h.world.launch hw
    rw [hjob] at hin
    exact ⟨h.cells, (hworld.call hinert hin.1 hcall hin.2).failed (.call task.number) _⟩

/-- Whatever happens in a session, its threads run compiled code. -/
theorem Pool.Good.step {P P' : Pool} (hnative : ∀ b, R.native b) (h : P.Good host R)
    (hstep : P.Step host (CompiledFrom R.program) P') : P'.Good host R := by
  cases hstep with
  | move hmove => exact h.move hR hinert hload hmove
  | @begin t past work activity cells w p c hc hidle =>
    obtain ⟨hglobals, hwindows, himports⟩ := (h.cells _ List.mem_cons_self).rests hidle
    have h' : Pool.Good host R ⟨[] ++ ⟨t, past, work, activity⟩ :: cells, w⟩ := h
    refine h'.replace (.running (.begin (.start hwindows himports c))
      (.begin (Runs.start hR hc hglobals hwindows)) fun p' hp => ?_) h.world
    cases hp
    exact ⟨_, List.suffix_refl _⟩
  | @define t past work activity cells w name v hv hidle =>
    obtain ⟨hglobals, hwindows, himports⟩ := (h.cells _ List.mem_cons_self).rests hidle
    have h' : Pool.Good host R ⟨[] ++ ⟨t, past, work, activity⟩ :: cells, w⟩ := h
    have hin : v.In R := by
      rcases hv with hv | ⟨other, hv⟩
      · exact hv.in hnative
      · exact hglobals.get? hv
    have hrests : Cell.Good host R
        ⟨{ t with globals := t.globals.insert name v }, past, work, activity⟩ :=
      .resting hidle (hglobals.insert name hin) hwindows himports
    exact h'.replace hrests h.world
  | outside hheap hpending =>
    exact ⟨h.cells, hheap ▸ h.world.heap, hpending ▸ h.world.pending⟩

end

/-- In a session that runs and loads some programs only, everything belongs to their realm. -/
theorem exists_good {programs : Program → Prop} (hinert : host.Inert)
    (hload : host.LoadsFrom programs) {P : Pool} (h : Reachable host (CompiledFrom programs) P) :
    ∃ heap, P.Good host (codeRealm programs heap) := by
  induction h with
  | @initial t w hglobals hwindows himports hpending =>
    refine ⟨w.heap, fun c hc => ?_, Heap.in_of_size rfl rfl, ?_⟩
    · cases List.mem_singleton.mp hc
      exact .resting nofun (fun e he => (hglobals e he).in fun _ => trivial) hwindows himports
    · rw [hpending]
      nofun
  | next h hstep ih =>
    obtain ⟨heap, hgood⟩ := ih
    exact ⟨heap, Pool.Good.step (codeRealm_ofCode programs heap) (hinert _ trivial fun _ => trivial)
      hload (fun _ => trivial) hgood hstep⟩

/-- In every session of compiled code there is a realm to which everything belongs. -/
theorem good_of_reachable (hinert : host.Inert) (hload : host.LoadsCompiled) {P : Pool}
    (h : Reachable host Compiled P) :
    ∃ R : Realm, R.OfCode ∧ host.InertIn R ∧ host.LoadsFrom R.program ∧ P.Good host R := by
  obtain ⟨heap, hgood⟩ := exists_good hinert hload h
  exact ⟨_, codeRealm_ofCode _ heap, hinert _ trivial fun _ => trivial, hload, hgood⟩

end

/-! ## No internal failures -/

/-- Compiled code never trips the checks of the machine. Take any session whose loader gives
compiled programs only and whose natives bring no functions, bound methods, classes or instances.
No instruction of any thread fails because the stack is empty, a local, constant, opcode, operand
or jump is invalid, or a method is no function or is added to something that is no class. -/
theorem internal_eq_false (host : Host) (hinert : host.Inert) (hload : host.LoadsCompiled) (P : Pool)
    (h : Reachable host Compiled P) (t : Thread) (past : List Thread) (work : Work)
    (ht : ⟨t, past, work, .running⟩ ∈ P.cells) (e : RuntimeError) (s' : State)
    (hr : instruction host ⟨t, P.world⟩ = .error e s') : e.internal = false := by
  obtain ⟨R, hR, hinert', hload', hgood⟩ := good_of_reachable hinert hload h
  obtain ⟨-, Ls, htracked, -⟩ := (hgood.cells _ ht).tracked
  exact (htracked.runs.failure hR hinert' hload' hgood.world hr).1

/-- What a program compiles to may be checked by running it. -/
theorem exists_compiled (p : Program) (name : String) (check : Chunk → Bool)
    (h : (match compile p name with
      | .ok c => check c
      | .error _ => false) = true) : ∃ c, Compiled p c ∧ check c = true := by
  cases hc : compile p name with
  | error e =>
    rw [hc] at h
    cases h
  | ok c =>
    rw [hc] at h
    exact ⟨c, ⟨trivial, name, hc⟩, h⟩

/-- A program that uses a name that is not defined: `print m`. -/
def undefinedName : Program where
  stmts := [.print (.var ⟨"m", ⟨6, 7⟩⟩) ⟨0, 7⟩]
  span := ⟨0, 7⟩

/-- Its first instruction fails, and the failure is not one of the machine's own. -/
theorem internal_eq_false_undefinedName : ∃ c e s', Compiled undefinedName c ∧
    instruction (Session.hostWith {} none) ⟨Thread.start {} c, {}⟩ = .error e s' ∧
      e.internal = false := by
  obtain ⟨c, hc, hcheck⟩ := exists_compiled undefinedName "main"
    (fun c => match instruction (Session.hostWith {} none) ⟨Thread.start {} c, {}⟩ with
      | .error _ _ => true
      | .ok _ _ => false) (by decide +kernel)
  have hP : Reachable (Session.hostWith {} none) Compiled
      ⟨[⟨Thread.start {} c, [], .main (some undefinedName), .running⟩], {}⟩ :=
    .next (.initial (t := {}) (w := {}) nofun rfl rfl rfl) (.begin hc nofun)
  cases hr : instruction (Session.hostWith {} none) ⟨Thread.start {} c, {}⟩ with
  | ok v s' =>
    rw [hr] at hcheck
    cases hcheck
  | error e s' =>
    exact ⟨c, e, s', hc, hr, internal_eq_false (Session.hostWith {} none)
      (Natives.inert_of_callForHost rfl) nofun _ hP _ [] _ List.mem_cons_self e s' hr⟩

end DotScript.Machine
