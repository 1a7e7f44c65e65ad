import DotScript.Proofs.Machine.Spawning
import DotScript.Proofs.Schedule.Local
import DotScript.Proofs.Session.Pool
import Mathlib.Logic.Relation

/-!
# Waiting for spawned calls

A session runs one program after the other. When the run of a program is over, its thread takes the
handles of all calls that have been spawned, waits for each of them, and looks again, until there
are no handles left. Meanwhile the calls go on, in any order, and may spawn others. A thread that
spawns a call keeps its handle only after the call may have begun.

* `Doing`, `Doing.Acts`: where the run of a thread is, and what it does next;
* `Doing.Comes`: what a thread comes to by what it does itself, in worlds of its session;
* `Crew`, `Crew.Move`: the threads of a session, and what one of them does next;
* `Crew.Accounted`: every call that has been spawned waits, runs or has ended, and one that has not
  ended has a handle somewhere, or its parent is about to keep it;
* `Crew.Accounted.move`, `Crew.Reachable.accounted`: what one move and a whole session preserve.

Main statement: `Crew.Accounted.all_ended`.
-/

namespace DotScript.Machine

open DotScript.Compile DotScript.Text
open Relation (ReflTransGen)

/-! ## Threads -/

/-- Where the run of a thread is. -/
inductive Doing
  /-- It is between two instructions. -/
  | running (t : Thread)
  /-- It has spawned the call with a number, and is about to keep its handle. -/
  | starting (number : Nat) (turn : Turn)
  | over (r : Except RuntimeError Value) (t : Thread)

/-- What a step leads to. -/
def Turn.doing : Turn → Doing
  | .running t => .running t
  | .finished v t => .over (.ok v) t
  | .failed e t => .over (.error e) t.abandon

/-- The call whose handle is about to be kept. -/
def Doing.started : Doing → Option Nat
  | .starting number _ => some number
  | _ => none

/-- What the threads of a session have in common: the world, the handles that have been kept, the
outcomes of all checks made of what was to be spawned, and the worlds that threads have acted in. -/
structure Shared where
  world : World
  handles : List Nat := []
  checks : List (Except RuntimeError Job) := []
  /-- The worlds in which threads have acted, in order. -/
  past : List World := []

/-- What has passed the checks. -/
def Shared.passed (s : Shared) : List Job := s.checks.filterMap Except.toOption

/-- What the run of a thread does next. -/
inductive Doing.Acts (host : Host) : Doing → Shared → Doing → Shared → Prop
  /-- An instruction that spawns nothing. -/
  | step {t : Thread} {s : Shared} {turn : Turn} {w' : World} (h : step host ⟨t, s.world⟩ = turn.outcome w')
    (hthreads : w'.threads = s.world.threads) :
    Acts host (.running t) s turn.doing { s with
      world := w', checks := s.checks ++ t.spawnCheck?.toList, past := s.past ++ [s.world] }
  /-- An instruction that counts a call and lets it begin. -/
  | start {t : Thread} {s : Shared} {turn : Turn} {w' : World} (h : Machine.step host ⟨t, s.world⟩ = turn.outcome w')
    (hthreads : w'.threads ≠ s.world.threads) :
    Acts host (.running t) s (.starting s.world.threads turn) { s with
      world := w', checks := s.checks ++ t.spawnCheck?.toList, past := s.past ++ [s.world] }
  | keep {number : Nat} {turn : Turn} {s : Shared} :
    Acts host (.starting number turn) s turn.doing
      { s with handles := s.handles ++ [number], past := s.past ++ [s.world] }

/-- What a thread comes to by what it does itself in some worlds, one after the other. -/
inductive Doing.Goes (host : Host) (d₀ : Doing) : List World → Doing → Prop
  | refl : Goes host d₀ [] d₀
  | act {ws d s d' s'} (before : Goes host d₀ ws d) (acts : Doing.Acts host d s d' s') :
    Goes host d₀ (ws ++ [s.world]) d'

/-- What a thread comes to by what it does itself in a session that has gone through the worlds `past`,
whatever the others do in between. -/
def Doing.Comes (host : Host) (past : List World) (d d' : Doing) : Prop :=
  ∃ ws, ws.Sublist past ∧ Doing.Goes host d ws d'

/-- What the run of a spawned call comes to. -/
def Job.Comes (host : Host) (past : List World) : Job → Doing → Prop
  | .script t, d => Doing.Comes host past (.running t) d
  | .native n args, d =>
    ∃ w ∈ past, d = .over ((host.call n.builtin args w).1.mapError (.native n.name)) {}

/-! ## Crews -/

/-- What the main thread is about. -/
inductive Leader
  | idle (t : Thread) (last : Option (Except Session.RunError Value))
  | active (d : Doing)
  /-- The run of a program is over, and the handles in `batch` have been taken. -/
  | joining (t : Thread) (r : Except Session.RunError Value) (batch : List Nat)

def Leader.isIdle : Leader → Bool
  | .idle .. => true
  | _ => false

/-- The handles that the main thread has taken, or is about to keep. -/
def Leader.awaited : Leader → List Nat
  | .idle .. => []
  | .active d => d.started.toList
  | .joining _ _ batch => batch

/-- The threads of a session, and what they have in common. -/
structure Crew where
  leader : Leader
  /-- The spawned calls that have begun and not ended. -/
  calls : List (Task × Doing)
  /-- The spawned calls that have ended, in the order in which they ended. -/
  ended : List (Task × Except RuntimeError Value)
  shared : Shared

/-- What one of the threads of a session does next. -/
inductive Crew.Move (host : Host) : Crew → Crew → Prop
  | lead {d d' calls ended s s'} (h : Doing.Acts host d s d' s') :
    Move host ⟨.active d, calls, ended, s⟩ ⟨.active d', calls, ended, s'⟩
  | call {leader before task d after d' ended s s'} (h : Doing.Acts host d s d' s') :
    Move host ⟨leader, before ++ (task, d) :: after, ended, s⟩
      ⟨leader, before ++ (task, d') :: after, ended, s'⟩
  /-- A spawned call begins. -/
  | launch {leader calls ended s before task after t}
    (hpending : s.world.pending = before ++ task :: after) (hjob : task.job = .script t) :
    Move host ⟨leader, calls, ended, s⟩
      ⟨leader, calls ++ [(task, .running t)], ended,
        { s with world := { s.world with pending := before ++ after } }⟩
  /-- A spawned call of a native. -/
  | native {leader calls ended s before task after n args r w'}
    (hpending : s.world.pending = before ++ task :: after) (hjob : task.job = .native n args)
    (hcall : host.call n.builtin args { s.world with pending := before ++ after } = (r, w')) :
    Move host ⟨leader, calls, ended, s⟩
      ⟨leader, calls ++ [(task, .over (r.mapError (.native n.name)) {})], ended,
        { s with world := w', past := s.past ++ [{ s.world with pending := before ++ after }] }⟩
  /-- A spawned call ends, and reports its failure. -/
  | close {leader before task r t after ended s} :
    Move host ⟨leader, before ++ (task, .over r t) :: after, ended, s⟩
      ⟨leader, before ++ after, ended ++ [(task, r)],
        { s with world := (Work.call task.number).ended r s.world }⟩
  /-- The run of a program is over, well or not. -/
  | await {r t calls ended s} :
    Move host ⟨.active (.over r t), calls, ended, s⟩
      ⟨.joining t (r.mapError .failed) [], calls, ended, s⟩
  | take {t r calls ended s} (hhandles : s.handles ≠ []) :
    Move host ⟨.joining t r [], calls, ended, s⟩
      ⟨.joining t r s.handles, calls, ended, { s with handles := [] }⟩
  /-- The first of the handles taken is that of a call that has ended. -/
  | join {t r number batch calls ended s} (hended : number ∈ ended.map (·.1.number)) :
    Move host ⟨.joining t r (number :: batch), calls, ended, s⟩
      ⟨.joining t r batch, calls, ended, s⟩
  /-- The result is given back to the host. -/
  | back {t r calls ended s} (hhandles : s.handles = []) :
    Move host ⟨.joining t r [], calls, ended, s⟩ ⟨.idle t (some r), calls, ended, s⟩

/-- The host has a program run. -/
inductive Crew.Begin (source : Source) : Crew → Crew → Prop
  | run {t last calls ended s chunk} (h : compileSource source = .ok chunk) :
    Begin source ⟨.idle t last, calls, ended, s⟩ ⟨.active (.running (t.start chunk)), calls, ended, s⟩
  | refuse {t last calls ended s e} (h : compileSource source = .error e) :
    Begin source ⟨.idle t last, calls, ended, s⟩
      ⟨.joining t (.error (.refused e)) [], calls, ended, s⟩

/-- What happens besides: files, output and time are not the session's alone. -/
inductive Crew.Outside : Crew → Crew → Prop
  | world {leader calls ended s w'} (h : s.world.SameCalls w') :
    Outside ⟨leader, calls, ended, s⟩ ⟨leader, calls, ended, { s with world := w' }⟩

/-- What can happen in a row while a program runs. -/
def Crew.Runs (host : Host) : Crew → Crew → Prop :=
  ReflTransGen fun C C' => C.Move host C' ∨ C.Outside C'

/-- What can come of a session that begins without spawned calls. The host may do to the main thread
what it wants while that is idle. -/
inductive Crew.Reachable (host : Host) : Crew → Prop
  | initial {t w} (hpending : w.pending = []) (hthreads : w.threads = 0) (hfailures : w.failures = []) :
    Reachable host ⟨.idle t none, [], [], { world := w }⟩
  | begin {source C C'} (h : Reachable host C) (hbegin : C.Begin source C') : Reachable host C'
  | run {C C'} (h : Reachable host C) (hrun : C.Runs host C') : Reachable host C'
  | define {t t' last calls ended s} (h : Reachable host ⟨.idle t last, calls, ended, s⟩) :
    Reachable host ⟨.idle t' last, calls, ended, s⟩

/-! ## Accounts -/

/-- The tasks made of what has passed the checks: they are numbered in that order. -/
def numbered (jobs : List Job) : List Task := jobs.zipIdx.map fun (job, n) => ⟨n, job⟩

/-- The report of a call that has ended, if it has failed. -/
def failureReport? (call : Task × Except RuntimeError Value) : Option String :=
  match call.2 with
  | .ok _ => none
  | .error e =>
    some ("[jihll-spawn-" ++ toString call.1.number ++ "] runtime error: " ++ e.message)

/-- All spawned calls: those that wait, those that run and those that have ended. -/
def Crew.tasks (C : Crew) : List Task :=
  C.shared.world.pending ++ (C.calls.map Prod.fst ++ C.ended.map Prod.fst)

/-- The calls whose handles are somewhere, or about to be kept. -/
def Crew.awaited (C : Crew) : List Nat :=
  C.leader.awaited ++ (C.calls.filterMap (·.2.started) ++ C.shared.handles)

/-- What is known of the spawned calls of a session. -/
structure Crew.Accounted (host : Host) (C : Crew) : Prop where
  tasks : C.tasks.Perm (numbered C.shared.passed)
  threads : C.shared.world.threads = C.shared.passed.length
  failures : C.shared.world.failures = C.ended.filterMap failureReport?
  awaited : ∀ n < C.shared.world.threads, n ∈ C.ended.map (·.1.number) ∨ n ∈ C.awaited
  bound : ∀ n ∈ C.awaited, n < C.shared.world.threads
  /-- A parent has a smaller number than the call it has spawned. -/
  order : ∀ call ∈ C.calls, ∀ n, call.2.started = some n → call.1.number < n
  handles : C.leader.isIdle = true → C.shared.handles = []
  calls : ∀ call ∈ C.calls, call.1.job.Comes host C.shared.past call.2
  ended : ∀ call ∈ C.ended, ∃ t, call.1.job.Comes host C.shared.past (.over call.2 t)

section
variable {host : Host} {C C' : Crew} {d d' : Doing} {s s' : Shared}

@[simp] theorem started_doing (turn : Turn) : turn.doing.started = none := by
  cases turn <;> rfl

theorem numbered_append (jobs : List Job) (job : Job) :
    numbered (jobs ++ [job]) = numbered jobs ++ [⟨jobs.length, job⟩] := by
  simp [numbered, List.zipIdx_append]

theorem map_number_numbered (jobs : List Job) :
    (numbered jobs).map Task.number = List.range jobs.length := by
  rw [List.range_eq_range', ← List.zipIdx_map_snd]
  simp [numbered, Function.comp_def]

theorem failures_ended (task : Task) (r : Except RuntimeError Value) (w : World) :
    ((Work.call task.number).ended r w).failures =
      w.failures ++ (failureReport? (task, r)).toList := by
  cases r with
  | ok v => simp [Work.ended, failureReport?]
  | error e =>
    have hreport : isFailure (failurePrefix ++ (toString task.number ++
        ("] runtime error: " ++ e.message))) = true := isFailure_append _
    rw [← String.append_assoc, ← String.append_assoc] at hreport
    simp only [Work.ended, Work.failed, World.failures_report, failureReport?, Option.toList_some]
    exact congrArg (w.failures ++ ·) (if_pos hreport)

/-! ## What a thread does -/

theorem Doing.Acts.past_eq (h : Doing.Acts host d s d' s') : s'.past = s.past ++ [s.world] := by
  cases h <;> rfl

theorem Doing.Comes.refl (past : List World) (d : Doing) : Doing.Comes host past d d :=
  ⟨[], List.nil_sublist past, .refl⟩

theorem Doing.Comes.mono {past past' : List World} (h : Doing.Comes host past d d')
    (hpast : past.Sublist past') : Doing.Comes host past' d d' := by
  obtain ⟨ws, hws, hgoes⟩ := h
  exact ⟨ws, hws.trans hpast, hgoes⟩

/-- The world in which a thread acts is the next one that the session goes through. -/
theorem Doing.Comes.acts {past : List World} {d₀ : Doing} (h : Doing.Comes host past d₀ d)
    (hacts : Doing.Acts host d s d' s') : Doing.Comes host (past ++ [s.world]) d₀ d' := by
  obtain ⟨ws, hws, hgoes⟩ := h
  exact ⟨_, hws.append (.refl _), hgoes.act hacts⟩

theorem Job.Comes.mono {past past' : List World} {job : Job} (h : job.Comes host past d)
    (hpast : past.Sublist past') : job.Comes host past' d := by
  cases job with
  | script t => exact Doing.Comes.mono h hpast
  | native n args =>
    obtain ⟨w, hw, hd⟩ := h
    exact ⟨w, hpast.subset hw, hd⟩

/-- An instruction spawns nothing, or what has passed the check; and then its handle is kept. -/
theorem Doing.Acts.cases (hnatives : host.LeavesCalls) (h : Doing.Acts host d s d' s') :
    (s.world.SameCalls s'.world ∧ s'.passed = s.passed ∧ s'.handles = s.handles ∧
      d.started = none ∧ d'.started = none) ∨
    (∃ job, s'.world = s.world.spawn job ∧ s'.passed = s.passed ++ [job] ∧
      s'.handles = s.handles ∧ d.started = none ∧ d'.started = some s.world.threads) ∨
    ∃ n, s'.world = s.world ∧ s'.passed = s.passed ∧ s'.handles = s.handles ++ [n] ∧
      d.started = some n ∧ d'.started = none := by
  have hspawns : ∀ {t : Thread} {turn : Turn} {w' : World},
      Machine.step host ⟨t, s.world⟩ = turn.outcome w' → Spawns t.spawnCheck? s.world w' := by
    intro t turn w' hstep
    have hspawns := step_spawns hnatives t s.world
    rw [hstep] at hspawns
    cases turn <;> exact hspawns
  cases h with
  | @step t _ turn w' hstep hthreads =>
    left
    have hspawns := hspawns hstep
    cases hcheck : t.spawnCheck? with
    | none =>
      rw [hcheck] at hspawns
      exact ⟨hspawns, by simp [Shared.passed], rfl, rfl, started_doing turn⟩
    | some r =>
      rw [hcheck] at hspawns
      cases r with
      | ok job =>
        -- The call would have been counted.
        rw [show w' = s.world.spawn job from hspawns] at hthreads
        exact absurd hthreads (Nat.succ_ne_self _)
      | error e => exact ⟨hspawns, by simp [Shared.passed, Except.toOption], rfl, rfl,
          started_doing turn⟩
  | @start t _ turn w' hstep hthreads =>
    right; left
    have hspawns := hspawns hstep
    cases hcheck : t.spawnCheck? with
    | none =>
      rw [hcheck] at hspawns
      exact absurd hspawns.threads hthreads
    | some r =>
      rw [hcheck] at hspawns
      cases r with
      | ok job => exact ⟨job, hspawns, by simp [Shared.passed, Except.toOption], rfl, rfl, rfl⟩
      | error e => exact absurd hspawns.threads hthreads
  | @keep number turn _ =>
    right; right
    exact ⟨number, rfl, rfl, rfl, rfl, started_doing turn⟩

/-! ## Accounts in one state -/

namespace Crew.Accounted

theorem numbers (h : C.Accounted host) :
    (C.tasks.map Task.number).Perm (List.range C.shared.world.threads) := by
  rw [h.threads, ← map_number_numbered]
  exact h.tasks.map _

/-- A call that waits or runs has a number of its own, and no call with that number has ended. -/
theorem unended (h : C.Accounted host) {task : Task}
    (htask : task ∈ C.shared.world.pending ++ C.calls.map Prod.fst) :
    task.number < C.shared.world.threads ∧ task.number ∉ C.ended.map (·.1.number) := by
  have hnumbers := h.numbers
  rw [Crew.tasks, ← List.append_assoc, List.map_append, List.map_map] at hnumbers
  have hmem : task.number ∈ (C.shared.world.pending ++ C.calls.map Prod.fst).map Task.number :=
    List.mem_map_of_mem htask
  constructor
  · exact List.mem_range.mp (hnumbers.subset (List.mem_append_left _ hmem))
  · intro hended
    have hnodup := hnumbers.nodup_iff.mpr List.nodup_range
    exact (List.nodup_append.mp hnodup).2.2 _ hmem _ hended rfl

theorem mem_of_not_ended (h : C.Accounted host) {n : Nat} (hn : n < C.shared.world.threads)
    (hended : n ∉ C.ended.map (·.1.number)) :
    ∃ task ∈ C.shared.world.pending ++ C.calls.map Prod.fst, task.number = n := by
  have hmem : n ∈ C.tasks.map Task.number := h.numbers.symm.subset (List.mem_range.mpr hn)
  rw [Crew.tasks, ← List.append_assoc, List.map_append, List.mem_append] at hmem
  rcases hmem with hmem | hmem
  · exact List.mem_map.mp hmem
  · rw [List.map_map] at hmem
    exact absurd hmem hended

/-- If all handles that have not been waited for are about to be kept by calls, then there are none:
the call with the least number among those that have not ended would have a parent with a smaller
number that has not ended either. -/
theorem all_ended (h : C.Accounted host)
    (hawaited : ∀ n ∈ C.awaited, ∃ call ∈ C.calls, call.2.started = some n) :
    C.shared.world.pending = [] ∧ C.calls = [] := by
  have hended : ∀ n, n < C.shared.world.threads → n ∈ C.ended.map (·.1.number) := by
    intro n
    induction n using Nat.strongRecOn with
    | _ n ih =>
      intro hn
      rcases h.awaited n hn with hmem | hmem
      · exact hmem
      · obtain ⟨call, hcall, hstarted⟩ := hawaited n hmem
        have hless := h.order call hcall n hstarted
        have hparent := (h.unended (List.mem_append_right _ (List.mem_map_of_mem hcall))).2
        exact absurd (ih _ hless (Nat.lt_trans hless hn)) hparent
  have hnone : C.shared.world.pending ++ C.calls.map Prod.fst = [] := by
    apply List.eq_nil_iff_forall_not_mem.mpr
    intro task htask
    obtain ⟨hlt, hnot⟩ := h.unended htask
    exact hnot (hended _ hlt)
  obtain ⟨hpending, hcalls⟩ := List.append_eq_nil_iff.mp hnone
  exact ⟨hpending, List.map_eq_nil_iff.mp hcalls⟩

/-- While the main thread is idle nothing goes on. -/
theorem all_ended_of_idle (h : C.Accounted host) (hidle : C.leader.isIdle = true) :
    C.shared.world.pending = [] ∧ C.calls = [] := by
  have hleader : C.leader.awaited = [] := by
    cases hC : C.leader with
    | idle => rfl
    | active | joining =>
      rw [hC] at hidle
      cases hidle
  apply h.all_ended
  intro n hn
  simpa only [Crew.awaited, hleader, h.handles hidle, List.nil_append, List.append_nil,
    List.mem_filterMap] using hn

/-! ## Moves -/

/-- Nothing has been spawned and nothing has ended. -/
theorem congr (h : C.Accounted host) (hworld : C.shared.world.SameCalls C'.shared.world)
    (hpassed : C'.shared.passed = C.shared.passed)
    (htasks : C'.calls.map Prod.fst = C.calls.map Prod.fst) (hended : C'.ended = C.ended)
    (hpast : C.shared.past.Sublist C'.shared.past)
    (hawaited : ∀ n, n ∈ C'.awaited ↔ n ∈ C.awaited)
    (hcalls : ∀ call ∈ C'.calls,
      call ∈ C.calls ∨ call.2.started = none ∧ call.1.job.Comes host C'.shared.past call.2)
    (hidle : C'.leader.isIdle = true → C'.shared.handles = []) : C'.Accounted host where
  tasks := by
    rw [Crew.tasks, hworld.pending, htasks, hended, hpassed]
    exact h.tasks
  threads := by
    rw [hworld.threads, hpassed]
    exact h.threads
  failures := by
    rw [hworld.failures, hended]
    exact h.failures
  awaited := by
    rw [hworld.threads, hended]
    exact fun n hn => (h.awaited n hn).imp_right (hawaited n).mpr
  bound := by
    rw [hworld.threads]
    exact fun n hn => h.bound n ((hawaited n).mp hn)
  order := by
    intro call hcall n hstarted
    rcases hcalls call hcall with hold | ⟨hnone, -⟩
    · exact h.order call hold n hstarted
    · rw [hnone] at hstarted
      cases hstarted
  handles := hidle
  calls := by
    intro call hcall
    rcases hcalls call hcall with hold | ⟨-, hcomes⟩
    · exact (h.calls call hold).mono hpast
    · exact hcomes
  ended := by
    rw [hended]
    exact fun call hcall => (h.ended call hcall).imp fun _ hcomes => hcomes.mono hpast

/-- A call has been spawned: it gets the next number, and its parent is about to keep its handle. -/
theorem spawned (h : C.Accounted host) {job : Job}
    (hworld : C'.shared.world = C.shared.world.spawn job)
    (hpassed : C'.shared.passed = C.shared.passed ++ [job])
    (htasks : C'.calls.map Prod.fst = C.calls.map Prod.fst) (hended : C'.ended = C.ended)
    (hpast : C.shared.past.Sublist C'.shared.past)
    (hawaited : ∀ n, n ∈ C'.awaited ↔ n ∈ C.awaited ∨ n = C.shared.world.threads)
    (hcalls : ∀ call ∈ C'.calls, call ∈ C.calls ∨ call.1 ∈ C.calls.map Prod.fst ∧
      call.2.started = some C.shared.world.threads ∧ call.1.job.Comes host C'.shared.past call.2)
    (hidle : C'.leader.isIdle = true → C'.shared.handles = []) : C'.Accounted host where
  tasks := by
    rw [Crew.tasks, hworld, htasks, hended, hpassed, numbered_append, ← h.threads]
    simp only [World.spawn, List.append_assoc]
    refine List.Perm.trans ?_ (h.tasks.append_right _)
    rw [Crew.tasks, List.append_assoc]
    exact List.perm_append_comm.append_left _
  threads := by
    rw [hworld, hpassed, List.length_append, ← h.threads]
    rfl
  failures := by
    rw [hworld, hended]
    exact h.failures
  awaited := by
    rw [hworld, hended]
    intro n hn
    rcases Nat.lt_succ_iff_lt_or_eq.mp hn with hlt | heq
    · exact (h.awaited n hlt).imp_right fun hmem => (hawaited n).mpr (.inl hmem)
    · exact .inr ((hawaited n).mpr (.inr heq))
  bound := by
    rw [hworld]
    intro n hn
    rcases (hawaited n).mp hn with hn | rfl
    · exact Nat.lt_succ_of_lt (h.bound n hn)
    · exact Nat.lt_succ_self _
  order := by
    intro call hcall n hstarted
    rcases hcalls call hcall with hold | ⟨htask, hnext, -⟩
    · exact h.order call hold n hstarted
    · rw [hnext] at hstarted
      cases hstarted
      exact (h.unended (List.mem_append_right _ htask)).1
  handles := hidle
  calls := by
    intro call hcall
    rcases hcalls call hcall with hold | ⟨-, -, hcomes⟩
    · exact (h.calls call hold).mono hpast
    · exact hcomes
  ended := by
    rw [hended]
    exact fun call hcall => (h.ended call hcall).imp fun _ hcomes => hcomes.mono hpast

/-- The run of the main thread or of a call goes on. -/
theorem acts (hnatives : host.LeavesCalls) (h : C.Accounted host)
    (hacts : Doing.Acts host d C.shared d' C'.shared)
    (hended : C'.ended = C.ended) (htasks : C'.calls.map Prod.fst = C.calls.map Prod.fst)
    (hcalls : ∀ call ∈ C'.calls, call ∈ C.calls ∨ ∃ task, call = (task, d') ∧ (task, d) ∈ C.calls)
    (hactive : C'.leader.isIdle = false) (others : List Nat)
    (hawaited : ∀ n, n ∈ C.awaited ↔ n ∈ others ∨ d.started = some n ∨ n ∈ C.shared.handles)
    (hawaited' : ∀ n, n ∈ C'.awaited ↔ n ∈ others ∨ d'.started = some n ∨ n ∈ C'.shared.handles) :
    C'.Accounted host := by
  have hpast : C.shared.past.Sublist C'.shared.past := by
    rw [hacts.past_eq]
    exact List.sublist_append_left ..
  have hcomes : ∀ task, (task, d) ∈ C.calls → task.job.Comes host C'.shared.past d' := by
    intro task hold
    have hbefore := h.calls _ hold
    cases hjob : task.job with
    | script t =>
      simp only [hjob] at hbefore
      rw [hacts.past_eq]
      exact Doing.Comes.acts hbefore hacts
    | native n args =>
      simp only [hjob] at hbefore
      obtain ⟨w, -, rfl⟩ := hbefore
      cases hacts
  have hidle : C'.leader.isIdle = true → C'.shared.handles = [] := by
    intro hidle
    rw [hactive] at hidle
    cases hidle
  have hcalls' : d'.started = none → ∀ call ∈ C'.calls,
      call ∈ C.calls ∨ call.2.started = none ∧ call.1.job.Comes host C'.shared.past call.2 := by
    intro hd' call hcall
    rcases hcalls call hcall with hold | ⟨task, rfl, hold⟩
    · exact .inl hold
    · exact .inr ⟨hd', hcomes task hold⟩
  rcases hacts.cases hnatives with ⟨hworld, hpassed, hhandles, hd, hd'⟩ |
    ⟨job, hworld, hpassed, hhandles, hd, hd'⟩ | ⟨m, hworld, hpassed, hhandles, hd, hd'⟩
  · -- Nothing is spawned.
    refine h.congr hworld hpassed htasks hended hpast (fun n => ?_) (hcalls' hd') hidle
    rw [hawaited, hawaited', hd, hd', hhandles]
  · -- The new call gets the next number.
    refine h.spawned hworld hpassed htasks hended hpast (fun n => ?_) (fun call hcall => ?_) hidle
    · rw [hawaited, hawaited', hd, hd', hhandles, Option.some.injEq]
      simp only [reduceCtorEq, false_or, @eq_comm _ _ n, or_comm, or_left_comm]
    · rcases hcalls call hcall with hold | ⟨task, rfl, hold⟩
      · exact .inl hold
      · exact .inr ⟨List.mem_map.mpr ⟨_, hold, rfl⟩, hd', hcomes task hold⟩
  · -- The handle is kept.
    refine h.congr (hworld ▸ .refl _) hpassed htasks hended hpast (fun n => ?_) (hcalls' hd') hidle
    rw [hawaited, hawaited', hd, hd', hhandles, List.mem_append, List.mem_singleton,
      Option.some.injEq]
    simp only [reduceCtorEq, false_or, @eq_comm _ m n, or_comm]

/-- A call that waits begins. -/
theorem begins {leader : Leader} {calls : List (Task × Doing)}
    {ended : List (Task × Except RuntimeError Value)} {before after : List Task} {task : Task}
      {w' : World} {past' : List World} (h : Crew.Accounted host ⟨leader, calls, ended, s⟩)
    (hpending : s.world.pending = before ++ task :: after)
    (hworld : { s.world with pending := before ++ after }.SameCalls w')
    (hpast : s.past.Sublist past') (hstarted : d.started = none)
    (hcomes : task.job.Comes host past' d) :
    Crew.Accounted host
      ⟨leader, calls ++ [(task, d)], ended, { s with world := w', past := past' }⟩ where
  tasks := by
    have htasks := h.tasks
    simp only [Crew.tasks, hpending] at htasks
    simp only [Crew.tasks, hworld.pending, List.map_append, List.map_cons, List.map_nil]
    refine List.Perm.trans ?_ htasks
    simp only [List.append_assoc, List.cons_append, List.nil_append]
    apply List.Perm.append_left
    rw [← List.append_assoc]
    refine List.perm_middle.trans (List.Perm.cons _ ?_)
    rw [List.append_assoc]
  threads := hworld.threads.trans h.threads
  failures := hworld.failures.trans h.failures
  awaited := by
    simp only [hworld.threads, Crew.awaited, List.filterMap_append, List.filterMap_cons, hstarted,
      List.filterMap_nil, List.append_nil]
    exact h.awaited
  bound := by
    simp only [hworld.threads, Crew.awaited, List.filterMap_append, List.filterMap_cons, hstarted,
      List.filterMap_nil, List.append_nil]
    exact h.bound
  order := by
    intro call hcall n hn
    rcases List.mem_append.mp hcall with hcall | hcall
    · exact h.order call hcall n hn
    · cases List.mem_singleton.mp hcall
      rw [hstarted] at hn
      cases hn
  handles := h.handles
  calls := by
    intro call hcall
    rcases List.mem_append.mp hcall with hcall | hcall
    · exact (h.calls call hcall).mono hpast
    · cases List.mem_singleton.mp hcall
      exact hcomes
  ended call hcall := (h.ended call hcall).imp fun _ hcomes => hcomes.mono hpast

/-- A call ends. -/
theorem closes {leader : Leader} {before after : List (Task × Doing)}
    {ended : List (Task × Except RuntimeError Value)} {task : Task}
    {r : Except RuntimeError Value} {t : Thread}
    (h : Crew.Accounted host ⟨leader, before ++ (task, .over r t) :: after, ended, s⟩) :
    Crew.Accounted host ⟨leader, before ++ after, ended ++ [(task, r)],
      { s with world := (Work.call task.number).ended r s.world }⟩ := by
  have hworld : ((Work.call task.number).ended r s.world).pending = s.world.pending ∧
      ((Work.call task.number).ended r s.world).threads = s.world.threads := by
    cases r <;> exact ⟨rfl, rfl⟩
  have hawaited : Crew.awaited ⟨leader, before ++ (task, .over r t) :: after, ended, s⟩ =
      Crew.awaited ⟨leader, before ++ after, ended ++ [(task, r)],
        { s with world := (Work.call task.number).ended r s.world }⟩ := by
    simp [Crew.awaited, Doing.started]
  have hmem : ∀ call ∈ before ++ after, call ∈ before ++ (task, Doing.over r t) :: after := by
    intro call hcall
    rcases List.mem_append.mp hcall with hcall | hcall
    · exact List.mem_append_left _ hcall
    · exact List.mem_append_right _ (List.mem_cons_of_mem _ hcall)
  refine ⟨?_, ?_, ?_, ?_, ?_, fun call hcall => h.order call (hmem call hcall), h.handles,
    fun call hcall => h.calls call (hmem call hcall), ?_⟩
  · refine List.Perm.trans ?_ h.tasks
    simp only [Crew.tasks, hworld.1, List.map_append, List.map_cons, List.map_nil]
    apply List.Perm.append_left
    simp only [List.append_assoc, List.cons_append]
    apply List.Perm.append_left
    rw [← List.append_assoc]
    exact List.perm_append_comm
  · simp only [hworld.2]
    exact h.threads
  · simp only [failures_ended, List.filterMap_append, h.failures]
    cases hreport : failureReport? (task, r) <;> simp [hreport]
  · rw [← hawaited]
    simp only [hworld.2]
    intro n hn
    refine (h.awaited n hn).imp_left fun hmem => ?_
    rw [List.map_append]
    exact List.mem_append_left _ hmem
  · rw [← hawaited]
    simp only [hworld.2]
    exact h.bound
  · intro call hcall
    rcases List.mem_append.mp hcall with hcall | hcall
    · exact h.ended call hcall
    · cases List.mem_singleton.mp hcall
      exact ⟨t, h.calls (task, .over r t) (List.mem_append_right _ List.mem_cons_self)⟩

theorem move (hnatives : host.LeavesCalls) (h : C.Accounted host) (hmove : C.Move host C') :
    C'.Accounted host := by
  cases hmove with
  | @lead d d' calls ended s s' hacts =>
    refine h.acts hnatives hacts rfl rfl (fun call hcall => .inl hcall) rfl
      (calls.filterMap (·.2.started)) (fun n => ?_) (fun n => ?_)
    · simp only [Crew.awaited, Leader.awaited, List.mem_append, Option.mem_toList]
      exact or_left_comm
    · simp only [Crew.awaited, Leader.awaited, List.mem_append, Option.mem_toList]
      exact or_left_comm
  | @call leader before task d after d' ended s s' hacts =>
    have hactive : leader.isIdle = false := by
      cases hidle : leader.isIdle with
      | false => rfl
      | true => exact absurd (h.all_ended_of_idle hidle).2 (by simp)
    refine h.acts hnatives hacts rfl (by simp) (fun call hcall => ?_) hactive
      (leader.awaited ++ (before.filterMap (·.2.started) ++ after.filterMap (·.2.started)))
      (fun n => ?_) (fun n => ?_)
    · rcases List.mem_append.mp hcall with hcall | hcall
      · exact .inl (List.mem_append_left _ hcall)
      · rcases List.mem_cons.mp hcall with rfl | hcall
        · exact .inr ⟨task, rfl, List.mem_append_right _ List.mem_cons_self⟩
        · exact .inl (List.mem_append_right _ (List.mem_cons_of_mem _ hcall))
    · cases hd : d.started <;>
        simp [Crew.awaited, hd, or_assoc, or_left_comm, @eq_comm _ n]
    · cases hd : d'.started <;>
        simp [Crew.awaited, hd, or_assoc, or_left_comm, @eq_comm _ n]
  | launch hpending hjob =>
    refine h.begins hpending (.refl _) (.refl _) rfl ?_
    rw [hjob]
    exact .refl _ _
  | @native leader calls ended s before task after n args r w' hpending hjob hcall =>
    have hworld := hnatives n.builtin args { s.world with pending := before ++ after }
    rw [hcall] at hworld
    refine h.begins hpending hworld (List.sublist_append_left ..) rfl ?_
    rw [hjob]
    refine ⟨{ s.world with pending := before ++ after }, List.mem_concat_self, ?_⟩
    rw [hcall]
  | close => exact h.closes
  | await =>
    exact h.congr (.refl _) rfl rfl rfl (.refl _) (fun n => .rfl) (fun _ => .inl)
      fun hidle => absurd hidle Bool.false_ne_true
  | @take t r calls ended s hhandles =>
    refine h.congr (.refl _) rfl rfl rfl (.refl _) (fun n => ?_) (fun _ => .inl)
      fun hidle => absurd hidle Bool.false_ne_true
    simp [Crew.awaited, Leader.awaited, or_comm]
  | @join t r number batch calls ended s hended =>
    refine ⟨h.tasks, h.threads, h.failures, fun n hn => ?_, fun n hn => ?_, h.order,
      fun hidle => absurd hidle Bool.false_ne_true, h.calls, h.ended⟩
    · rcases h.awaited n hn with hmem | hmem
      · exact .inl hmem
      · rcases List.mem_cons.mp hmem with rfl | hmem
        · exact .inl hended
        · exact .inr hmem
    · exact h.bound n (List.mem_cons_of_mem _ hn)
  | back hhandles =>
    exact h.congr (.refl _) rfl rfl rfl (.refl _) (fun n => .rfl) (fun _ => .inl) fun _ => hhandles

end Crew.Accounted

end

end DotScript.Machine
