import DotScript.Proofs.Machine.History
import DotScript.Proofs.Machine.Realm
import DotScript.Proofs.Machine.Runs
import DotScript.Session.Basic

/-!
# Sessions

A session runs programs one after the other on its main thread, and the calls they spawn on threads
of their own. Between two instructions of one thread other threads may run, the host may set
globals of the idle main thread, and the world outside of the heap may change.

* `Pool`: the threads of a session, each with the history of its run, and the world;
* `Pool.Move`: what the threads can do; `Pool.Step`: what can happen at all;
* `Reachable`: what can come of a session that begins with an idle main thread;
* `Pool.Moves`: moves in a row; `moves_run` and `moves_settle`, the runs of a thread and of spawned
  calls are such moves;
* `reachable_trail`: so are steps in a row.
-/

namespace DotScript.Machine

open DotScript.Bytecode DotScript.Compile DotScript.Syntax

/-! ## Pools -/

/-- What a thread of a session is for. -/
inductive Work
  /-- It is the main thread, and its latest run was that of a program. -/
  | main (p : Option Program)
  /-- It runs the spawned call with a number. -/
  | call (number : Nat)

/-- A failed spawned call is reported; a failed program is the business of the host. -/
def Work.failed (work : Work) (e : RuntimeError) (w : World) : World :=
  match work with
  | .main _ => w
  | .call number =>
    w.report ("[jihll-spawn-" ++ toString number ++ "] runtime error: " ++ e.message)

/-- What a thread of a session is about. -/
inductive Activity
  | idle
  | running
  | ended (r : Except RuntimeError Value)

/-- A thread of a session. -/
structure Cell where
  thread : Thread
  /-- The states of its run before this one, the latest first. -/
  past : List Thread
  work : Work
  activity : Activity

/-- The threads of a session, the main thread first, and the world. -/
structure Pool where
  cells : List Cell
  world : World

/-- What the threads of a session can do next: one of those that run takes a step, or a spawned call
begins. -/
inductive Pool.Move (host : Host) : Pool → Pool → Prop
  | run {before after t past work w s} (h : step host ⟨t, w⟩ = .running s) :
    Move host ⟨before ++ ⟨t, past, work, .running⟩ :: after, w⟩
      ⟨before ++ ⟨s.thread, t :: past, work, .running⟩ :: after, s.world⟩
  | finish {before after t past work w v s} (h : step host ⟨t, w⟩ = .finished v s) :
    Move host ⟨before ++ ⟨t, past, work, .running⟩ :: after, w⟩
      ⟨before ++ ⟨s.thread, t :: past, work, .ended (.ok v)⟩ :: after, s.world⟩
  | fail {before after t past work w e s} (h : step host ⟨t, w⟩ = .failed e s) :
    Move host ⟨before ++ ⟨t, past, work, .running⟩ :: after, w⟩
      ⟨before ++ ⟨s.thread.abandon, t :: past, work, .ended (.error e)⟩ :: after,
        work.failed e s.world⟩
  /-- A spawned call begins on a thread of its own. -/
  | launch {cells w before task after t} (hw : w.pending = before ++ task :: after)
    (hjob : task.job = .script t) :
    Move host ⟨cells, w⟩
      ⟨cells ++ [⟨t, [], .call task.number, .running⟩], { w with pending := before ++ after }⟩
  /-- A spawned call of a native. -/
  | native {cells w before task after n args v w'} (hw : w.pending = before ++ task :: after)
    (hjob : task.job = .native n args)
    (hcall : host.call n.builtin args { w with pending := before ++ after } = (.ok v, w')) :
    Move host ⟨cells, w⟩ ⟨cells, w'⟩
  | nativeFail {cells w before task after n args message w'}
    (hw : w.pending = before ++ task :: after) (hjob : task.job = .native n args)
    (hcall : host.call n.builtin args { w with pending := before ++ after } = (.error message, w')) :
    Move host ⟨cells, w⟩
      ⟨cells, (Work.call task.number).failed (.native n.name message) w'⟩

/-- What can happen next in a session. `code` says which chunks are run, and for which programs. -/
inductive Pool.Step (host : Host) (code : Program → Chunk → Prop) : Pool → Pool → Prop
  | move {P P'} (h : P.Move host P') : Step host code P P'
  /-- The main thread begins to run a program. -/
  | begin {t past work activity cells w p c} (hc : code p c) (hidle : activity ≠ .running) :
    Step host code ⟨⟨t, past, work, activity⟩ :: cells, w⟩
      ⟨⟨t.start c, [], .main (some p), .running⟩ :: cells, w⟩
  /-- The host sets a global, to a value of its own or to that of another global. -/
  | define {t past work activity cells w name v}
    (hv : v.Plain ∨ ∃ other, t.globals.get? other = some v) (hidle : activity ≠ .running) :
    Step host code ⟨⟨t, past, work, activity⟩ :: cells, w⟩
      ⟨⟨{ t with globals := t.globals.insert name v }, past, work, activity⟩ :: cells, w⟩
  /-- Files, output and time are not the session's alone. -/
  | outside {cells w w'} (hheap : w'.heap = w.heap) (hpending : w'.pending = w.pending) :
    Step host code ⟨cells, w⟩ ⟨cells, w'⟩

/-- What can happen in a session that begins with an idle thread whose globals hold no functions,
bound methods, classes and instances. -/
inductive Reachable (host : Host) (code : Program → Chunk → Prop) : Pool → Prop
  | initial {t w} (hglobals : ∀ e ∈ t.globals.entries, e.2.Plain) (hwindows : t.windows = [])
    (himports : t.imports = 0) (hpending : w.pending = []) :
    Reachable host code ⟨[⟨t, [], .main none, .idle⟩], w⟩
  | next {P P'} (h : Reachable host code P) (hstep : P.Step host code P') : Reachable host code P'

/-- The threads of a session make `n` moves. -/
def Pool.Moves (host : Host) : Nat → Pool → Pool → Prop
  | 0, P, P' => P = P'
  | n + 1, P, P' => ∃ P₁, P.Move host P₁ ∧ Moves host n P₁ P'

section
variable {host : Host} {code : Program → Chunk → Prop} {t : Thread} {past : List Thread} {work : Work}
  {w : World} {cells before after : List Cell}

theorem Pool.Moves.trans {n m : Nat} {P P' P'' : Pool} (h : Moves host n P P')
    (h' : Moves host m P' P'') : Moves host (n + m) P P'' := by
  induction n generalizing P with
  | zero =>
    cases h
    rwa [Nat.zero_add]
  | succ n ih =>
    obtain ⟨P₁, hmove, h⟩ := h
    rw [Nat.succ_add]
    exact ⟨P₁, hmove, ih h⟩

theorem Pool.Move.moves {P P' : Pool} (h : P.Move host P') : Moves host 1 P P' := ⟨P', h, rfl⟩

theorem Reachable.move {P P' : Pool} (h : Reachable host code P) (hm : P.Move host P') :
    Reachable host code P' :=
  h.next (.move hm)

/-! ## Running chunks and spawned calls -/

/-- The thread that a run leaves. -/
def leftBy (r : Except RuntimeError Value) (t : Thread) : Thread :=
  match r with
  | .ok _ => t
  | .error _ => t.abandon

/-- The world that a run leaves. -/
def Work.ended (work : Work) (r : Except RuntimeError Value) (w : World) : World :=
  match r with
  | .ok _ => w
  | .error e => work.failed e w

/-- What a thread comes to in `n` steps of its own, if it goes on for so long, with its history. -/
def trail (host : Host) : Nat → State → List Thread → Option (State × List Thread)
  | 0, s, past => some (s, past)
  | n + 1, s, past =>
    match step host s with
    | .running s' => trail host n s' (s.thread :: past)
    | _ => none

theorem reachable_trail {n : Nat} {s s' : State} {past' : List Thread}
    (h : trail host n s past = some (s', past'))
    (hP : Reachable host code ⟨before ++ ⟨s.thread, past, work, .running⟩ :: after, s.world⟩) :
    Reachable host code ⟨before ++ ⟨s'.thread, past', work, .running⟩ :: after, s'.world⟩ := by
  induction n generalizing s past with
  | zero =>
    cases h
    exact hP
  | succ n ih =>
    rw [trail] at h
    cases hstep : step host s with
    | running s₁ =>
      rw [hstep] at h
      exact ih h (hP.move (.run hstep))
    | finished v s₁ | failed e s₁ =>
      rw [hstep] at h
      cases h

/-- A run that ends leaves a thread that has ended. -/
theorem moves_run {s s' : State} {fuel : Nat} {r : Except RuntimeError Value}
    (h : run host fuel s = some (r, s')) (before after : List Cell) (past : List Thread)
    (work : Work) : ∃ n past', Pool.Moves host n
      ⟨before ++ ⟨s.thread, past, work, .running⟩ :: after, s.world⟩
      ⟨before ++ ⟨leftBy r s'.thread, past', work, .ended r⟩ :: after, work.ended r s'.world⟩ := by
  induction fuel generalizing s past with
  | zero => cases h
  | succ fuel ih =>
    rw [run] at h
    cases hstep : step host s with
    | running s₁ =>
      rw [hstep] at h
      obtain ⟨n, past', hmoves⟩ := ih h (s.thread :: past)
      exact ⟨n + 1, past', _, .run hstep, hmoves⟩
    | finished v s₁ =>
      rw [hstep] at h
      cases h
      exact ⟨1, _, (Pool.Move.finish hstep).moves⟩
    | failed e s₁ =>
      rw [hstep] at h
      cases h
      exact ⟨1, _, (Pool.Move.fail hstep).moves⟩

/-- A chunk that has been run is the run of the thread that begins with it. -/
theorem exists_run_of_interpret {s s' : State} {c : Chunk} {fuel : Nat}
    {r : Except RuntimeError Value} (h : interpret host fuel c s = some (r, s')) :
    ∃ s₁, run host fuel { s with thread := s.thread.start c } = some (r, s₁) ∧
      s' = ⟨leftBy r s₁.thread, s₁.world⟩ := by
  simp only [interpret, Option.bind_eq_bind, Option.bind_eq_some_iff] at h
  obtain ⟨⟨r', s₁⟩, hrun, h⟩ := h
  cases r' <;> cases h <;> exact ⟨s₁, hrun, rfl⟩

/-- Running a spawned call and reporting its failure. -/
theorem moves_runTask {w' : World} {fuel : Nat} {task : Task} {rest : List Task}
    (hw : w.pending = task :: rest)
    (h : runTask host fuel task { w with pending := rest } = some w') (cells : List Cell) :
    ∃ n more, (∀ c ∈ more, c.activity ≠ .running) ∧
      Pool.Moves host n ⟨cells, w⟩ ⟨cells ++ more, w'⟩ := by
  simp only [runTask, Option.bind_eq_bind, Option.bind_eq_some_iff] at h
  obtain ⟨⟨r, w₁⟩, hjob, h⟩ := h
  have hw' : w.pending = [] ++ task :: rest := hw
  have hended : w' = (Work.call task.number).ended r w₁ := by
    cases r <;> cases h <;> rfl
  subst hended
  cases htask : task.job with
  | native n args =>
    rw [htask] at hjob
    replace hjob : some ((host.call n.builtin args { w with pending := rest }).1.mapError
        (RuntimeError.native n.name), (host.call n.builtin args { w with pending := rest }).2) =
        some (r, w₁) := hjob
    rcases hcall : host.call n.builtin args { w with pending := rest } with ⟨result, w₂⟩
    rw [hcall] at hjob
    refine ⟨1, [], List.forall_mem_nil _, ?_⟩
    rw [List.append_nil]
    cases result with
    | ok v =>
      cases hjob
      exact (Pool.Move.native hw' htask hcall).moves
    | error message =>
      cases hjob
      exact (Pool.Move.nativeFail hw' htask hcall).moves
  | script t =>
    rw [htask] at hjob
    simp only [runJob, Option.map_eq_some_iff] at hjob
    obtain ⟨⟨r', s'⟩, hrun, heq⟩ := hjob
    cases heq
    obtain ⟨n, past', hmoves⟩ := moves_run hrun cells [] [] (.call task.number)
    refine ⟨n + 1, _, fun c hc => ?_, _, .launch hw' htask, hmoves⟩
    cases List.mem_singleton.mp hc
    nofun

/-- Running all spawned calls. -/
theorem moves_settle {w' : World} {fuel count : Nat} (h : settle host fuel count w = some w')
    (cells : List Cell) : w'.pending = [] ∧ ∃ n more, (∀ c ∈ more, c.activity ≠ .running) ∧
      Pool.Moves host n ⟨cells, w⟩ ⟨cells ++ more, w'⟩ := by
  induction count generalizing w cells with
  | zero =>
    rw [settle] at h
    split at h
    · next hempty =>
      cases h
      exact ⟨List.isEmpty_iff.mp hempty, 0, [], List.forall_mem_nil _, by rw [List.append_nil]; rfl⟩
    · cases h
  | succ count ih =>
    rw [settle] at h
    cases hw : w.pending with
    | nil =>
      rw [hw] at h
      cases h
      exact ⟨hw, 0, [], List.forall_mem_nil _, by rw [List.append_nil]; rfl⟩
    | cons task rest =>
      rw [hw] at h
      simp only [Option.bind_eq_bind, Option.bind_eq_some_iff] at h
      obtain ⟨w₁, htask, h⟩ := h
      obtain ⟨n, more, hended, hmoves⟩ := moves_runTask hw htask cells
      obtain ⟨hpending, m, more', hended', hmoves'⟩ := ih h (cells ++ more)
      refine ⟨hpending, n + m, more ++ more', fun c hc => ?_, ?_⟩
      · rcases List.mem_append.mp hc with hc | hc
        · exact hended c hc
        · exact hended' c hc
      · rw [← List.append_assoc]
        exact hmoves.trans hmoves'

end

end DotScript.Machine
