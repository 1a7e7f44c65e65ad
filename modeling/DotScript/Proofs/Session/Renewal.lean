import DotScript.Proofs.Correspondence.Agreement
import DotScript.Proofs.Machine.Nesting
import DotScript.Proofs.Machine.Spawning
import DotScript.Proofs.Session.Compiled

/-!
# The next run of a session

What an earlier run may leave behind is gone when the next one begins, except for the globals and
the objects. The next run is that of a new session with the same globals.

* `Arises`: what can come of a session whose code is arbitrary and whose host sets globals to
  arbitrary values;
* `Cell.Steady`, `Pool.Steady`: an idle thread has no import in progress, a failed one has no stack,
  and calls that wait are fresh;
* `renumbering`: sessions that are the same but for the numbers of their spawned calls;
* `Thread.renewed`, `World.renewed`: a new session with the same globals and objects.

Main statement: `same_of_renewed`.
-/

namespace DotScript.Machine

open DotScript.Bytecode DotScript.Compile

/-! ## Sessions of arbitrary code -/

/-- What can come of a session that begins with an idle thread. Nothing is assumed of the chunks
that it runs or loads, and of the values that the host puts into its globals. -/
inductive Arises (host : Host) : Pool → Prop
  | initial {t w} (hwindows : t.windows = []) (himports : t.imports = 0) (hpending : w.pending = []) :
    Arises host ⟨[⟨t, [], .main none, .idle⟩], w⟩
  | move {P P'} (h : Arises host P) (hmove : P.Move host P') : Arises host P'
  /-- The main thread begins to run a chunk. -/
  | begin {t past work activity cells w} (h : Arises host ⟨⟨t, past, work, activity⟩ :: cells, w⟩)
    (hidle : activity ≠ .running) (c : Chunk) :
    Arises host ⟨⟨t.start c, [], .main none, .running⟩ :: cells, w⟩
  /-- The host sets a global. -/
  | define {t past work activity cells w} (h : Arises host ⟨⟨t, past, work, activity⟩ :: cells, w⟩)
    (hidle : activity ≠ .running) (name : String) (v : Value) :
    Arises host
      ⟨⟨{ t with globals := t.globals.insert name v }, past, work, activity⟩ :: cells, w⟩
  /-- Files, output and time are not the session's alone. -/
  | outside {cells w w'} (h : Arises host ⟨cells, w⟩) (hpending : w'.pending = w.pending) :
    Arises host ⟨cells, w'⟩

/-- A thread at rest has no import in progress, and after a failure no stack. -/
inductive Cell.Steady (host : Host) : Cell → Prop
  | running {t past work} (history : History host (t :: past)) :
    Steady host ⟨t, past, work, .running⟩
  | resting {t past work activity} (rests : activity ≠ .running) (windows : t.windows = [])
    (imports : t.imports = 0) (stack : ∀ e, activity = .ended (.error e) → t.stack = #[]) :
    Steady host ⟨t, past, work, activity⟩

/-- Calls that wait have a thread on which nothing is in progress. -/
def World.WaitsFresh (w : World) : Prop :=
  ∀ task ∈ w.pending, ∀ t, task.job = .script t → t.Fresh

structure Pool.Steady (host : Host) (P : Pool) : Prop where
  cells : ∀ c ∈ P.cells, c.Steady host
  world : P.world.WaitsFresh

section
variable {host : Host} {t : Thread} {past : List Thread} {work : Work} {w w' : World}
  {before after cells : List Cell}

theorem Cell.Steady.history (h : Cell.Steady host ⟨t, past, work, .running⟩) :
    History host (t :: past) := by
  cases h with
  | running history => exact history
  | resting rests => exact absurd rfl rests

theorem Cell.Steady.rests {activity : Activity} (h : Cell.Steady host ⟨t, past, work, activity⟩)
    (hidle : activity ≠ .running) : t.windows = [] ∧ t.imports = 0 ∧
      ∀ e, activity = .ended (.error e) → t.stack = #[] := by
  cases h with
  | running => exact absurd rfl hidle
  | resting rests windows imports stack => exact ⟨windows, imports, stack⟩

theorem fresh_of_jobOf {callee : Value} {args : List Value} {u : Thread}
    (h : jobOf t callee args = .ok (.script u)) : u.Fresh := by
  unfold jobOf at h
  split at h
  · cases h
  · split at h
    · cases h
    · cases h
      exact ⟨rfl, rfl, rfl, rfl⟩
  · split at h
    · cases h
    · cases h
      exact ⟨rfl, rfl, rfl, rfl⟩
  · cases h

theorem exists_jobOf_of_spawnCheck? {r : Except RuntimeError Job} (h : t.spawnCheck? = some r) :
    ∃ callee args, r = jobOf t callee args := by
  simp only [Thread.spawnCheck?, Option.bind_eq_bind, Option.bind_eq_some_iff] at h
  obtain ⟨word, hword, operand, hoperand, h⟩ := h
  split at h
  · cases h
    exact ⟨_, _, rfl⟩
  · cases h

theorem World.WaitsFresh.of_sameCalls (h : w.WaitsFresh) (hcalls : w.SameCalls w') :
    w'.WaitsFresh :=
  fun task htask => h task (hcalls.pending ▸ htask)

/-- Whatever a step spawns is fresh. -/
theorem World.WaitsFresh.step (hnatives : host.LeavesCalls) (h : w.WaitsFresh) :
    (step host ⟨t, w⟩).world.WaitsFresh := by
  have hspawns := step_spawns hnatives t w
  cases hcheck : t.spawnCheck? with
  | none =>
    rw [hcheck] at hspawns
    exact h.of_sameCalls hspawns
  | some r =>
    obtain ⟨callee, args, hjob⟩ := exists_jobOf_of_spawnCheck? hcheck
    rw [hcheck] at hspawns
    cases r with
    | error e => exact h.of_sameCalls hspawns
    | ok job =>
      replace hspawns : (Machine.step host ⟨t, w⟩).world = w.spawn job := hspawns
      intro task htask u hu
      rw [hspawns] at htask
      rcases List.mem_append.mp htask with htask | htask
      · exact h task htask u hu
      · cases List.mem_singleton.mp htask
        exact fresh_of_jobOf (hjob.symm.trans (congrArg Except.ok hu))

/-- One thread has changed. -/
theorem Pool.Steady.replace {c c' : Cell} (h : Pool.Steady host ⟨before ++ c :: after, w⟩)
    (hc : c'.Steady host) (hw : w'.WaitsFresh) : Pool.Steady host ⟨before ++ c' :: after, w'⟩ := by
  refine ⟨fun d hd => ?_, hw⟩
  rcases List.mem_append.mp hd with hd | hd
  · exact h.cells d (List.mem_append_left _ hd)
  · rcases List.mem_cons.mp hd with rfl | hd
    · exact hc
    · exact h.cells d (List.mem_append_right _ (List.mem_cons_of_mem _ hd))

theorem World.WaitsFresh.launch {task : Task} {rest rest' : List Task} (h : w.WaitsFresh)
    (hw : w.pending = rest ++ task :: rest') :
    World.WaitsFresh { w with pending := rest ++ rest' } := by
  refine fun task' htask => h task' ?_
  rw [hw]
  rcases List.mem_append.mp htask with htask | htask
  · exact List.mem_append_left _ htask
  · exact List.mem_append_right _ (List.mem_cons_of_mem _ htask)

theorem World.WaitsFresh.failed (h : w.WaitsFresh) (work : Work) (e : RuntimeError) :
    (work.failed e w).WaitsFresh := by
  cases work <;> exact h

/-- What a step leaves of a thread. -/
theorem History.outcome_steady (hnatives : host.LeavesCalls) (h : History host (t :: past))
    (hw : w.WaitsFresh) (work : Work) : ((step host ⟨t, w⟩).cell (t :: past) work).Steady host ∧
      ((step host ⟨t, w⟩).worldFor work).WaitsFresh := by
  have hfresh := hw.step (t := t) hnatives
  cases hstep : step host ⟨t, w⟩ with
  | running s =>
    rw [hstep] at hfresh
    exact ⟨.running (h.next ⟨_, _, hstep⟩), hfresh⟩
  | finished v s =>
    rw [hstep] at hfresh
    obtain ⟨hwindows, himports⟩ := h.finished hstep
    exact ⟨.resting nofun hwindows himports nofun, hfresh⟩
  | failed e s =>
    rw [hstep] at hfresh
    obtain ⟨hwindows, himports⟩ := h.failed hstep
    exact ⟨.resting nofun hwindows himports fun _ _ => rfl, World.WaitsFresh.failed hfresh work e⟩

theorem Pool.Steady.launched (hnatives : host.LeavesCalls) (h : ∀ c ∈ cells, c.Steady host)
    (hw : w.WaitsFresh) {task : Task} (htask : ∀ u, task.job = .script u → u.Fresh) :
    (Pool.launched host cells w task).Steady host := by
  cases hjob : task.job with
  | script u =>
    simp only [Pool.launched, hjob]
    refine ⟨fun c hc => ?_, hw⟩
    rcases List.mem_append.mp hc with hc | hc
    · exact h c hc
    · cases List.mem_singleton.mp hc
      exact .running (.begin (htask u hjob))
  | native n args =>
    simp only [Pool.launched, hjob]
    have hcalls := hnatives n.builtin args w
    rcases hcall : host.call n.builtin args w with ⟨_ | v, w'⟩
    all_goals rw [hcall] at hcalls
    · exact ⟨h, (hw.of_sameCalls hcalls).failed _ _⟩
    · exact ⟨h, hw.of_sameCalls hcalls⟩

theorem Pool.Steady.move (hnatives : host.LeavesCalls) {P Q : Pool} (h : P.Steady host)
    (hmove : P.Move host Q) : Q.Steady host := by
  obtain ⟨before, after, t, past, work, w, rfl, rfl⟩ | ⟨cells, w, before, task, after, rfl, hw, rfl⟩ :=
    hmove.cases
  · have hcell := h.cells _ (List.mem_append_right _ List.mem_cons_self)
    obtain ⟨hcell', hworld⟩ := hcell.history.outcome_steady hnatives h.world work
    exact h.replace hcell' hworld
  · refine Pool.Steady.launched hnatives h.cells (h.world.launch hw) fun u hu => ?_
    exact h.world task (hw ▸ List.mem_append_right _ List.mem_cons_self) u hu

theorem steady_of_arises (hnatives : host.LeavesCalls) {P : Pool} (h : Arises host P) :
    P.Steady host := by
  induction h with
  | @initial t w hwindows himports hpending =>
    refine ⟨fun c hc => ?_, fun task htask => ?_⟩
    · cases List.mem_singleton.mp hc
      exact .resting nofun hwindows himports nofun
    · rw [hpending] at htask
      cases htask
  | move h hmove ih => exact ih.move hnatives hmove
  | @begin t past work activity cells w h hidle c ih =>
    obtain ⟨hwindows, himports, -⟩ := (ih.cells _ List.mem_cons_self).rests hidle
    replace ih : Pool.Steady host ⟨[] ++ ⟨t, past, work, activity⟩ :: cells, w⟩ := ih
    exact ih.replace (.running (.begin (.start hwindows himports c))) ih.world
  | @define t past work activity cells w h hidle name v ih =>
    obtain ⟨hwindows, himports, hstack⟩ := (ih.cells _ List.mem_cons_self).rests hidle
    replace ih : Pool.Steady host ⟨[] ++ ⟨t, past, work, activity⟩ :: cells, w⟩ := ih
    exact ih.replace (.resting hidle hwindows himports hstack) ih.world
  | outside h hpending ih => exact ⟨ih.cells, fun task htask => ih.world task (hpending ▸ htask)⟩

end

/-! ## Threads at rest -/

section
variable {host : Host} {cells more : List Cell} {c : Cell} {w : World} {Q : Pool}

/-- A thread that runs is not one of those at rest. -/
theorem split_of_rests {t : Thread} {past : List Thread} {work : Work} {before after : List Cell}
    (hrest : ∀ d ∈ cells, d.activity ≠ .running)
    (h : before ++ ⟨t, past, work, .running⟩ :: after = cells ++ more) :
    ∃ before', before = cells ++ before' ∧ more = before' ++ ⟨t, past, work, .running⟩ :: after := by
  obtain ⟨as, rfl, hmore⟩ | ⟨bs, rfl, hmore⟩ := List.append_eq_append_iff.mp h.symm
  · exact ⟨as, rfl, hmore⟩
  · cases bs with
    | nil => exact ⟨[], by simp, hmore.symm⟩
    | cons b bs =>
      cases hmore
      exact absurd rfl (hrest _ (List.mem_append_right _ List.mem_cons_self))

/-- Threads at rest have no part in what a session does. -/
theorem move_of_rests (hrest : ∀ d ∈ cells, d.activity ≠ .running)
    (h : Pool.Move host ⟨c :: (cells ++ more), w⟩ Q) :
    ∃ c' more' w', Q = ⟨c' :: (cells ++ more'), w'⟩ ∧
      Pool.Move host ⟨c :: more, w⟩ ⟨c' :: more', w'⟩ := by
  obtain ⟨before, after, t, past, work, v, heq, rfl⟩ | ⟨ds, v, before, task, after, heq, hv, rfl⟩ :=
    h.cases
  · cases before with
    | nil =>
      cases heq
      exact ⟨_, more, _, rfl, .of_step [] more t past work w⟩
    | cons b before =>
      simp only [List.cons_append, Pool.mk.injEq, List.cons.injEq] at heq
      obtain ⟨⟨rfl, heq⟩, rfl⟩ := heq
      obtain ⟨before', rfl, rfl⟩ := split_of_rests hrest heq.symm
      exact ⟨c, before' ++ _ :: after, _, by simp,
        .of_step (c :: before') after t past work w⟩
  · cases heq
    obtain ⟨new, w', -, hlaunched⟩ := Pool.launched_eq host { w with pending := before ++ after } task
    refine ⟨c, more ++ new, w', ?_, ?_⟩
    · rw [hlaunched, List.cons_append, List.append_assoc]
    · have hmove : Pool.Move host _ _ := .of_launch (c :: more) hv
      rw [hlaunched] at hmove
      exact hmove

theorem move_with_rests (cells : List Cell) (h : Pool.Move host ⟨c :: more, w⟩ Q) :
    ∃ c' more' w', Q = ⟨c' :: more', w'⟩ ∧
      Pool.Move host ⟨c :: (cells ++ more), w⟩ ⟨c' :: (cells ++ more'), w'⟩ := by
  obtain ⟨before, after, t, past, work, v, heq, rfl⟩ | ⟨ds, v, before, task, after, heq, hv, rfl⟩ :=
    h.cases
  · cases before with
    | nil =>
      cases heq
      exact ⟨_, more, _, rfl, .of_step [] (cells ++ more) t past work w⟩
    | cons b before =>
      cases heq
      refine ⟨c, _, _, rfl, ?_⟩
      have hmove : Pool.Move host _ _ := .of_step (c :: (cells ++ before)) after t past work w
      simpa using hmove
  · cases heq
    obtain ⟨new, w', -, hlaunched⟩ := Pool.launched_eq host { w with pending := before ++ after } task
    refine ⟨c, more ++ new, w', by rw [hlaunched]; rfl, ?_⟩
    have hmove : Pool.Move host _ _ := .of_launch (c :: (cells ++ more)) hv
    rw [hlaunched] at hmove
    simpa using hmove

theorem moves_of_rests (hrest : ∀ d ∈ cells, d.activity ≠ .running) {n : Nat}
    (h : Pool.Moves host n ⟨c :: (cells ++ more), w⟩ Q) :
    ∃ c' more' w', Q = ⟨c' :: (cells ++ more'), w'⟩ ∧
      Pool.Moves host n ⟨c :: more, w⟩ ⟨c' :: more', w'⟩ := by
  induction n generalizing c more w with
  | zero =>
    cases h
    exact ⟨c, more, w, rfl, rfl⟩
  | succ n ih =>
    obtain ⟨P₁, hmove, h⟩ := h
    obtain ⟨c₁, more₁, w₁, rfl, hmove'⟩ := move_of_rests hrest hmove
    obtain ⟨c', more', w', hQ, hmoves⟩ := ih h
    exact ⟨c', more', w', hQ, _, hmove', hmoves⟩

theorem moves_with_rests (cells : List Cell) {n : Nat}
    (h : Pool.Moves host n ⟨c :: more, w⟩ Q) :
    ∃ c' more' w', Q = ⟨c' :: more', w'⟩ ∧
      Pool.Moves host n ⟨c :: (cells ++ more), w⟩ ⟨c' :: (cells ++ more'), w'⟩ := by
  induction n generalizing c more w with
  | zero =>
    cases h
    exact ⟨c, more, w, rfl, rfl⟩
  | succ n ih =>
    obtain ⟨P₁, hmove, h⟩ := h
    obtain ⟨c₁, more₁, w₁, rfl, hmove'⟩ := move_with_rests cells hmove
    obtain ⟨c', more', w', hQ, hmoves⟩ := ih h
    exact ⟨c', more', w', hQ, _, hmove', hmoves⟩

end

/-! ## Sessions that differ in the numbers of their spawned calls -/

/-- Nothing differs but the numbers of spawned calls: there were `k` more of them on the left. -/
def renumbering (k : Nat) : Correspondence where
  function := Eq
  place i a j b := i = j ∧ a = b
  fresh _ _ := True
  lead _ := 0
  numbers := k

theorem interchangeable_eq : Interchangeable (@Eq Function) where
  name h := congrArg Function.name h
  arity h := congrArg Function.arity h
  sameCode := by
    rintro f _ f' _ rfl rfl
    rfl

theorem renumbering_lasting (k : Nat) : (renumbering k).Lasting where
  functions := interchangeable_eq
  entry := by
    rintro f _ rfl
    exact ⟨rfl, rfl⟩
  load _ _ _ := ⟨rfl, rfl⟩
  next := id
  child _ _ := ⟨trivial, rfl⟩

theorem renumbering_closed (k : Nat) : (renumbering k).Closed := by
  rintro i a _ _ ⟨rfl, rfl⟩
  have hsame : SameUnit (renumbering k) i i := ⟨rfl, fun _ => ⟨rfl, rfl⟩, fun _ => rfl⟩
  exact .meets (hsame.meets a)

/-- What can be seen of a session from outside, and the objects, is the same but for the numbers of
spawned calls in reports, which are `k` less on the right. -/
structure SameShown (k : Nat) (t : Thread) (w : World) (t' : Thread) (w' : World) : Prop where
  globals : t.globals = t'.globals
  stack : t.stack = t'.stack
  heap : w.heap = w'.heap
  files : w.files = w'.files
  printed : w.printed = w'.printed
  reports : Pairs (ReportLike (renumbering k)) w.reports w'.reports

section
variable {k : Nat} {t t' : Thread} {w w' : World}

theorem sameShown_of_like (ht : t.Like (renumbering k) t') (hw : w.Like (renumbering k) w') :
    SameShown k t w t' w' := by
  have hvalue : ∀ v v', Value.Like (renumbering k).function v v' → v = v' :=
    fun v v' h => h.eq_of_eq fun _ _ => id
  have hclasses : w.heap.classes = w'.heap.classes :=
    Pairs.eq_of_eq hw.heap.classes fun _ _ h => Table.Related.eq_of_eq h fun _ _ => id
  have hinstances : w.heap.instances = w'.heap.instances :=
    Pairs.eq_of_eq hw.heap.instances fun _ _ h => Table.Related.eq_of_eq h hvalue
  refine ⟨Table.Related.eq_of_eq ht.globals hvalue, Pairs.eq_of_eq ht.stack hvalue, ?_, hw.files,
    hw.printed, hw.reports⟩
  cases hheap : w.heap
  cases hheap' : w'.heap
  simp only [hheap, hheap'] at hclasses hinstances
  rw [hclasses, hinstances]

theorem result_eq_of_like {r r' : Except RuntimeError Value}
    (h : ResultLike (Value.Like (renumbering k).function) r r') : r = r' := by
  obtain ⟨e, rfl, rfl⟩ | ⟨v, v', rfl, rfl, hv⟩ := h.cases
  · rfl
  · rw [hv.eq_of_eq fun _ _ => id]

end

/-! ## New sessions -/

/-- The thread of a new session that takes over the globals of another one. The names of units and
calls only tell them apart from those there have been, so they go on being counted. -/
def Thread.renewed (t : Thread) : Thread where
  id := t.id
  globals := t.globals
  loaded := t.loaded
  spawned := t.spawned

/-- The world of a new session that takes over objects, files and output from another one. -/
def World.renewed (w : World) : World := { w with threads := 0, pending := [] }

/-- The main threads of two sessions are about the same, and the sessions show the same. -/
def Pool.SameShown (k : Nat) (P P' : Pool) : Prop :=
  ∃ c cells c' cells', P.cells = c :: cells ∧ P'.cells = c' :: cells' ∧ c.activity = c'.activity ∧
    Machine.SameShown k c.thread P.world c'.thread P'.world

section
variable {k : Nat} {t : Thread} {w : World} {host : Host}

/-- A thread at rest begins a run like a new one. -/
theorem start_renewed (hwindows : t.windows = []) (himports : t.imports = 0) (c : Chunk) :
    t.renewed.start c = t.start c := by
  simp only [Thread.start, Thread.renewed, hwindows, himports]

theorem start_like (hwindows : t.windows = []) (c : Chunk) :
    (t.start c).Like (renumbering k) (t.start c) where
  id := rfl
  globals := .refl _ fun e _ => Value.Like.refl (fun _ => rfl) e.2
  stack := .empty
  frames := .empty
  base := rfl
  handler := .none
  windows := by
    simp only [Thread.start, hwindows]
    exact .nil
  imports := rfl
  loaded := rfl
  spawned := rfl
  fresh := trivial

theorem renewed_like (hpending : w.pending = []) : w.Like (renumbering w.threads) w.renewed where
  heap :=
    ⟨.refl _ fun u _ => .refl u fun _ _ => rfl,
      .refl _ fun u _ => .refl u fun e _ => Value.Like.refl (fun _ => rfl) e.2⟩
  files := rfl
  printed := rfl
  reports := .refl _ fun line _ => .same line
  threads := (Nat.zero_add _).symm
  pending := by
    simp only [World.renewed, hpending]
    exact .nil
  now := rfl
  questions := rfl

theorem sameShown_of_leftBy {r : Except RuntimeError Value} {s s' : State}
    (h : s.Like (renumbering k) s') :
    SameShown k (leftBy r s.thread) s.world (leftBy r s'.thread) s'.world := by
  cases r with
  | ok v => exact sameShown_of_like h.thread h.world
  | error e => exact sameShown_of_like (abandon_like h.thread) h.world

theorem Cell.Like.sameShown {c c' : Cell} {w' : World} (hc : c.Like (renumbering k) c')
    (hw : w.Like (renumbering k) w') (cells cells' : List Cell) :
    Pool.SameShown k ⟨c :: cells, w⟩ ⟨c' :: cells', w'⟩ := by
  refine ⟨c, cells, c', cells', rfl, rfl, ?_, sameShown_of_like hc.thread hw⟩
  have hactivity := hc.activity
  generalize c.activity = a at hactivity
  generalize c'.activity = a' at hactivity
  cases hactivity with
  | idle => rfl
  | running => rfl
  | ended h => rw [result_eq_of_like h]

end

/-- Running a chunk leads to the same in two sessions, up to the numbers of spawned calls. The
threads of the first session other than its main thread `t` are `cells`; the second one has none. -/
structure SameRuns (host : Host) (k : Nat) (c : Chunk) (t : Thread) (cells : List Cell) (w : World)
    (t' : Thread) (w' : World) : Prop where
  /-- The run of the chunk by itself. -/
  run : ∀ r s, (∃ fuel, interpret host fuel c ⟨t, w⟩ = some (r, s)) →
    ∃ fuel s', interpret host fuel c ⟨t', w'⟩ = some (r, s') ∧
      SameShown k s.thread s.world s'.thread s'.world
  run_back : ∀ r s', (∃ fuel, interpret host fuel c ⟨t', w'⟩ = some (r, s')) →
    ∃ fuel s, interpret host fuel c ⟨t, w⟩ = some (r, s) ∧
      SameShown k s.thread s.world s'.thread s'.world
  /-- The chunk and the calls that it spawns, in all their orders. -/
  moves : ∀ n P, Pool.Moves host n ⟨⟨t.start c, [], .main none, .running⟩ :: cells, w⟩ P →
    ∃ m P', Pool.Moves host m ⟨[⟨t'.start c, [], .main none, .running⟩], w'⟩ P' ∧ P.SameShown k P'
  moves_back : ∀ n P', Pool.Moves host n ⟨[⟨t'.start c, [], .main none, .running⟩], w'⟩ P' →
    ∃ m P, Pool.Moves host m ⟨⟨t.start c, [], .main none, .running⟩ :: cells, w⟩ P ∧ P.SameShown k P'

section
variable {t : Thread} {w : World} {host : Host} {cells : List Cell}

theorem sameRuns_renewed (hhost : host.Respects (renumbering w.threads)) (hwindows : t.windows = [])
    (himports : t.imports = 0) (hpending : w.pending = [])
    (hcells : ∀ d ∈ cells, d.activity ≠ .running) (c : Chunk) :
    SameRuns host w.threads c t cells w t.renewed w.renewed := by
  have hS := renumbering_lasting w.threads
  have hclosed : (renumbering w.threads).Closed := renumbering_closed _
  have hstart := start_renewed hwindows himports c
  have hlike : State.Like (renumbering w.threads) ⟨t.start c, w⟩ ⟨t.start c, w.renewed⟩ :=
    ⟨start_like hwindows c, renewed_like hpending⟩
  have hpool : Pool.Like (renumbering w.threads) ⟨[⟨t.start c, [], .main none, .running⟩], w⟩
      ⟨[⟨t.start c, [], .main none, .running⟩], w.renewed⟩ :=
    ⟨.cons ⟨hlike.thread, .main none none, .running ⟨rfl, rfl⟩⟩ .nil, hlike.world⟩
  refine ⟨fun r s hrun => ?_, fun r s' hrun => ?_, fun n P hmoves => ?_, fun n P' hmoves => ?_⟩
  · obtain ⟨s₁, hhalts, rfl⟩ := interpret_eq_some_iff.mp hrun
    obtain ⟨r', s₁', hhalts', hend⟩ := halts_like hS hclosed hhost hlike ⟨rfl, rfl⟩ hhalts
    obtain rfl := result_eq_of_like hend.result
    have hhalts₁ : Halts host (State.start ⟨t.renewed, w.renewed⟩ c) r s₁' := by
      rw [State.start, hstart]
      exact hhalts'
    obtain ⟨fuel, hrun'⟩ := interpret_eq_some_iff.mpr ⟨s₁', hhalts₁, rfl⟩
    exact ⟨fuel, _, hrun', sameShown_of_leftBy hend.state⟩
  · obtain ⟨s₁', hhalts', rfl⟩ := interpret_eq_some_iff.mp hrun
    rw [State.start, hstart] at hhalts'
    obtain ⟨r', s₁, hhalts, hend⟩ := halts_like_right hS hclosed hhost hlike ⟨rfl, rfl⟩ hhalts'
    obtain rfl := result_eq_of_like hend.result
    have hhalts₁ : Halts host (State.start ⟨t, w⟩ c) r' s₁ := hhalts
    obtain ⟨fuel, hrun'⟩ := interpret_eq_some_iff.mpr ⟨s₁, hhalts₁, rfl⟩
    exact ⟨fuel, _, hrun', sameShown_of_leftBy hend.state⟩
  · rw [← List.append_nil cells] at hmoves
    obtain ⟨d, more, w₁, rfl, hmain⟩ := moves_of_rests hcells hmoves
    obtain ⟨m, ⟨cells', w₁'⟩, hmoves', hlike'⟩ := moves_like hS hclosed hhost hpool hmain
    obtain ⟨hcells', hworld⟩ := hlike'
    cases hcells' with
    | cons hd => exact ⟨m, _, hstart.symm ▸ hmoves', hd.sameShown hworld _ _⟩
  · rw [hstart] at hmoves
    obtain ⟨m, Q, hmain, hlike'⟩ := moves_like_right hS hclosed hhost hpool hmoves
    obtain ⟨d, more, w₁, rfl, hmoves'⟩ := moves_with_rests cells hmain
    obtain ⟨cells', w₁'⟩ := P'
    obtain ⟨hcells', hworld⟩ := hlike'
    rw [List.append_nil] at hmoves'
    cases hcells' with
    | cons hd => exact ⟨m, _, hmoves', hd.sameShown hworld _ _⟩

end

/-- Runs of a session are independent of each other but for the globals and the objects. Take
any session, whatever chunks it has run or loaded, wherever these have failed, and whatever values its
host has put into globals. Its natives spawn no calls and do the same whatever numbers spawned calls
have. A thread whose run has failed has no stack. And once no spawned call waits or runs, the next run
of any chunk is that of a new session with the same globals, objects, files and output: it leads to the
same result or failure, output, globals and stack. -/
theorem same_of_renewed (host : Host) (hcalls : host.LeavesCalls)
    (hhost : ∀ k, host.Respects (renumbering k)) (P : Pool) (h : Arises host P) :
    (∀ c ∈ P.cells, ∀ e, c.activity = .ended (.error e) → c.thread.stack.size = 0) ∧
    ∀ t past work activity cells, P.cells = ⟨t, past, work, activity⟩ :: cells →
      (∀ c ∈ P.cells, c.activity ≠ .running) → P.world.pending = [] → ∀ c,
        SameRuns host P.world.threads c t cells P.world t.renewed P.world.renewed := by
  have hsteady := steady_of_arises hcalls h
  refine ⟨fun c hc e he => ?_, fun t past work activity cells hP hrest hpending c => ?_⟩
  · obtain ⟨-, -, hstack⟩ := (hsteady.cells c hc).rests (by rw [he]; nofun)
    rw [hstack e he]
    rfl
  · have hmain : ⟨t, past, work, activity⟩ ∈ P.cells := hP ▸ List.mem_cons_self
    obtain ⟨hwindows, himports, -⟩ := (hsteady.cells _ hmain).rests (hrest _ hmain)
    exact sameRuns_renewed (hhost _) hwindows himports hpending
      (fun d hd => hrest d (hP ▸ List.mem_cons_of_mem _ hd)) c

/-- Code that adds a value to one that is not there. -/
def addsOne : Chunk where
  name := "addsOne"
  code := #[Opcode.constant.encode, 0, Opcode.add.encode]
  constants := #[.null]

/-- After its failure the next run of any chunk is that of a new session. -/
theorem same_of_renewed_addsOne : ∃ P t past,
    Arises (Session.hostWith {} none) P ∧
    P.cells = [⟨t, past, .main none, .ended (.error .stackUnderflow)⟩] ∧ t.stack.size = 0 ∧
    ∀ c, SameRuns (Session.hostWith {} none) 0 c t [] P.world t.renewed P.world.renewed := by
  have hidle : Arises (Session.hostWith {} none) ⟨[⟨{}, [], .main none, .idle⟩], {}⟩ :=
    .initial rfl rfl rfl
  have hbegun := hidle.begin nofun addsOne
  have hpushed := hbegun.move (.of_step [] [] (Thread.start {} addsOne) [] (.main none) {})
  have hfailed := hpushed.move (.of_step [] [] _ _ (.main none) {})
  obtain ⟨hstack, hsame⟩ := same_of_renewed _ (Natives.leavesCalls_of_callForHost rfl)
    (fun _ => Natives.respects_of_callForHost interchangeable_eq rfl) _ hfailed
  refine ⟨_, _, _, hfailed, rfl, hstack _ List.mem_cons_self _ rfl, ?_⟩
  refine hsame _ _ _ _ _ rfl (fun d hd => ?_) rfl
  cases List.mem_singleton.mp hd
  nofun

end DotScript.Machine
