import DotScript.Proofs.Schedule.Agenda

/-!
# Spawned calls do not depend on the schedule

The threads of a session without classes have nothing in common but the output. So all orders in
which they can make their moves lead to the same end, after equally many moves: the same result and
globals of the main thread, the same lines of each thread, and the same failures of spawned calls.
What may differ is the order of lines of different threads, and the numbers of spawned calls.

* `Pool.items`: what is left to do in a session;
* `Pool.Shows`: what a session has shown;
* `Pool.Move.takes`: each move is one of an item;
* `Pool.Moves.plays`: moves that do everything give the yield of the items.

Main statement: `agree_of_complete`.
-/

namespace DotScript.Machine

open DotScript.Bytecode DotScript.Compile DotScript.Files DotScript.Syntax

/-! ## Pools as agendas -/

def Work.isMain : Work → Bool
  | .main _ => true
  | .call _ => false

/-- What a thread of a session has left to do. -/
def Cell.items (c : Cell) : List Item :=
  match c.activity with
  | .running => [.running c.work.isMain c.thread]
  | _ => []

def World.items (w : World) : List Item := w.pending.map fun task => .waiting task.job

/-- What is left to do in a session. -/
def Pool.items (P : Pool) : List Item := P.cells.flatMap Cell.items ++ P.world.items

/-- Nothing is left to do: no thread runs, and no spawned call waits. -/
structure Pool.Complete (P : Pool) : Prop where
  cells : ∀ c ∈ P.cells, c.activity ≠ .running
  pending : P.world.pending = []

/-- The result and the globals of the main thread, when it has ended. -/
def Cell.outcome? (c : Cell) : Option (Except RuntimeError Value × Table String Value) :=
  match c.work, c.activity with
  | .main _, .ended r => some (r, c.thread.globals)
  | _, _ => none

/-- How the main thread of a session has ended; none as long as it runs. -/
def Pool.outcomes (P : Pool) : List (Except RuntimeError Value × Table String Value) :=
  P.cells.filterMap Cell.outcome?

/-- The report of a failed spawned call, given its number and the message. -/
def failureReport (f : Nat × String) : String :=
  "[jihll-spawn-" ++ toString f.1 ++ "] runtime error: " ++ f.2

/-- What a session has shown, with the reports that came after `old`. -/
structure Pool.Shows (old : Array String) (P : Pool) (y : Yield) : Prop where
  lines : y.lines = P.world.printed.toList
  reports : ∃ failures : List (Nat × String),
    P.world.reports.toList = old.toList ++ failures.map failureReport ∧
      y.messages = failures.map (·.2)
  ends : y.ends = P.outcomes

section
variable {host : Host} {R : Realm} {P P' : Pool} {w : World} {before after cells : List Cell}
  {c c' : Cell} {s : Signal} {y : Yield} {old : Array String} {id : ThreadId} {n m : Nat}

theorem Pool.items_eq_nil : P.items = [] ↔ P.Complete := by
  simp only [Pool.items, World.items, List.append_eq_nil_iff, List.flatMap_eq_nil_iff,
    List.map_eq_nil_iff]
  constructor
  · rintro ⟨hcells, hpending⟩
    refine ⟨fun c hc hrunning => ?_, hpending⟩
    have hitems := hcells c hc
    simp only [Cell.items, hrunning] at hitems
    cases hitems
  · rintro ⟨hcells, hpending⟩
    refine ⟨fun c hc => ?_, hpending⟩
    have hrests := hcells c hc
    cases hactivity : c.activity with
    | running => exact absurd hactivity hrests
    | idle | ended => simp only [Cell.items, hactivity]

/-- The items of one thread, apart from those of the others. -/
theorem Pool.items_perm (before after : List Cell) (c : Cell) (w : World) :
    (Pool.items ⟨before ++ c :: after, w⟩).Perm (c.items ++ Pool.items ⟨before ++ after, w⟩) := by
  simp only [Pool.items, List.flatMap_append, List.flatMap_cons, List.append_assoc]
  exact List.perm_append_comm_assoc ..

theorem Signal.items_told (id : ThreadId) (w : World) (s : Signal) :
    (s.told id w).items = w.items ++ s.items := by
  cases s <;> simp [Signal.told, World.items, Signal.items]

/-! ## What moves show -/

theorem Pool.Shows.told (h : Pool.Shows old ⟨cells, w⟩ y) (id : ThreadId) (s : Signal) :
    Pool.Shows old ⟨cells, s.told id w⟩ (y ++ s.yield id) := by
  cases s with
  | silent | spawn job =>
    simp only [Signal.yield, Yield.append_empty]
    exact ⟨h.lines, h.reports, h.ends⟩
  | line text =>
    refine ⟨?_, ?_, ?_⟩
    · simp only [Signal.yield, Signal.told, Yield.lines_append, Array.toList_push, h.lines]
    · simpa [Signal.yield, Signal.told] using h.reports
    · exact (List.append_nil _).trans h.ends

/-- A thread that goes on running shows nothing by that. -/
theorem Pool.Shows.replace (h : Pool.Shows old ⟨before ++ c :: after, w⟩ y)
    (hc : c.outcome? = c'.outcome?) : Pool.Shows old ⟨before ++ c' :: after, w⟩ y where
  lines := h.lines
  reports := h.reports
  ends := by
    rw [h.ends]
    simp only [Pool.outcomes, List.filterMap_append, List.filterMap_cons, hc]

theorem Pool.Shows.failed {number : Nat} {e : RuntimeError} (h : Pool.Shows old ⟨cells, w⟩ y) :
    Pool.Shows old ⟨cells, (Work.call number).failed e w⟩ (y ++ { messages := [e.message] }) where
  lines := by simpa [Work.failed, World.report] using h.lines
  reports := by
    obtain ⟨failures, hreports, hmessages⟩ := h.reports
    replace hreports : w.reports.toList = old.toList ++ failures.map failureReport := hreports
    refine ⟨failures ++ [(number, e.message)], ?_, by simp [hmessages]⟩
    simp only [Work.failed, World.report, Array.toList_push, hreports, List.map_append,
      List.append_assoc]
    rfl
  ends := (List.append_nil _).trans h.ends

/-- The end of the main thread shows its result and globals, that of a spawned call its failure. -/
theorem Pool.Shows.ended {t : Thread} {past past' : List Thread} {work : Work}
    (h : Pool.Shows old ⟨before ++ ⟨t, past, work, .running⟩ :: after, w⟩ y)
    (r : Except RuntimeError Value) (t' : Thread) : ∃ y',
      Pool.Shows old ⟨before ++ ⟨t', past', work, .ended r⟩ :: after, work.ended r w⟩ y' ∧
        y'.Same (y ++ .ofEnd work.isMain r t') := by
  cases work with
  | main p =>
    have hworld : (Work.main p).ended r w = w := by cases r <;> rfl
    have hrunning : Cell.outcome? ⟨t, past, .main p, .running⟩ = none := rfl
    have hended : Cell.outcome? ⟨t', past', .main p, .ended r⟩ = some (r, t'.globals) := rfl
    have hends : y.ends = before.filterMap Cell.outcome? ++ after.filterMap Cell.outcome? := by
      rw [h.ends, Pool.outcomes, List.filterMap_append, List.filterMap_cons_none hrunning]
    refine ⟨{ y with ends := before.filterMap Cell.outcome? ++
      (r, t'.globals) :: after.filterMap Cell.outcome? }, ?_, ?_⟩
    · rw [hworld]
      refine ⟨h.lines, h.reports, ?_⟩
      rw [Pool.outcomes, List.filterMap_append, List.filterMap_cons_some hended]
    · refine ⟨fun id => ?_, ?_, ?_⟩
      · simp [Yield.ofEnd, Work.isMain]
      · simp [Yield.ofEnd, Work.isMain]
      · simp only [Yield.ends_append, hends, Yield.ofEnd, Work.isMain, if_true, List.append_assoc]
        exact (List.perm_append_singleton _ _).symm.append_left _
  | call number =>
    have hcells : Pool.Shows old ⟨before ++ ⟨t', past', .call number, .ended r⟩ :: after, w⟩ y :=
      h.replace rfl
    cases r with
    | ok v =>
      refine ⟨y, hcells, ?_⟩
      simp only [Yield.ofEnd, Work.isMain, Bool.false_eq_true, if_false, Yield.append_empty]
      exact .refl y
    | error e => exact ⟨_, hcells.failed, .refl _⟩

/-! ## Moves of items -/

/-- A move of a session is one of an item, with its yield and what it leaves to do. -/
structure Pool.Takes (host : Host) (P P' : Pool) (i : Item) (y : Yield) (new rest : List Item) :
    Prop where
  before : P.items.Perm (i :: rest)
  advances : i.Advances host P.world.files y new
  after : P'.items.Perm (new ++ rest)
  files : P'.world.files = P.world.files
  shows : ∀ {old z}, P.Shows old z → ∃ z', P'.Shows old z' ∧ z'.Same (z ++ y)

/-- A step of a thread that runs. -/
theorem Pool.Good.exists_advances (hobjects : ¬ R.objects) (hpure : host.PureIn R)
    {t : Thread} {past : List Thread} {work : Work}
    (h : Pool.Good host R ⟨before ++ ⟨t, past, work, .running⟩ :: after, w⟩) :
    ∃ s a, Advances host w.files t s a := by
  have hcell := h.cells _ (List.mem_append_right _ List.mem_cons_self)
  obtain ⟨-, Ls, htracked, -⟩ := hcell.tracked
  obtain ⟨-, hstands, -⟩ := htracked.runs
  exact Machine.exists_advances (local_of_stands hobjects hpure w.files hstands)

/-- A thread that runs takes a step. -/
theorem Pool.Takes.of_step {t : Thread} {past : List Thread} {work : Work} {i : Item}
    {new : List Item} (hi : i.Advances host w.files y (new ++ s.items))
    (hrunning : (⟨t, past, work, .running⟩ : Cell).items = [i]) (hnew : c'.items = new)
    {w' : World} (hitems : w'.items = (s.told t.id w).items)
    (hfiles : w'.files = (s.told t.id w).files)
    (hshows : ∀ {old z}, Pool.Shows old ⟨before ++ ⟨t, past, work, .running⟩ :: after, w⟩ z →
      ∃ z', Pool.Shows old ⟨before ++ c' :: after, w'⟩ z' ∧ z'.Same (z ++ y)) :
    Pool.Takes host ⟨before ++ ⟨t, past, work, .running⟩ :: after, w⟩ ⟨before ++ c' :: after, w'⟩ i y
      (new ++ s.items) (Pool.items ⟨before ++ after, w⟩) where
  before := by
    have hperm := Pool.items_perm before after ⟨t, past, work, .running⟩ w
    rwa [hrunning] at hperm
  advances := hi
  after := by
    refine (Pool.items_perm before after c' w').trans ?_
    rw [hnew, List.append_assoc]
    refine List.Perm.append_left _ ?_
    simp only [Pool.items, hitems, Signal.items_told]
    rw [← List.append_assoc]
    exact List.perm_append_comm
  files := hfiles.trans (Signal.told_files ..)
  shows := hshows

/-- A waiting call is taken up. -/
theorem Pool.Takes.of_waiting {task : Task} {first rest : List Task} {new : List Item} {w' : World}
    {cells' : List Cell} (hw : w.pending = first ++ task :: rest)
    (hi : (Item.waiting task.job).Advances host w.files y new)
    (hcells : cells'.flatMap Cell.items = cells.flatMap Cell.items ++ new)
    (hpending : w'.pending = first ++ rest) (hfiles : w'.files = w.files)
    (hshows : ∀ {old z}, Pool.Shows old ⟨cells, w⟩ z →
      ∃ z', Pool.Shows old ⟨cells', w'⟩ z' ∧ z'.Same (z ++ y)) :
    Pool.Takes host ⟨cells, w⟩ ⟨cells', w'⟩ (.waiting task.job) y new (Pool.items ⟨cells, w'⟩) where
  before := by
    simp only [Pool.items, World.items, hw, hpending, List.map_append, List.map_cons]
    rw [← List.append_assoc, ← List.append_assoc]
    exact List.perm_middle
  advances := hi
  after := by
    simp only [Pool.items, hcells, List.append_assoc]
    exact List.perm_append_comm_assoc ..
  files := hfiles
  shows := hshows

theorem Pool.Good.native_of_pending {task : Task} {first rest : List Task} {b : Native}
    {args : List Value} (h : Pool.Good host R ⟨cells, w⟩) (hw : w.pending = first ++ task :: rest)
    (hjob : task.job = .native b args) : R.native b.builtin := by
  have hin := h.world.pending task (hw ▸ List.mem_append_right _ List.mem_cons_self)
  rw [hjob] at hin
  exact hin.1

/-- Each move of a session is one of an item. -/
theorem Pool.Move.takes (hobjects : ¬ R.objects) (hpure : host.PureIn R) (hgood : P.Good host R)
    (h : P.Move host P') : ∃ i y new rest, Pool.Takes host P P' i y new rest := by
  cases h with
  | @run before after t past work w s hstep =>
    obtain ⟨σ, a, hs⟩ := hgood.exists_advances hobjects hpure
    have houtcome := hstep.symm.trans (hs.step w rfl)
    cases a with
    | finished | failed => cases houtcome
    | running t' =>
      cases houtcome
      refine ⟨_, _, _, _, .of_step (.run hs) rfl rfl rfl rfl fun {old z} hz => ?_⟩
      have hcells : Pool.Shows old
          ⟨before ++ ⟨t', t :: past, work, .running⟩ :: after, w⟩ z :=
        hz.replace (by cases work <;> rfl)
      exact ⟨_, hcells.told t.id σ, .refl _⟩
  | @finish before after t past work w v s hstep =>
    obtain ⟨σ, a, hs⟩ := hgood.exists_advances hobjects hpure
    have houtcome := hstep.symm.trans (hs.step w rfl)
    cases a with
    | running | failed => cases houtcome
    | finished v t' =>
      cases houtcome
      refine ⟨_, _, _, _, .of_step (.finish hs) rfl rfl rfl rfl fun hz => ?_⟩
      obtain ⟨z', hz', hsame⟩ := (hz.told t.id σ).ended (.ok v) t'
      exact ⟨z', hz', by rwa [← Yield.append_assoc]⟩
  | @fail before after t past work w e s hstep =>
    obtain ⟨σ, a, hs⟩ := hgood.exists_advances hobjects hpure
    have houtcome := hstep.symm.trans (hs.step w rfl)
    cases a with
    | running | finished => cases houtcome
    | failed e t' =>
      cases houtcome
      have hitems : (work.failed e (σ.told t.id w)).items = (σ.told t.id w).items := by
        cases work <;> rfl
      have hfiles : (work.failed e (σ.told t.id w)).files = (σ.told t.id w).files := by
        cases work <;> rfl
      refine ⟨_, _, _, _, .of_step (.fail hs) rfl rfl hitems hfiles fun hz => ?_⟩
      obtain ⟨z', hz', hsame⟩ := (hz.told t.id σ).ended (.error e) t'.abandon
      exact ⟨z', hz', by rwa [← Yield.append_assoc]⟩
  | @launch cells w before task after t hw hjob =>
    have hi : (Item.waiting task.job).Advances host w.files {} [.running false t] := by
      rw [hjob]
      exact .launch
    refine ⟨_, _, _, _, .of_waiting hw hi (by simp [Cell.items, Work.isMain]) rfl rfl
      fun {old z} hz => ⟨z, ⟨hz.lines, hz.reports, ?_⟩, ?_⟩⟩
    · rw [hz.ends]
      simp [Pool.outcomes, Cell.outcome?]
    · rw [Yield.append_empty]
      exact .refl z
  | @native cells w before task after n args v w' hw hjob hcall =>
    obtain ⟨r, heval, -⟩ := hpure n.builtin (hgood.native_of_pending hw hjob) args
    cases hcall.symm.trans (heval _)
    have hi : (Item.waiting task.job).Advances host w.files {} [] := by
      rw [hjob]
      exact .native heval
    refine ⟨_, _, _, _, .of_waiting hw hi (List.append_nil _).symm rfl rfl
      fun {old z} hz => ⟨z, ⟨hz.lines, hz.reports, hz.ends⟩, ?_⟩⟩
    rw [Yield.append_empty]
    exact .refl z
  | @nativeFail cells w before task after n args message w' hw hjob hcall =>
    obtain ⟨r, heval, -⟩ := hpure n.builtin (hgood.native_of_pending hw hjob) args
    cases hcall.symm.trans (heval _)
    have hi : (Item.waiting task.job).Advances host w.files
        { messages := [(RuntimeError.native n.name message).message] } [] := by
      rw [hjob]
      exact .nativeFail heval
    refine ⟨_, _, _, _, .of_waiting hw hi (List.append_nil _).symm rfl rfl fun {old z} hz => ?_⟩
    have htaken : Pool.Shows old ⟨cells, { w with pending := before ++ after }⟩ z :=
      ⟨hz.lines, hz.reports, hz.ends⟩
    exact ⟨_, htaken.failed, .refl _⟩

/-! ## All moves -/

/-- A session of a realm without objects, whose items have no names in common. -/
structure Pool.Separate (host : Host) (R : Realm) (P : Pool) : Prop where
  good : P.Good host R
  apart : P.items.Pairwise Item.Apart

section
variable (hR : R.OfCode) (hobjects : ¬ R.objects) (hpure : host.PureIn R)
  (hload : host.LoadsFrom R.program)
include hR hobjects hpure hload

theorem Pool.Separate.move (h : P.Separate host R) (hmove : P.Move host P') :
    P'.Separate host R := by
  obtain ⟨i, y, new, rest, htakes⟩ := hmove.takes hobjects hpure h.good
  refine ⟨h.good.move hR hpure.inertIn hload hmove, ?_⟩
  have hapart := (htakes.before.pairwise_iff Item.Apart.symm).mp h.apart
  exact (htakes.after.pairwise_iff Item.Apart.symm).mpr (htakes.advances.keeps.pairwise hapart)

/-- Moves that do everything give the yield of the items. -/
theorem Pool.Moves.plays (h : Moves host n P P') (hP : P.Separate host R) (hdone : P'.Complete)
    (hshows : P.Shows old y) : ∃ y' z, Plays host P.world.files P.items n y' ∧ P'.Shows old z ∧
      z.Same (y ++ y') := by
  induction n generalizing P y with
  | zero =>
    cases h
    refine ⟨{}, y, ?_, hshows, ?_⟩
    · rw [Pool.items_eq_nil.mpr hdone]
      exact .nil
    · rw [Yield.append_empty]
      exact .refl y
  | succ n ih =>
    obtain ⟨P₁, hmove, h⟩ := h
    obtain ⟨i, a, new, rest, htakes⟩ := hmove.takes hobjects hpure hP.good
    have hP₁ := hP.move hR hobjects hpure hload hmove
    obtain ⟨y₁, hshows₁, hsame₁⟩ := htakes.shows hshows
    obtain ⟨z₁, z, hplays₁, hshows', hsame⟩ := ih h hP₁ hshows₁
    rw [htakes.files] at hplays₁
    obtain ⟨_, hall, hsame₂⟩ := hplays₁.perm htakes.after hP₁.apart
    obtain ⟨k, l, b, c, hnew, hrest, rfl, rfl⟩ := hall.of_append
    have hapart := (htakes.before.pairwise_iff Item.Apart.symm).mp hP.apart
    obtain ⟨y', hplays, hsame₃⟩ :=
      (Plays.cons htakes.advances hnew hrest).perm htakes.before.symm hapart
    refine ⟨y', z, hplays, hshows', ?_⟩
    have hsame₄ : (y₁ ++ z₁).Same (y ++ (a ++ b ++ c)) := by
      have hboth := hsame₁.append hsame₂
      rwa [Yield.append_assoc, ← Yield.append_assoc a] at hboth
    exact (hsame.trans hsame₄).trans ((Yield.Same.refl y).append hsame₃)

/-- Each move takes one off the number of moves that are left. -/
theorem Pool.Moves.plays_rest (h : Moves host m P P') (hP : P.Separate host R)
    (hplays : Plays host P.world.files P.items n y) :
    ∃ k z, n = m + k ∧ Plays host P'.world.files P'.items k z := by
  induction m generalizing P n y with
  | zero =>
    cases h
    exact ⟨n, y, (Nat.zero_add n).symm, hplays⟩
  | succ m ih =>
    obtain ⟨P₁, hmove, h⟩ := h
    obtain ⟨i, a, new, rest, htakes⟩ := hmove.takes hobjects hpure hP.good
    have hP₁ := hP.move hR hobjects hpure hload hmove
    obtain ⟨_, hfirst, -⟩ := hplays.perm htakes.before hP.apart
    cases hfirst with
    | @cons _ _ a' new' k b l c hi hnew hrest =>
      obtain ⟨rfl, rfl⟩ := htakes.advances.unique hi
      obtain ⟨_, hall, -⟩ := (hnew.append hrest).perm htakes.after.symm
        ((htakes.after.pairwise_iff Item.Apart.symm).mp hP₁.apart)
      rw [← htakes.files] at hall
      obtain ⟨j, z, hj, hz⟩ := ih h hP₁ hall
      exact ⟨j, z, by omega, hz⟩

end

/-- As long as something is left to do, there is a move. -/
theorem Pool.exists_move (h : ¬ P.Complete) : ∃ P', P.Move host P' := by
  by_cases hpending : P.world.pending = []
  · obtain ⟨c, hc, hrunning⟩ : ∃ c ∈ P.cells, c.activity = .running := by
      by_contra hnone
      exact h ⟨fun c hc hrunning => hnone ⟨c, hc, hrunning⟩, hpending⟩
    obtain ⟨cells, w⟩ := P
    obtain ⟨t, past, work, activity⟩ := c
    cases hrunning
    obtain ⟨before, after, rfl⟩ := List.append_of_mem hc
    cases hstep : step host ⟨t, w⟩ with
    | running s => exact ⟨_, .run hstep⟩
    | finished v s => exact ⟨_, .finish hstep⟩
    | failed e s => exact ⟨_, .fail hstep⟩
  · obtain ⟨task, rest, hw⟩ := List.exists_cons_of_ne_nil hpending
    obtain ⟨cells, w⟩ := P
    replace hw : w.pending = [] ++ task :: rest := hw
    cases hjob : task.job with
    | script t => exact ⟨_, .launch hw hjob⟩
    | native n args =>
      rcases hcall : host.call n.builtin args { w with pending := [] ++ rest } with ⟨r, w'⟩
      cases r with
      | ok v => exact ⟨_, .native hw hjob hcall⟩
      | error message => exact ⟨_, .nativeFail hw hjob hcall⟩

end

/-! ## Schedules -/

/-- The main thread is about to run a program. -/
def Pool.start (t : Thread) (w : World) (p : Program) (c : Chunk) : Pool :=
  ⟨[⟨t.start c, [], .main (some p), .running⟩], w⟩

/-- Two sessions have shown the same, if the order of lines of different threads and the numbers of
spawned calls are left out of account. Before them there were the reports `old`. -/
structure Pool.Agree (old : Array String) (P P' : Pool) : Prop where
  /-- The main thread has ended with the same result and the same globals. -/
  main : ∃ r globals, P.outcomes = [(r, globals)] ∧ P'.outcomes = [(r, globals)]
  /-- Each thread has printed the same lines in the same order. -/
  lines : ∀ id, linesOf id P.world.printed.toList = linesOf id P'.world.printed.toList
  printed : P.world.printed.toList.Perm P'.world.printed.toList
  /-- Calls with the same messages have failed. -/
  reports : ∃ failures failures' : List (Nat × String),
    P.world.reports.toList = old.toList ++ failures.map failureReport ∧
      P'.world.reports.toList = old.toList ++ failures'.map failureReport ∧
        (failures.map (·.2)).Perm (failures'.map (·.2))

/-- Spawned calls do not depend on the schedule. Take a program without class declarations, and a
loader that gives such programs only. The globals hold functions of such programs, no classes and
no instances, and those natives that can be got at neither read nor change the world. If some order
of the instructions of all threads comes to an end after `n` moves, then all orders do, after
equally many moves, and they show the same: the result and the globals of the main thread, the
lines of each thread, all lines but for their order, and the reports of failed calls but for their
order and the numbers of the calls. -/
theorem agree_of_complete (host : Host) (natives : Builtin → Prop)
    (hpure : host.PureIn (functionRealm natives))
    (hload : host.LoadsFrom fun p => p.classFree = true) (p : Program) (c : Chunk)
    (hc : CompiledFrom (fun p => p.classFree = true) p c) (t : Thread) (w : World)
    (hglobals : t.globals.In (functionRealm natives)) (hwindows : t.windows = [])
    (himports : t.imports = 0) (hpending : w.pending = []) (n : Nat) (P : Pool)
    (hrun : Pool.Moves host n (.start t w p c) P) (hdone : P.Complete) (m : Nat) (P' : Pool)
    (hrun' : Pool.Moves host m (.start t w p c) P') :
    m ≤ n ∧ (P'.Complete ∨ ∃ P'', P'.Move host P'') ∧
      (P'.Complete → m = n ∧ P.Agree w.reports P') := by
  have hR := functionRealm_ofCode natives
  have hobjects : ¬ (functionRealm natives).objects := id
  have hstart : (Pool.start t w p c).Separate host (functionRealm natives) := by
    refine ⟨⟨fun d hd => ?_, functionRealm_heap natives w.heap, ?_⟩, ?_⟩
    · cases List.mem_singleton.mp hd
      refine .running (.begin (.start hwindows himports c))
        (.begin (Runs.start hR hc hglobals hwindows)) fun p' hp => ?_
      cases hp
      exact ⟨_, List.suffix_refl _⟩
    · simp only [Pool.start, hpending]
      nofun
    · simp [Pool.items, Pool.start, Cell.items, World.items, hpending]
  have hshows : (Pool.start t w p c).Shows w.reports { lines := w.printed.toList } :=
    ⟨rfl, ⟨[], by simp [Pool.start], rfl⟩, rfl⟩
  obtain ⟨y, z, hplays, hz, hsame⟩ := hrun.plays hR hobjects hpure hload hstart hdone hshows
  obtain ⟨k, x, hk, -⟩ := hrun'.plays_rest hR hobjects hpure hload hstart hplays
  refine ⟨by omega, Classical.or_iff_not_imp_left.mpr Pool.exists_move, fun hdone' => ?_⟩
  obtain ⟨y', z', hplays', hz', hsame'⟩ :=
    hrun'.plays hR hobjects hpure hload hstart hdone' hshows
  obtain ⟨rfl, rfl⟩ := hplays.unique hplays'
  have hall := hsame.trans hsame'.symm
  obtain ⟨o, ho⟩ : ∃ o, y.ends = [o] := by
    refine List.length_eq_one_iff.mp (hplays.length_ends.trans ?_)
    simp [Pool.items, Pool.start, Cell.items, World.items, hpending, Item.isMain, Work.isMain]
  have hmain : ∀ {Q x}, Pool.Shows w.reports Q x → x.Same ({ lines := w.printed.toList } ++ y) →
      Q.outcomes = [o] := by
    intro Q x hQ hx
    have hperm := hx.ends
    simp only [Yield.ends_append, List.nil_append, ho] at hperm
    rw [← hQ.ends]
    exact List.perm_singleton.mp hperm
  have hlines : ∀ id, linesOf id P.world.printed.toList = linesOf id P'.world.printed.toList := by
    rw [← hz.lines, ← hz'.lines]
    exact hall.lines
  obtain ⟨failures, hfailures, hmessages⟩ := hz.reports
  obtain ⟨failures', hfailures', hmessages'⟩ := hz'.reports
  exact ⟨rfl, ⟨o.1, o.2, hmain hz hsame, hmain hz' hsame'⟩, hlines, Yield.perm_of_linesOf hlines,
    failures, failures', hfailures, hfailures', hmessages ▸ hmessages' ▸ hall.messages⟩

/-! ## Two schedules -/

/-- A session that runs a chunk, and then the calls it has spawned. -/
theorem moves_runChunk {s s' : Session} {fuel : Nat} {c : Chunk} {r : Except RuntimeError Value}
    (h : s.runChunk fuel c = some (r, s')) (p : Program) : ∃ n P,
      Pool.Moves s.host n (.start s.state.thread s.state.world p c) P ∧ P.Complete ∧
        P.world = s'.state.world := by
  simp only [Session.runChunk, Session.interpretChunk, Session.settled, Option.bind_eq_bind,
    Option.bind_eq_some_iff] at h
  obtain ⟨⟨r₁, s₁⟩, ⟨⟨r, s₂⟩, hinterpret, hr⟩, s₃, ⟨w, hsettle, hw⟩, heq⟩ := h
  cases hr
  cases hw
  cases heq
  obtain ⟨s₁, hrun, rfl⟩ := exists_run_of_interpret hinterpret
  obtain ⟨n, past, hmoves⟩ := moves_run hrun [] [] [] (.main (some p))
  have hworld : (Work.main (some p)).ended r s₁.world = s₁.world := by cases r <;> rfl
  rw [hworld] at hmoves
  obtain ⟨hpending, m, more, hended, hmoves'⟩ := moves_settle hsettle
    [⟨leftBy r s₁.thread, past, .main (some p), .ended r⟩]
  refine ⟨n + m, _, hmoves.trans hmoves', ⟨fun c hc => ?_, hpending⟩, rfl⟩
  rcases List.mem_append.mp hc with hc | hc
  · cases List.mem_singleton.mp hc
    nofun
  · exact hended c hc

/-- Run a thread to its end, and each call as soon as it is spawned. -/
def runAtOnce (host : Host) : Nat → State → Option (Except RuntimeError Value × State)
  | 0, _ => none
  | fuel + 1, s =>
    match step host s with
    | .running s' =>
      (settle host fuel fuel s'.world).bind fun w => runAtOnce host fuel { s' with world := w }
    | .finished v s' =>
      (settle host fuel fuel s'.world).map fun w => (.ok v, { s' with world := w })
    | .failed e s' =>
      (settle host fuel fuel s'.world).map fun w => (.error e, { s' with world := w })

theorem moves_runAtOnce {host : Host} {fuel : Nat} {s s' : State} {r : Except RuntimeError Value}
    (h : runAtOnce host fuel s = some (r, s')) (cells : List Cell)
    (hcells : ∀ c ∈ cells, c.activity ≠ .running) (past : List Thread) (p : Option Program) :
    ∃ n P, Pool.Moves host n ⟨⟨s.thread, past, .main p, .running⟩ :: cells, s.world⟩ P ∧
      P.Complete ∧ P.world = s'.world := by
  induction fuel generalizing s past cells with
  | zero => cases h
  | succ fuel ih =>
    rw [runAtOnce] at h
    cases hstep : step host s with
    | running s₁ =>
      simp only [hstep, Option.bind_eq_some_iff] at h
      obtain ⟨w, hsettle, h⟩ := h
      have hmove : Pool.Move host ⟨[] ++ ⟨s.thread, past, .main p, .running⟩ :: cells, s.world⟩ _ :=
        .run hstep
      obtain ⟨-, n, more, hended, hmoves⟩ := moves_settle hsettle
        (⟨s₁.thread, s.thread :: past, .main p, .running⟩ :: cells)
      obtain ⟨m, P, hmoves', hdone⟩ := ih h _ (List.forall_mem_append.mpr ⟨hcells, hended⟩)
        (s.thread :: past)
      exact ⟨n + m + 1, P, ⟨_, hmove, hmoves.trans hmoves'⟩, hdone⟩
    | finished v s₁ =>
      simp only [hstep, Option.map_eq_some_iff] at h
      obtain ⟨w, hsettle, h⟩ := h
      cases h
      have hmove : Pool.Move host ⟨[] ++ ⟨s.thread, past, .main p, .running⟩ :: cells, s.world⟩ _ :=
        .finish hstep
      obtain ⟨hpending, n, more, hended, hmoves⟩ := moves_settle hsettle
        (⟨s₁.thread, s.thread :: past, .main p, .ended (.ok v)⟩ :: cells)
      refine ⟨n + 1, _, ⟨_, hmove, hmoves⟩, ⟨?_, hpending⟩, rfl⟩
      exact List.forall_mem_append.mpr ⟨List.forall_mem_cons.mpr ⟨nofun, hcells⟩, hended⟩
    | failed e s₁ =>
      simp only [hstep, Option.map_eq_some_iff] at h
      obtain ⟨w, hsettle, h⟩ := h
      cases h
      have hmove : Pool.Move host ⟨[] ++ ⟨s.thread, past, .main p, .running⟩ :: cells, s.world⟩ _ :=
        .fail hstep
      obtain ⟨hpending, n, more, hended, hmoves⟩ := moves_settle hsettle
        (⟨s₁.thread.abandon, s.thread :: past, .main p, .ended (.error e)⟩ :: cells)
      refine ⟨n + 1, _, ⟨_, hmove, hmoves⟩, ⟨?_, hpending⟩, rfl⟩
      exact List.forall_mem_append.mpr ⟨List.forall_mem_cons.mpr ⟨nofun, hcells⟩, hended⟩

/-- Two lines from two threads: `fun f x: print x . spawn f("a") print "b"`. -/
def printsTwice : Program where
  stmts := [
    .function ⟨⟨"f", ⟨4, 5⟩⟩, [⟨"x", ⟨6, 7⟩⟩], ⟨[.print (.var ⟨"x", ⟨15, 16⟩⟩) ⟨9, 16⟩], ⟨9, 16⟩⟩,
      ⟨0, 18⟩⟩,
    .expr (.spawn (.call (.var ⟨"f", ⟨25, 26⟩⟩) [.str "a" ⟨27, 30⟩] ⟨25, 31⟩) ⟨19, 31⟩),
    .print (.str "b" ⟨38, 41⟩) ⟨32, 41⟩]
  span := ⟨0, 41⟩

/-- The spawned call prints after or before the main thread. -/
theorem agree_of_complete_printsTwice : ∃ c n P m P',
    CompiledFrom (fun p => p.classFree = true) printsTwice c ∧
    Pool.Moves (Session.hostWith {} none) n (.start {} {} printsTwice c) P ∧ P.Complete ∧
    P.world.printed = #[([], "b"), ([0], "a")] ∧
    Pool.Moves (Session.hostWith {} none) m (.start {} {} printsTwice c) P' ∧ P'.Complete ∧
    P'.world.printed = #[([0], "a"), ([], "b")] ∧ m = n ∧ P.Agree #[] P' := by
  obtain ⟨c, ⟨-, hc⟩, hcheck⟩ := exists_compiled printsTwice "main"
    (fun c =>
      (match Session.runChunk ⟨Session.hostWith {} none, {}, {}⟩ 30 c with
        | some (_, s) => s.state.world.printed == #[([], "b"), ([0], "a")]
        | none => false) &&
      match runAtOnce (Session.hostWith {} none) 30 ⟨Thread.start {} c, {}⟩ with
        | some (_, s) => s.world.printed == #[([0], "a"), ([], "b")]
        | none => false) (by decide +kernel)
  rw [Bool.and_eq_true] at hcheck
  obtain ⟨hafter, hatOnce⟩ := hcheck
  have hfree : CompiledFrom (fun p => p.classFree = true) printsTwice c := ⟨by decide, hc⟩
  have hpure : (Session.hostWith {} none).PureIn (functionRealm fun b => b.isPure = true) :=
    Natives.pureIn_of_callForHost rfl fun _ => id
  cases hrun : Session.runChunk ⟨Session.hostWith {} none, {}, {}⟩ 30 c with
  | none =>
    rw [hrun] at hafter
    cases hafter
  | some out =>
    cases hrun' : runAtOnce (Session.hostWith {} none) 30 ⟨Thread.start {} c, {}⟩ with
    | none =>
      rw [hrun'] at hatOnce
      cases hatOnce
    | some out' =>
      rw [hrun] at hafter
      rw [hrun'] at hatOnce
      obtain ⟨n, P, hmoves, hdone, hworld⟩ := moves_runChunk hrun printsTwice
      obtain ⟨m, P', hmoves', hdone', hworld'⟩ := moves_runAtOnce hrun' [] nofun []
        (some printsTwice)
      obtain ⟨-, -, hagree⟩ := agree_of_complete _ _ hpure nofun printsTwice c hfree {} {} nofun rfl
        rfl rfl n P hmoves hdone m P' hmoves'
      refine ⟨c, n, P, m, P', hfree, hmoves, hdone, ?_, hmoves', hdone', ?_, hagree hdone'⟩
      · rw [hworld]
        exact eq_of_beq hafter
      · rw [hworld']
        exact eq_of_beq hatOnce

end DotScript.Machine
