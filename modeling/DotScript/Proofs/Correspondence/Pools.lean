import DotScript.Proofs.Correspondence.Steps
import DotScript.Proofs.Session.Pool

/-!
# Sessions that correspond

Threads of two sessions correspond one by one, and with them the spawned calls that wait. Whatever
the threads of one session do, those of the other can do in the same order.

* `moves_like`: every run of the left session is one of the right session;
* `moves_like_right`: and the other way round.
-/

namespace DotScript.Machine

open DotScript.Bytecode DotScript.Compile

variable (C : Correspondence)

inductive Work.Like : Work → Work → Prop
  | main (p p') : Like (.main p) (.main p')
  | call (n : Nat) : Like (.call (n + C.numbers)) (.call n)

/-- What two threads are about. Those that run stand at corresponding places. -/
inductive Activity.Like (t t' : Thread) : Activity → Activity → Prop
  | idle : Like t t' .idle .idle
  | running (h : t.AtPlace C t') : Like t t' .running .running
  | ended {r r'} (h : ResultLike (Value.Like C.function) r r') : Like t t' (.ended r) (.ended r')

structure Cell.Like (c c' : Cell) : Prop where
  thread : c.thread.Like C c'.thread
  work : c.work.Like C c'.work
  activity : c.activity.Like C c.thread c'.thread c'.activity

structure Pool.Like (P P' : Pool) : Prop where
  cells : List.Forall₂ (Cell.Like C) P.cells P'.cells
  world : P.world.Like C P'.world

variable {C}

section
variable {host : Host} {t t' : Thread} {w w' : World} {P P' Q Q' : Pool}

theorem abandon_like (h : t.Like C t') : t.abandon.Like C t'.abandon :=
  { h with stack := .empty, frames := .empty, handler := .none }

theorem failed_like {work work' : Work} (hwork : work.Like C work') (e : RuntimeError)
    (h : w.Like C w') : (work.failed e w).Like C (work'.failed e w') := by
  cases hwork with
  | main => exact h
  | call n => exact { h with reports := h.reports.push (.failure n e.message) }

/-- A list related to one that is split at an item is split there itself. -/
theorem forall₂_split {α β : Type} {R : α → β → Prop} {xs zs : List α} {x : α} {l : List β}
    (h : List.Forall₂ R (xs ++ x :: zs) l) :
    ∃ xs' x' zs', l = xs' ++ x' :: zs' ∧ List.Forall₂ R xs xs' ∧ R x x' ∧ List.Forall₂ R zs zs' := by
  induction xs generalizing l with
  | nil =>
    cases h with
    | cons hx hzs => exact ⟨[], _, _, rfl, .nil, hx, hzs⟩
  | cons y xs ih =>
    cases h with
    | cons hy hrest =>
      obtain ⟨xs', x', zs', rfl, hxs, hx, hzs⟩ := ih hrest
      exact ⟨_ :: xs', x', zs', rfl, .cons hy hxs, hx, hzs⟩

theorem forall₂_split_right {α β : Type} {R : α → β → Prop} {xs zs : List β} {x : β} {l : List α}
    (h : List.Forall₂ R l (xs ++ x :: zs)) :
    ∃ xs' x' zs', l = xs' ++ x' :: zs' ∧ List.Forall₂ R xs' xs ∧ R x' x ∧ List.Forall₂ R zs' zs := by
  obtain ⟨xs', x', zs', hl, hxs, hx, hzs⟩ := forall₂_split h.flip
  exact ⟨xs', x', zs', hl, hxs.flip, hx, hzs.flip⟩

/-- One item put in place of another. -/
theorem forall₂_replace {α β : Type} {R : α → β → Prop} {xs zs : List α} {xs' zs' : List β} {x : α}
    {x' : β} (hxs : List.Forall₂ R xs xs') (hx : R x x') (hzs : List.Forall₂ R zs zs') :
    List.Forall₂ R (xs ++ x :: zs) (xs' ++ x' :: zs') :=
  List.rel_append hxs (.cons hx hzs)

/-! ## Moves as functions -/

/-- What a step makes of a thread. -/
def Outcome.cell (o : Outcome) (past : List Thread) (work : Work) : Cell :=
  match o with
  | .running s => ⟨s.thread, past, work, .running⟩
  | .finished v s => ⟨s.thread, past, work, .ended (.ok v)⟩
  | .failed e s => ⟨s.thread.abandon, past, work, .ended (.error e)⟩

/-- The world after a step. -/
def Outcome.worldFor (o : Outcome) (work : Work) : World :=
  match o with
  | .running s | .finished _ s => s.world
  | .failed e s => work.failed e s.world

/-- A pool after a spawned call has begun that has been taken from those that wait. -/
def Pool.launched (host : Host) (cells : List Cell) (w : World) (task : Task) : Pool :=
  match task.job with
  | .script t => ⟨cells ++ [⟨t, [], .call task.number, .running⟩], w⟩
  | .native n args =>
    match host.call n.builtin args w with
    | (.ok _, w') => ⟨cells, w'⟩
    | (.error message, w') => ⟨cells, (Work.call task.number).failed (.native n.name message) w'⟩

theorem Pool.Move.of_step (before after : List Cell) (t : Thread) (past : List Thread) (work : Work)
    (w : World) :
    Pool.Move host ⟨before ++ ⟨t, past, work, .running⟩ :: after, w⟩
      ⟨before ++ (step host ⟨t, w⟩).cell (t :: past) work :: after,
        (step host ⟨t, w⟩).worldFor work⟩ := by
  cases h : step host ⟨t, w⟩ with
  | running s => exact .run h
  | finished v s => exact .finish h
  | failed e s => exact .fail h

theorem Pool.Move.of_launch (cells : List Cell) {before after : List Task} {task : Task}
    (hw : w.pending = before ++ task :: after) :
    Pool.Move host ⟨cells, w⟩
      (Pool.launched host cells { w with pending := before ++ after } task) := by
  cases hjob : task.job with
  | script t =>
    simp only [Pool.launched, hjob]
    exact .launch hw hjob
  | native n args =>
    simp only [Pool.launched, hjob]
    rcases hcall : host.call n.builtin args { w with pending := before ++ after } with ⟨_ | v, w'⟩
    · exact .nativeFail hw hjob hcall
    · exact .native hw hjob hcall

/-- A spawned call that begins runs on a thread of its own. -/
theorem Pool.launched_eq (host : Host) (w : World) (task : Task) : ∃ new w',
    (∀ c ∈ new, task.job = .script c.thread) ∧
      ∀ cells, Pool.launched host cells w task = ⟨cells ++ new, w'⟩ := by
  cases hjob : task.job with
  | script t =>
    refine ⟨[⟨t, [], .call task.number, .running⟩], w, fun c hc => ?_, fun cells => ?_⟩
    · cases List.mem_singleton.mp hc
      rfl
    · simp only [Pool.launched, hjob]
  | native n args =>
    simp only [Pool.launched, hjob]
    rcases host.call n.builtin args w with ⟨_ | v, w'⟩
    · exact ⟨[], _, nofun, fun cells => by rw [List.append_nil]⟩
    · exact ⟨[], _, nofun, fun cells => by rw [List.append_nil]⟩

/-- A thread takes a step, or a spawned call begins. -/
theorem Pool.Move.cases (h : P.Move host Q) :
    (∃ before after t past work w, P = ⟨before ++ ⟨t, past, work, .running⟩ :: after, w⟩ ∧
      Q = ⟨before ++ (step host ⟨t, w⟩).cell (t :: past) work :: after,
        (step host ⟨t, w⟩).worldFor work⟩) ∨
    ∃ cells w before task after, P = ⟨cells, w⟩ ∧ w.pending = before ++ task :: after ∧
      Q = Pool.launched host cells { w with pending := before ++ after } task := by
  cases h with
  | run h | finish h | fail h => exact .inl ⟨_, _, _, _, _, _, rfl, by rw [h]; rfl⟩
  | launch hw hjob => exact .inr ⟨_, _, _, _, _, rfl, hw, by simp only [Pool.launched, hjob]⟩
  | native hw hjob hcall | nativeFail hw hjob hcall =>
    exact .inr ⟨_, _, _, _, _, rfl, hw, by simp only [Pool.launched, hjob, hcall]⟩

/-- Steps of a thread are moves of the session. -/
theorem moves_of_reaches {s s' : State} (h : Reaches host s s') (before after : List Cell)
    (past : List Thread) (work : Work) : ∃ n past', Pool.Moves host n
      ⟨before ++ ⟨s.thread, past, work, .running⟩ :: after, s.world⟩
      ⟨before ++ ⟨s'.thread, past', work, .running⟩ :: after, s'.world⟩ := by
  obtain ⟨n, hsteps⟩ := h
  induction n generalizing s past with
  | zero =>
    cases hsteps
    exact ⟨0, past, rfl⟩
  | succ n ih =>
    obtain ⟨s₁, hstep, hsteps⟩ := hsteps
    obtain ⟨m, past', hmoves⟩ := ih (s.thread :: past) hsteps
    exact ⟨m + 1, past', _, .run hstep, hmoves⟩

/-! ## Moves that correspond -/

theorem outcome_cell_like {o o' : Outcome} (h : o.Like C o')
    (hstays : ∀ s s', o = .running s → o' = .running s' → ¬ s.thread.Leaves C s'.thread)
    {work work' : Work}
    (hwork : work.Like C work') (past past' : List Thread) :
    (o.cell past work).Like C (o'.cell past' work') ∧ (o.worldFor work).Like C (o'.worldFor work') := by
  cases h with
  | running hs hplace => exact ⟨⟨hs.thread, hwork, .running hplace⟩, hs.world⟩
  | leaves h => exact absurd h (hstays _ _ rfl rfl)
  | finished hv hs => exact ⟨⟨hs.thread, hwork, .ended hv⟩, hs.world⟩
  | failed e hs => exact ⟨⟨abandon_like hs.thread, hwork, .ended rfl⟩, failed_like hwork e hs.world⟩

theorem launched_like (hS : C.Sound) (hhost : host.Respects C) {cells cells' : List Cell}
    (hcells : List.Forall₂ (Cell.Like C) cells cells') (hw : w.Like C w') {task task' : Task}
    (htask : task.Like C task') :
    (Pool.launched host cells w task).Like C (Pool.launched host cells' w' task') := by
  obtain ⟨number, job⟩ := task
  obtain ⟨number', job'⟩ := task'
  obtain ⟨hnumber, hjob⟩ := htask
  dsimp only at hnumber hjob
  subst hnumber
  have hscript := hjob
  cases hjob with
  | script =>
    obtain ⟨_, ⟨⟩, ht, hplace⟩ := hscript.thread hS
    exact ⟨List.rel_append hcells (.cons ⟨ht, .call _, .running hplace⟩ .nil), hw⟩
  | @native n vs vs' hvs =>
    obtain ⟨hresult, hworld⟩ := hhost n.builtin hvs hw
    simp only [Pool.launched]
    rcases hcall : host.call n.builtin vs w with ⟨_ | v, u⟩ <;>
      rcases hcall' : host.call n.builtin vs' w' with ⟨_ | v', u'⟩
    all_goals rw [hcall, hcall'] at hresult hworld
    · cases hresult
      exact ⟨hcells, failed_like (.call _) _ hworld⟩
    · cases hresult
    · cases hresult
    · exact ⟨hcells, hworld⟩

/-- A thread that runs on the left has one on the right that runs. -/
theorem running_like {c : Cell} {past : List Thread} {work : Work}
    (h : Cell.Like C ⟨t, past, work, .running⟩ c) :
    ∃ t' past' work', c = ⟨t', past', work', .running⟩ ∧ t.Like C t' ∧ work.Like C work' ∧
      t.AtPlace C t' := by
  obtain ⟨t', past', work', activity⟩ := c
  obtain ⟨hthread, hwork, hactivity⟩ := h
  cases hactivity with
  | running hplace => exact ⟨t', past', work', rfl, hthread, hwork, hplace⟩

theorem running_like_right {c : Cell} {past : List Thread} {work : Work}
    (h : Cell.Like C c ⟨t, past, work, .running⟩) :
    ∃ t' past' work', c = ⟨t', past', work', .running⟩ ∧ t'.Like C t ∧ work'.Like C work ∧
      t'.AtPlace C t := by
  obtain ⟨t', past', work', activity⟩ := c
  obtain ⟨hthread, hwork, hactivity⟩ := h
  cases hactivity with
  | running hplace => exact ⟨t', past', work', rfl, hthread, hwork, hplace⟩

section
variable (hS : C.Lasting) (hclosed : C.Closed) (hhost : host.Respects C)
include hS hclosed hhost

/-- A move on the left is made on the right as well, unless it is a jump of the left code only. -/
theorem move_like (h : P.Like C P') (hmove : P.Move host Q) :
    Q.Like C P' ∨ ∃ Q', P'.Move host Q' ∧ Q.Like C Q' := by
  obtain ⟨cells', w'⟩ := P'
  obtain ⟨hcells, hworld⟩ := h
  obtain ⟨before, after, t, past, work, w, rfl, rfl⟩ | ⟨cells, w, before, task, after, rfl, hw, rfl⟩ :=
    hmove.cases
  · obtain ⟨before', c, after', rfl, hbefore, hcell, hafter⟩ := forall₂_split hcells
    obtain ⟨t', past', work', rfl, ht, hwork, hplace⟩ := running_like hcell
    have hs : State.Like C ⟨t, w⟩ ⟨t', w'⟩ := ⟨ht, hworld⟩
    cases hclosed hplace with
    | meets hmeets =>
      obtain ⟨hnew, hworld'⟩ := outcome_cell_like (step_like hS.toSound hhost hs hmeets)
        (fun _ _ _ _ => hS.stays _ _) hwork
        (t :: past) (t' :: past')
      exact .inr ⟨_, .of_step before' after' t' past' work' w',
        forall₂_replace hbefore hnew hafter, hworld'⟩
    | skip hjump hnext =>
      obtain ⟨s₁, hstep, hlike, himage, hip⟩ := step_skip host hs hjump
      rw [hstep]
      refine .inl ⟨forall₂_replace hbefore ⟨hlike.thread, hwork, .running ?_⟩ hafter, hlike.world⟩
      change C.place s₁.thread.image s₁.thread.ip t'.image t'.ip
      rw [himage, hip]
      exact hnext
  · obtain ⟨before', task', after', hw', hbefore, htask, hafter⟩ :=
      forall₂_split (hw ▸ hworld.pending)
    refine .inr ⟨_, .of_launch cells' hw', launched_like hS.toSound hhost hcells ?_ htask⟩
    exact { hworld with pending := List.rel_append hbefore hafter }

/-- A run of the left session is one of the right session. -/
theorem moves_like {n : Nat} (h : P.Like C P') (hmoves : Pool.Moves host n P Q) :
    ∃ m Q', Pool.Moves host m P' Q' ∧ Q.Like C Q' := by
  induction n generalizing P P' with
  | zero => exact ⟨0, P', rfl, hmoves ▸ h⟩
  | succ n ih =>
    obtain ⟨P₁, hmove, hmoves⟩ := hmoves
    obtain hlike | ⟨P₁', hmove', hlike⟩ := move_like hS hclosed hhost h hmove
    · exact ih hlike hmoves
    · obtain ⟨m, Q', hmoves', hQ⟩ := ih hlike hmoves
      exact ⟨m + 1, Q', ⟨P₁', hmove', hmoves'⟩, hQ⟩

/-- A move on the right is made on the left as well, after jumps of the left code. -/
theorem move_like_right (h : P.Like C P') (hmove : P'.Move host Q') :
    ∃ n Q, Pool.Moves host n P Q ∧ Q.Like C Q' := by
  obtain ⟨cells, w⟩ := P
  obtain ⟨hcells, hworld⟩ := h
  obtain ⟨before', after', t', past', work', w', rfl, rfl⟩ |
    ⟨cells', w', before', task', after', rfl, hw', rfl⟩ := hmove.cases
  · obtain ⟨before, c, after, rfl, hbefore, hcell, hafter⟩ := forall₂_split_right hcells
    obtain ⟨t, past, work, rfl, ht, hwork, hplace⟩ := running_like_right hcell
    have hs : State.Like C ⟨t, w⟩ ⟨t', w'⟩ := ⟨ht, hworld⟩
    obtain ⟨s₁, hreaches, hs₁, hmeets⟩ := reaches_of_leads host (hclosed hplace) hs rfl rfl
    obtain ⟨n, past₁, hmoves⟩ := moves_of_reaches hreaches before after past work
    obtain ⟨hnew, hworld'⟩ := outcome_cell_like (step_like hS.toSound hhost hs₁ hmeets)
      (fun _ _ _ _ => hS.stays _ _) hwork
      (s₁.thread :: past₁) (t' :: past')
    exact ⟨n + 1, _, hmoves.trans (Pool.Move.of_step before after _ _ _ _).moves,
      forall₂_replace hbefore hnew hafter, hworld'⟩
  · obtain ⟨before, task, after, hw, hbefore, htask, hafter⟩ :=
      forall₂_split_right (hw' ▸ hworld.pending)
    refine ⟨1, _, (Pool.Move.of_launch cells hw).moves, launched_like hS.toSound hhost hcells ?_ htask⟩
    exact { hworld with pending := List.rel_append hbefore hafter }

/-- A run of the right session is one of the left session. -/
theorem moves_like_right {n : Nat} (h : P.Like C P') (hmoves : Pool.Moves host n P' Q') :
    ∃ m Q, Pool.Moves host m P Q ∧ Q.Like C Q' := by
  induction n generalizing P P' with
  | zero => exact ⟨0, P, rfl, hmoves ▸ h⟩
  | succ n ih =>
    obtain ⟨P₁', hmove, hmoves⟩ := hmoves
    obtain ⟨k, P₁, hmoves₁, hlike⟩ := move_like_right hS hclosed hhost h hmove
    obtain ⟨m, Q, hmoves₂, hQ⟩ := ih hlike hmoves
    exact ⟨k + m, Q, hmoves₁.trans hmoves₂, hQ⟩

end

end

end DotScript.Machine
