import DotScript.Proofs.Natives.Inert
import DotScript.Proofs.Schedule.Joining

/-!
# No spawned call is lost

What is known of the spawned calls of a session in every state of it, and what that comes to when
the result of a program is given back: all of them have ended.

* `Crew.Reachable.accounted`: the accounts are kept in all of a session;
* `Crew.Accounted.exists_move`: waiting comes to no standstill;
* `Leader.Gives`: the result of a program is that of its own run;
* `exists_runs_runSource`: the session that runs one spawned call after the other, in the order in
  which they were spawned, is one of those considered here.

Main statement: `Crew.ended_of_back`.
-/

namespace DotScript.Machine

open DotScript.Compile DotScript.Text
open Relation (ReflTransGen)

section
variable {host : Host} {C C' : Crew} {source : Source}

/-! ## Whole sessions -/

theorem Crew.Accounted.outside (h : C.Accounted host) (houtside : C.Outside C') :
    C'.Accounted host := by
  cases houtside with
  | world hworld => exact h.congr hworld rfl rfl rfl (.refl _) (fun n => .rfl) (fun _ => .inl) h.handles

theorem Crew.Accounted.runs (hnatives : host.LeavesCalls) (h : C.Accounted host)
    (hruns : C.Runs host C') : C'.Accounted host := by
  induction hruns with
  | refl => exact h
  | tail _ hstep ih =>
    rcases hstep with hmove | houtside
    · exact ih.move hnatives hmove
    · exact ih.outside houtside

theorem Crew.Accounted.begin (h : C.Accounted host) (hbegin : C.Begin source C') :
    C'.Accounted host := by
  cases hbegin with
  | run | refuse =>
    exact h.congr (.refl _) rfl rfl rfl (.refl _) (fun n => .rfl) (fun _ => .inl)
      fun hidle => absurd hidle Bool.false_ne_true

theorem Crew.Reachable.accounted (hnatives : host.LeavesCalls) (h : C.Reachable host) :
    C.Accounted host := by
  induction h with
  | @initial t w hpending hthreads hfailures =>
    refine ⟨?_, hthreads, hfailures, fun n hn => ?_, fun n hn => ?_, fun call hcall => ?_,
      fun _ => rfl, fun call hcall => ?_, fun call hcall => ?_⟩
    · rw [Crew.tasks, hpending]
      rfl
    · rw [hthreads] at hn
      exact absurd hn (Nat.not_lt_zero n)
    · exact absurd hn List.not_mem_nil
    · exact absurd hcall List.not_mem_nil
    · exact absurd hcall List.not_mem_nil
    · exact absurd hcall List.not_mem_nil
  | begin _ hbegin ih => exact ih.begin hbegin
  | run _ hruns ih => exact ih.runs hnatives hruns
  | define _ ih =>
    exact ih.congr (.refl _) rfl rfl rfl (.refl _) (fun n => .rfl) (fun _ => .inl) fun _ => ih.handles rfl

/-! ## Waiting comes to an end -/

theorem exists_turn (host : Host) (s : State) :
    ∃ (turn : Turn) (w' : World), step host s = turn.outcome w' := by
  cases hstep : step host s with
  | running s' => exact ⟨.running s'.thread, s'.world, rfl⟩
  | finished v s' => exact ⟨.finished v s'.thread, s'.world, rfl⟩
  | failed e s' => exact ⟨.failed e s'.thread, s'.world, rfl⟩

/-- A run that is not over goes on. -/
theorem Doing.exists_acts (host : Host) (d : Doing) (s : Shared) :
    (∃ r t, d = .over r t) ∨ ∃ d' s', Doing.Acts host d s d' s' := by
  rcases d with t | ⟨number, turn⟩ | ⟨r, t⟩
  · obtain ⟨turn, w', hstep⟩ := exists_turn host ⟨t, s.world⟩
    by_cases hthreads : w'.threads = s.world.threads
    · exact .inr ⟨_, _, .step hstep hthreads⟩
    · exact .inr ⟨_, _, .start hstep hthreads⟩
  · exact .inr ⟨_, _, .keep⟩
  · exact .inl ⟨r, t, rfl⟩

/-- A call that waits or runs goes on. -/
theorem Crew.exists_move_of_mem {task : Task}
    (htask : task ∈ C.shared.world.pending ++ C.calls.map Prod.fst) : ∃ C', C.Move host C' := by
  obtain ⟨leader, calls, ended, s⟩ := C
  rcases List.mem_append.mp htask with hpending | hcall
  · obtain ⟨before, after, hpending⟩ := List.append_of_mem hpending
    cases hjob : task.job with
    | script t => exact ⟨_, .launch hpending hjob⟩
    | native n args =>
      rcases hcall : host.call n.builtin args { s.world with pending := before ++ after }
        with ⟨r, w'⟩
      exact ⟨_, .native hpending hjob hcall⟩
  · obtain ⟨⟨_, d⟩, hmem, rfl⟩ := List.mem_map.mp hcall
    obtain ⟨before, after, hcalls⟩ := List.append_of_mem hmem
    simp only at hcalls
    subst hcalls
    rcases d.exists_acts host s with ⟨r, t, rfl⟩ | ⟨d', s', hacts⟩
    · exact ⟨_, .close⟩
    · exact ⟨_, .call hacts⟩

/-- As long as the result of a program has not been given back, one of the threads can go on: the
main thread never waits for a call that nobody runs. -/
theorem Crew.Accounted.exists_move (h : C.Accounted host) (hidle : C.leader.isIdle = false) :
    ∃ C', C.Move host C' := by
  obtain ⟨leader, calls, ended, s⟩ := C
  cases leader with
  | idle t last => cases hidle
  | active d =>
    rcases d.exists_acts host s with ⟨r, t, rfl⟩ | ⟨d', s', hacts⟩
    · exact ⟨_, .await⟩
    · exact ⟨_, .lead hacts⟩
  | joining t r batch =>
    cases batch with
    | nil =>
      by_cases hhandles : s.handles = []
      · exact ⟨_, .back hhandles⟩
      · exact ⟨_, .take hhandles⟩
    | cons number batch =>
      by_cases hended : number ∈ ended.map (·.1.number)
      · exact ⟨_, .join hended⟩
      · have hnumber : number < s.world.threads := h.bound number List.mem_cons_self
        obtain ⟨task, htask, -⟩ := h.mem_of_not_ended hnumber hended
        exact Crew.exists_move_of_mem htask

/-! ## The result of the program -/

/-- The result that a program gives if its thread runs it from `t` on, in worlds among `since`: why it is
refused, or what its own run comes to. -/
def Leader.Gives (host : Host) (source : Source) (t : Thread) (since : List World)
    (r : Except Session.RunError Value) : Prop :=
  match compileSource source with
  | .error e => r = .error (.refused e)
  | .ok chunk => ∃ r₁ t₁, Doing.Comes host since (.running (t.start chunk)) (.over r₁ t₁) ∧
      r = r₁.mapError .failed

/-- What the main thread is about while a program runs that began at `t`. -/
def Leader.Follows (host : Host) (source : Source) (t : Thread) (since : List World) : Leader → Prop
  | .idle _ last => ∃ r, last = some r ∧ Gives host source t since r
  | .active d => ∃ chunk, compileSource source = .ok chunk ∧
      Doing.Comes host since (.running (t.start chunk)) d
  | .joining _ r _ => Gives host source t since r

theorem Leader.Gives.mono {t : Thread} {r : Except Session.RunError Value} {since since' : List World}
    (h : Gives host source t since r) (hsince : since.Sublist since') :
    Gives host source t since' r := by
  unfold Gives at h ⊢
  split
  · next heq => rwa [heq] at h
  · next heq =>
    rw [heq] at h
    obtain ⟨r₁, t₁, hcomes, hr⟩ := h
    exact ⟨r₁, t₁, hcomes.mono hsince, hr⟩

theorem Leader.Follows.mono {leader : Leader} {t : Thread} {since since' : List World}
    (h : leader.Follows host source t since) (hsince : since.Sublist since') :
    leader.Follows host source t since' := by
  cases leader with
  | idle _ last =>
    obtain ⟨r, hr, hgives⟩ := h
    exact ⟨r, hr, hgives.mono hsince⟩
  | active d =>
    obtain ⟨chunk, hchunk, hcomes⟩ := h
    exact ⟨chunk, hchunk, hcomes.mono hsince⟩
  | joining _ r _ => exact Leader.Gives.mono h hsince

/-- The main thread of a session runs a program that began at `t`, when threads had acted in the worlds
`before`. -/
def Crew.Follows (host : Host) (source : Source) (t : Thread) (before : List World) (C : Crew) : Prop :=
  ∃ since, C.shared.past = before ++ since ∧ C.leader.Follows host source t since

theorem Crew.Move.follows {t : Thread} {before : List World} (h : C.Follows host source t before)
    (hmove : C.Move host C') : C'.Follows host source t before := by
  obtain ⟨since, hpast, hfollows⟩ := h
  cases hmove with
  | @lead d d' calls ended s s' hacts =>
    obtain ⟨chunk, hchunk, hcomes⟩ := hfollows
    refine ⟨since ++ [s.world], ?_, chunk, hchunk, hcomes.acts hacts⟩
    rw [hacts.past_eq, hpast, List.append_assoc]
  | @call leader others task d rest d' ended s s' hacts =>
    refine ⟨since ++ [s.world], ?_, hfollows.mono (List.sublist_append_left ..)⟩
    rw [hacts.past_eq, hpast, List.append_assoc]
  | @native leader calls ended s others task rest =>
    refine ⟨since ++ [{ s.world with pending := others ++ rest }], ?_,
      hfollows.mono (List.sublist_append_left ..)⟩
    rw [hpast, List.append_assoc]
  | launch | close | take | join => exact ⟨since, hpast, hfollows⟩
  | @await r t₁ =>
    obtain ⟨chunk, hchunk, hcomes⟩ := hfollows
    refine ⟨since, hpast, ?_⟩
    simp only [Leader.Follows, Leader.Gives, hchunk]
    exact ⟨r, t₁, hcomes, rfl⟩
  | @back _ r => exact ⟨since, hpast, r, rfl, hfollows⟩

theorem Crew.Runs.follows {t : Thread} {before : List World} (h : C.Follows host source t before)
    (hruns : C.Runs host C') : C'.Follows host source t before := by
  induction hruns with
  | refl => exact h
  | tail _ hstep ih =>
    rcases hstep with hmove | houtside
    · exact hmove.follows ih
    · cases houtside
      exact ih

theorem Crew.Begin.follows {t : Thread} {last : Option (Except Session.RunError Value)}
    (hleader : C.leader = .idle t last) (hbegin : C.Begin source C') :
    C'.Follows host source t C'.shared.past := by
  refine ⟨[], (List.append_nil _).symm, ?_⟩
  cases hbegin with
  | @run _ _ _ _ _ chunk hchunk =>
    cases hleader
    exact ⟨chunk, hchunk, .refl _ _⟩
  | refuse herror =>
    cases hleader
    simp only [Leader.Follows, Leader.Gives, herror]

/-! ## One after the other -/

/-- What a thread does while the others do nothing. -/
def Doing.Does (host : Host) : Doing × Shared → Doing × Shared → Prop :=
  ReflTransGen fun x y => Doing.Acts host x.1 x.2 y.1 y.2

theorem Doing.Does.lead {x y : Doing × Shared} (h : Doing.Does host x y)
    (calls : List (Task × Doing)) (ended : List (Task × Except RuntimeError Value)) :
    Crew.Runs host ⟨.active x.1, calls, ended, x.2⟩ ⟨.active y.1, calls, ended, y.2⟩ :=
  h.lift (fun x : Doing × Shared => (⟨.active x.1, calls, ended, x.2⟩ : Crew))
    fun _ _ hacts => .inl (.lead hacts)

theorem Doing.Does.call {x y : Doing × Shared} (h : Doing.Does host x y) (leader : Leader)
    (task : Task) (ended : List (Task × Except RuntimeError Value)) :
    Crew.Runs host ⟨leader, [(task, x.1)], ended, x.2⟩ ⟨leader, [(task, y.1)], ended, y.2⟩ :=
  h.lift (fun x : Doing × Shared => (⟨leader, [(task, x.1)], ended, x.2⟩ : Crew))
    fun _ _ hacts => .inl (@Crew.Move.call host leader [] task _ [] _ ended _ _ hacts)

/-- A step, and after it the handle is kept if a call has been spawned. -/
theorem exists_does_step {t : Thread} {turn : Turn} {s : Shared} {w' : World}
    (hstep : step host ⟨t, s.world⟩ = turn.outcome w') :
    ∃ handles checks past,
      Doing.Does host (.running t, s) (turn.doing, ⟨w', handles, checks, past⟩) := by
  by_cases hthreads : w'.threads = s.world.threads
  · exact ⟨_, _, _, .single (.step hstep hthreads)⟩
  · refine ⟨s.handles ++ [s.world.threads], s.checks ++ t.spawnCheck?.toList,
      s.past ++ [s.world] ++ [w'], ?_⟩
    have hstart : Doing.Acts host (.running t) s (.starting s.world.threads turn) _ :=
      .start hstep hthreads
    exact .head (b := (_, _)) hstart (.single .keep)

theorem exists_does_run {fuel : Nat} {t : Thread} {s : Shared} {r : Except RuntimeError Value}
    {s' : State} (h : run host fuel ⟨t, s.world⟩ = some (r, s')) :
    ∃ handles checks past, Doing.Does host (.running t, s)
      (.over r (leftBy r s'.thread), ⟨s'.world, handles, checks, past⟩) := by
  induction fuel generalizing t s with
  | zero => cases h
  | succ fuel ih =>
    obtain ⟨turn, w', hstep⟩ := exists_turn host ⟨t, s.world⟩
    obtain ⟨handles, checks, past, hdoes⟩ := exists_does_step hstep
    rw [run, hstep] at h
    cases turn with
    | running t' =>
      obtain ⟨handles', checks', past', hrest⟩ := ih (s := ⟨w', handles, checks, past⟩) h
      exact ⟨handles', checks', past', hdoes.trans hrest⟩
    | finished v t' | failed e t' =>
      cases h
      exact ⟨handles, checks, past, hdoes⟩

/-- A spawned call that waits runs from its beginning to its end. -/
theorem exists_runs_runTask {fuel : Nat} {task : Task} {rest : List Task} {w' : World}
    (leader : Leader) (ended : List (Task × Except RuntimeError Value)) {s : Shared}
    (hpending : s.world.pending = task :: rest)
    (h : runTask host fuel task { s.world with pending := rest } = some w') :
    ∃ ended' handles checks past,
      Crew.Runs host ⟨leader, [], ended, s⟩ ⟨leader, [], ended', ⟨w', handles, checks, past⟩⟩ := by
  simp only [runTask, Option.bind_eq_bind, Option.bind_eq_some_iff] at h
  obtain ⟨⟨r, w₁⟩, hjob, h⟩ := h
  have hended : w' = (Work.call task.number).ended r w₁ := by
    cases r <;> cases h <;> rfl
  subst hended
  have hpending' : s.world.pending = [] ++ task :: rest := hpending
  have hclose : ∀ t handles checks past, Crew.Runs host
      ⟨leader, [] ++ [(task, .over r t)], ended, ⟨w₁, handles, checks, past⟩⟩
      ⟨leader, [], ended ++ [(task, r)],
        ⟨(Work.call task.number).ended r w₁, handles, checks, past⟩⟩ :=
    fun t handles checks past => .single (.inl .close)
  cases htask : task.job with
  | native n args =>
    rw [htask] at hjob
    rcases hcall : host.call n.builtin args { s.world with pending := rest } with ⟨result, w₂⟩
    simp only [runJob, hcall, Option.some.injEq, Prod.mk.injEq] at hjob
    obtain ⟨rfl, rfl⟩ := hjob
    have hbegin : Crew.Move host ⟨leader, [], ended, s⟩ _ := .native hpending' htask hcall
    exact ⟨_, _, _, _, .head (.inl hbegin) (hclose {} s.handles s.checks _)⟩
  | script t =>
    rw [htask] at hjob
    simp only [runJob, Option.map_eq_some_iff, Prod.mk.injEq, Prod.exists] at hjob
    obtain ⟨r', s', hrun, rfl, rfl⟩ := hjob
    have hbegin : Crew.Move host ⟨leader, [], ended, s⟩ _ := .launch hpending' htask
    obtain ⟨handles, checks, past, hdoes⟩ := exists_does_run
      (s := { s with world := { s.world with pending := rest } }) hrun
    exact ⟨_, _, _, _, .head (.inl hbegin) ((hdoes.call leader task ended).trans
      (hclose _ handles checks past))⟩

theorem exists_runs_settle {fuel count : Nat} {w' : World} (leader : Leader)
    (ended : List (Task × Except RuntimeError Value)) {s : Shared}
    (h : settle host fuel count s.world = some w') :
    w'.pending = [] ∧ ∃ ended' handles checks past,
      Crew.Runs host ⟨leader, [], ended, s⟩ ⟨leader, [], ended', ⟨w', handles, checks, past⟩⟩ := by
  induction count generalizing ended s with
  | zero =>
    simp only [settle, List.isEmpty_iff] at h
    split at h
    · next hpending =>
      cases h
      exact ⟨hpending, ended, s.handles, s.checks, s.past, .refl⟩
    · cases h
  | succ count ih =>
    cases hpending : s.world.pending with
    | nil =>
      simp only [settle, hpending] at h
      cases h
      exact ⟨hpending, ended, s.handles, s.checks, s.past, .refl⟩
    | cons task rest =>
      simp only [settle, hpending, Option.bind_eq_bind, Option.bind_eq_some_iff] at h
      obtain ⟨w₁, htask, h⟩ := h
      obtain ⟨ended₁, handles₁, checks₁, past₁, hruns⟩ :=
        exists_runs_runTask leader ended hpending htask
      obtain ⟨hnone, ended', handles', checks', past', hrest⟩ :=
        ih ended₁ (s := ⟨w₁, handles₁, checks₁, past₁⟩) h
      exact ⟨hnone, ended', handles', checks', past', hruns.trans hrest⟩

/-- The handles that have been taken are those of calls that have ended. -/
theorem exists_runs_join (hnatives : host.LeavesCalls) {t : Thread}
    {r : Except Session.RunError Value} {batch : List Nat}
    {ended : List (Task × Except RuntimeError Value)} {s : Shared} (hpending : s.world.pending = [])
    (h : Crew.Accounted host ⟨.joining t r batch, [], ended, s⟩) :
    Crew.Runs host ⟨.joining t r batch, [], ended, s⟩ ⟨.joining t r [], [], ended, s⟩ := by
  induction batch with
  | nil => exact .refl
  | cons number batch ih =>
    have hended : number ∈ ended.map (·.1.number) := by
      apply Classical.byContradiction
      intro hended
      obtain ⟨task, htask, -⟩ := h.mem_of_not_ended (h.bound number List.mem_cons_self) hended
      simp only [hpending, List.map_nil, List.append_nil] at htask
      exact List.not_mem_nil htask
    have hjoin : Crew.Move host ⟨.joining t r (number :: batch), [], ended, s⟩
        ⟨.joining t r batch, [], ended, s⟩ := .join hended
    exact .head (.inl hjoin) (ih (h.move hnatives hjoin))

/-- When all spawned calls have ended, the result is given back. -/
theorem runs_back (hnatives : host.LeavesCalls) {t : Thread} {r : Except Session.RunError Value}
    {ended : List (Task × Except RuntimeError Value)} {s : Shared} (hpending : s.world.pending = [])
    (h : Crew.Accounted host ⟨.joining t r [], [], ended, s⟩) :
    Crew.Runs host ⟨.joining t r [], [], ended, s⟩
      ⟨.idle t (some r), [], ended, { s with handles := [] }⟩ := by
  by_cases hhandles : s.handles = []
  · rw [show s = { s with handles := [] } by rw [← hhandles]]
    exact .single (.inl (.back rfl))
  · have htake : Crew.Move host ⟨.joining t r [], [], ended, s⟩ _ := .take hhandles
    have hjoin := exists_runs_join (s := { s with handles := [] }) hnatives hpending
      (h.move hnatives htake)
    exact .head (.inl htake) (hjoin.trans (.single (.inl (.back rfl))))

/-- A session that runs a program, and then one spawned call after the other in the order in which
they were spawned, does what the threads do in one of the possible orders. -/
theorem exists_runs_runSource {session session' : Session} {fuel : Nat}
    (hnatives : session.host.LeavesCalls) {source : Source} {r : Except Session.RunError Value}
    (hrun : session.runSource fuel source = some (r, session'))
    (last : Option (Except Session.RunError Value))
    (ended : List (Task × Except RuntimeError Value)) (checks : List (Except RuntimeError Job))
    (past : List World) (h : Crew.Accounted session.host
      ⟨.idle session.state.thread last, [], ended, ⟨session.state.world, [], checks, past⟩⟩) :
    ∃ C₁ ended' checks' past', Crew.Begin source
        ⟨.idle session.state.thread last, [], ended, ⟨session.state.world, [], checks, past⟩⟩ C₁ ∧
      Crew.Runs session.host C₁ ⟨.idle session'.state.thread (some r), [], ended',
        ⟨session'.state.world, [], checks', past'⟩⟩ := by
  simp only [Session.runSource, Option.bind_eq_bind, Option.bind_eq_some_iff] at hrun
  obtain ⟨⟨r', session₁⟩, hrun, session₂, hsettled, heq⟩ := hrun
  cases heq
  simp only [Session.settled, Option.bind_eq_bind, Option.bind_eq_some_iff] at hsettled
  obtain ⟨w', hsettle, heq⟩ := hsettled
  cases heq
  -- From the end of the program on, it does not matter how it came about.
  have hrest : ∀ {C₁ t w handles checks₁ past₁}, session₁.state = ⟨t, w⟩ →
      session₁.host = session.host → Crew.Begin source
        ⟨.idle session.state.thread last, [], ended, ⟨session.state.world, [], checks, past⟩⟩ C₁ →
      Crew.Runs session.host C₁ ⟨.joining t r' [], [], ended, ⟨w, handles, checks₁, past₁⟩⟩ →
      ∃ ended' checks' past',
        Crew.Runs session.host C₁ ⟨.idle t (some r'), [], ended', ⟨w', [], checks', past'⟩⟩ := by
    intro C₁ t w handles checks₁ past₁ hstate hhost hbegin hruns
    rw [hhost, hstate] at hsettle
    obtain ⟨hnone, ended', handles', checks', past', hsettled⟩ :=
      exists_runs_settle (.joining t r' []) ended (s := ⟨w, handles, checks₁, past₁⟩) hsettle
    have hruns' := hruns.trans hsettled
    have haccounted := (h.begin hbegin).runs hnatives hruns'
    exact ⟨ended', checks', past', hruns'.trans (runs_back hnatives hnone haccounted)⟩
  unfold Session.interpretSource at hrun
  split at hrun
  · next e herror =>
    cases hrun
    have hbegin : Crew.Begin source
        ⟨.idle session.state.thread last, [], ended, ⟨session.state.world, [], checks, past⟩⟩ _ :=
      .refuse herror
    obtain ⟨ended', checks', past', hruns⟩ := hrest rfl rfl hbegin .refl
    exact ⟨_, ended', checks', past', hbegin, hruns⟩
  · next chunk hchunk =>
    simp only [Option.map_eq_some_iff, Prod.mk.injEq, Prod.exists] at hrun
    obtain ⟨r₁, session₃, hinterpret, rfl, rfl⟩ := hrun
    simp only [Session.interpretChunk, Option.bind_eq_bind, Option.bind_eq_some_iff] at hinterpret
    obtain ⟨⟨r₂, state⟩, hinterpret, heq⟩ := hinterpret
    cases heq
    obtain ⟨s₁, hrun, rfl⟩ := exists_run_of_interpret hinterpret
    obtain ⟨handles, checks₁, past₁, hdoes⟩ := exists_does_run
      (s := ⟨session.state.world, [], checks, past⟩) hrun
    have hbegin : Crew.Begin source
        ⟨.idle session.state.thread last, [], ended, ⟨session.state.world, [], checks, past⟩⟩ _ :=
      .run hchunk
    obtain ⟨ended', checks', past', hruns⟩ := hrest rfl rfl hbegin
      ((hdoes.lead [] ended).tail (.inl .await))
    exact ⟨_, ended', checks', past', hbegin, hruns⟩

/-! ## What there is to be had in the end -/

/-- No spawned call waits, runs or has a handle that is kept, and each of those that have passed the
checks has ended once, under its own number. -/
structure Crew.Settled (host : Host) (C : Crew) : Prop where
  pending : C.shared.world.pending = []
  calls : C.calls = []
  handles : C.shared.handles = []
  /-- What has passed the checks, and nothing else, has been run, each item once. -/
  tasks : (C.ended.map Prod.fst).Perm (numbered C.shared.passed)
  numbers : (C.ended.map (·.1.number)).Perm (List.range C.shared.passed.length)
  counted : C.shared.world.threads = C.shared.passed.length
  /-- What is called the result of a call is what its run came to in the end. -/
  results : ∀ call ∈ C.ended, ∃ t, call.1.job.Comes host C.shared.past (.over call.2 t)
  /-- The reports are those of the calls that have failed, one for each. -/
  failures : C.shared.world.failures = C.ended.filterMap failureReport?

theorem Crew.Accounted.settled (h : C.Accounted host) (hidle : C.leader.isIdle = true) :
    C.Settled host := by
  obtain ⟨hpending, hcalls⟩ := h.all_ended_of_idle hidle
  have htasks := h.tasks
  simp only [Crew.tasks, hpending, hcalls, List.map_nil, List.nil_append] at htasks
  refine ⟨hpending, hcalls, h.handles hidle, htasks, ?_, h.threads, h.ended, h.failures⟩
  have hnumbers := htasks.map Task.number
  rwa [map_number_numbered, List.map_map] at hnumbers

/-- When the result of a program is given back, be it a value or a failure, all spawned calls have
ended, in whatever order the threads have run: each of them was run once, under a number of its own,
the numbers have no gaps, each failure was reported once; and the result is that of the program's
own run, in worlds that the session has gone through since the program began. -/
theorem Crew.ended_of_back (host : Host) (hnatives : host.LeavesCalls) (source : Source)
    (C₀ C₁ C : Crew) (t₀ : Thread) (last : Option (Except Session.RunError Value))
    (h : C₀.Reachable host) (hidle : C₀.leader = .idle t₀ last) (hbegin : C₀.Begin source C₁)
    (hruns : C₁.Runs host C) (t : Thread) (r : Except Session.RunError Value)
    (hback : C.leader = .idle t (some r)) : C.Settled host ∧
      ∃ since, C.shared.past = C₁.shared.past ++ since ∧ Leader.Gives host source t₀ since r := by
  have haccounted := ((h.accounted hnatives).begin hbegin).runs hnatives hruns
  obtain ⟨since, hpast, hfollows⟩ := hruns.follows (hbegin.follows hidle)
  constructor
  · apply haccounted.settled
    rw [hback]
    rfl
  · rw [hback] at hfollows
    obtain ⟨r', hr, hgives⟩ := hfollows
    cases hr
    exact ⟨since, hpast, hgives⟩

end

/-- A program that fails, after it has spawned a call that spawns another one and then fails, as the
other one does. -/
def allFail : Source where
  name := "main"
  text := "fun f x: spawn g(x) print -x\n.\nfun g x: print -x\n.\nspawn f(null) print -null"

/-- The program fails and so do both calls. -/
def failuresReported : Option (Except Session.RunError Value × Session) → Bool
  | some (.error _, session) => decide (session.state.world.failures =
      ["[jihll-spawn-0] runtime error: cannot negate null",
        "[jihll-spawn-1] runtime error: cannot negate null"])
  | _ => false

/-- Both calls have ended, and both failures are reported. -/
theorem Crew.ended_of_back_allFail : ∃ (C : Crew) (t : Thread) (e : Session.RunError),
    C.leader = .idle t (some (.error e)) ∧ C.Settled (Session.hostWith {} none) ∧
      C.shared.world.failures = ["[jihll-spawn-0] runtime error: cannot negate null",
        "[jihll-spawn-1] runtime error: cannot negate null"] := by
  have hcheck : failuresReported ((Session.bare {} {}).runSource 100 allFail) = true := by
    decide +kernel
  cases hrun : (Session.bare {} {}).runSource 100 allFail with
  | none =>
    rw [hrun] at hcheck
    cases hcheck
  | some result =>
    obtain ⟨r, session⟩ := result
    rw [hrun] at hcheck
    cases r with
    | ok v => cases hcheck
    | error e =>
      have hnatives : (Session.hostWith {} none).LeavesCalls :=
        Natives.leavesCalls_of_callForHost rfl
      have hreachable : Crew.Reachable (Session.hostWith {} none)
          ⟨.idle (Session.bare {} {}).state.thread none, [], [],
            { world := (Session.bare {} {}).state.world }⟩ :=
        .initial rfl rfl rfl
      obtain ⟨C₁, ended', checks', past', hbegin, hruns⟩ := exists_runs_runSource hnatives hrun none
        [] [] [] (hreachable.accounted hnatives)
      obtain ⟨hsettled, -⟩ := Crew.ended_of_back _ hnatives _ _ _ _ _ _ hreachable rfl hbegin hruns
        _ _ rfl
      exact ⟨_, _, e, rfl, hsettled, of_decide_eq_true hcheck⟩

end DotScript.Machine
