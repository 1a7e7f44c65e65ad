import DotScript.Proofs.Machine.Shift
import DotScript.Proofs.Session.Compiled

/-!
# The limit of the operand stack

Values are pushed only while there is room for them, with one exception: the message of a failure
that is caught is put on the stack without asking. So the stack may be longer than its limit, but
above the limit it holds messages only. Nothing is assumed of the code.

* `Bounded`: what holds of the stack of a thread and of those of the spawned calls;
* `instruction_bounded`, `step_bounded`: instructions and steps keep it.

Main statement: `message_of_limit_le`. `exists_limit_lt_size` is a program whose stack is longer
than its limit.
-/

namespace DotScript.Machine

open DotScript.Bytecode DotScript.Compile DotScript.Syntax

/-! ## Stacks -/

/-- Above its limit a stack holds messages of failures only. -/
def WithinLimit (limits : Limits) (st : Array Value) : Prop :=
  ∀ i v, limits.stack ≤ i → st[i]? = some v → ∃ e : RuntimeError, v = .str e.message

section
variable {limits : Limits} {st : Array Value}

theorem withinLimit_of_size_le (h : st.size ≤ limits.stack) : WithinLimit limits st := by
  intro i v hi hv
  have hlt : i < st.size := (Array.getElem?_eq_some_iff.mp hv).1
  omega

namespace WithinLimit

theorem take (h : WithinLimit limits st) (n : Nat) : WithinLimit limits (st.take n) := by
  intro i v hi hv
  have hlt : i < n := by
    have := (Array.getElem?_eq_some_iff.mp hv).1
    rw [Array.take_eq_extract, Array.size_extract] at this
    omega
  exact h i v hi (by rwa [getElem?_take st hlt] at hv)

theorem push (h : WithinLimit limits st) {v : Value}
    (hv : st.size < limits.stack ∨ ∃ e : RuntimeError, v = .str e.message) :
    WithinLimit limits (st.push v) := by
  rcases hv with hsize | ⟨e, rfl⟩
  · exact withinLimit_of_size_le (by rw [Array.size_push]; exact hsize)
  · intro i x hi hx
    rw [Array.getElem?_push] at hx
    split at hx
    · cases hx
      exact ⟨e, rfl⟩
    · exact h i x hi hx

/-- The top value may be copied to a slot: if the slot is above the limit, then so is the top. -/
theorem copy (h : WithinLimit limits st) {k : Nat} {v : Value} (hv : st.back? = some v)
    (hk : k < st.size) : WithinLimit limits (st.setIfInBounds k v) := by
  intro i u hi hu
  rw [Array.getElem?_setIfInBounds] at hu
  split at hu
  · next heq =>
    cases hu
    rw [Array.back?_eq_getElem?] at hv
    exact h (st.size - 1) v (by omega) hv
  · exact h i u hi hu

end WithinLimit

/-! ## States -/

/-- The stack that the work of a spawned call begins with. -/
def Job.WithinLimit (limits : Limits) : Job → Prop
  | .script t => Machine.WithinLimit limits t.stack
  | .native _ _ => True

/-- The stacks of a thread and of the spawned calls. -/
structure Bounded (limits : Limits) (s : State) : Prop where
  stack : WithinLimit limits s.thread.stack
  pending : ∀ task ∈ s.world.pending, task.job.WithinLimit limits

theorem robust_bounded (limits : Limits) : Robust limits (Bounded limits) where
  goto _ _ h := ⟨h.stack, h.pending⟩
  globals _ _ h := ⟨h.stack, h.pending⟩
  world _ _ hw _ _ h := ⟨h.stack, by rw [hw]; exact h.pending⟩
  push _ _ hroom h := ⟨h.stack.push (.inl hroom), h.pending⟩
  take _ n h := ⟨h.stack.take n, h.pending⟩
  copy _ _ _ hv hk h := ⟨h.stack.copy hv hk, h.pending⟩

section
variable {host : Host} {f : Function} {t : Thread} {w : World} {st : Array Value}

/-! ## Instructions -/

/-- The frames and where a thread is in its code are of no account. -/
theorem bounded_updateThread {g : Thread → Thread} (hg : ∀ t, (g t).stack = t.stack) :
    Preserves (Bounded limits) (fun _ => True) (updateThread g) :=
  .updateThread fun s hs => ⟨by rw [hg]; exact hs.stack, hs.pending⟩

theorem checkArity_bounded {I : State → Prop} (f : Function) (argc : Nat) :
    Preserves I (fun _ => True) (checkArity f argc) :=
  .ite (.throw _) (.pure trivial)

theorem enterFunction_bounded (f : Function) (slot : Nat) (result : Option Value) :
    Preserves (Bounded limits) (fun _ => True) (enterFunction limits f slot result) := by
  refine Preserves.thread.andThen fun t => .ite (preserves_failed _ _) ?_
  exact bounded_updateThread fun _ => rfl

/-- A receiver takes a place of its own, and there is one if it takes it. -/
theorem bindReceiver_bounded (slot : Nat) (f : Function) (receiver : InstanceRef) :
    Preserves (fun s => Bounded limits s ∧ slot < s.thread.stack.size) (fun _ => True)
      (bindReceiver limits slot f receiver) := by
  intro s hs
  simp only [bindReceiver, bind_apply, thread_apply]
  by_cases hfull : limits.stack ≤ s.thread.stack.size
  · simp only [if_pos hfull]
    exact hs
  · simp only [if_neg hfull]
    have hsize : (s.thread.stack.take slot ++ #[Value.function f, .inst receiver] ++
        s.thread.stack.drop (slot + 1)).size = s.thread.stack.size + 1 := by
      have := hs.2
      simp
      omega
    refine ⟨trivial, ⟨withinLimit_of_size_le ?_, hs.1.pending⟩, ?_⟩
    · exact hsize ▸ Nat.lt_of_not_le hfull
    · exact hsize ▸ Nat.lt_succ_of_lt hs.2

theorem enterMethod_bounded (f : Function) (slot : Nat) (receiver : InstanceRef) (argc : Nat)
    (result : Option Value) :
    Preserves (fun s => Bounded limits s ∧ slot < s.thread.stack.size) (fun _ => True) (do
      checkArity f argc
      bindReceiver limits slot f receiver
      enterFunction limits f slot result) := by
  refine (checkArity_bounded f argc).andThen fun _ =>
    (bindReceiver_bounded slot f receiver).andThen fun _ => ?_
  refine Preserves.thread.andThen fun t => .ite (preserves_failed _ _) ?_
  exact .updateThread fun s hs => ⟨⟨hs.1.stack, hs.1.pending⟩, hs.2⟩

/-- Natives spawn no calls. -/
def Host.SpawnsNone (host : Host) : Prop := ∀ b args w, (host.call b args w).2.pending = w.pending

theorem Host.InertIn.spawnsNone {R : Realm} (h : host.InertIn R) (hnative : ∀ b, R.native b) :
    host.SpawnsNone :=
  fun b _ _ => h.pending (hnative b) rfl

theorem callNative_bounded (hnatives : host.SpawnsNone) (n : Native) (args : List Value) :
    Preserves (Bounded limits) (fun _ => True) (callNative host n args) := by
  intro s hs
  rw [callNative_apply]
  rcases hcall : host.call n.builtin args s.world with ⟨r, w'⟩
  have hpending : w'.pending = s.world.pending := by rw [← hnatives n.builtin args s.world, hcall]
  have hs' : Bounded limits { s with world := w' } := by
    refine ⟨hs.stack, ?_⟩
    simp only [hpending]
    exact hs.pending
  cases r with
  | ok v => exact ⟨trivial, hs'⟩
  | error message => exact hs'

theorem callValue_bounded (hnatives : host.SpawnsNone) (argc : Nat) :
    Preserves (Bounded host.limits) (fun _ => True) (callValue host argc) := by
  have hI := robust_bounded host.limits
  have hcut : ∀ n, Preserves (Bounded host.limits) (fun _ => True)
      (updateStack fun st => st.take n) := fun n => .updateThread fun s hs => hI.take s n hs
  intro s hs
  simp only [callValue]
  rw [bind_of_ok (thread_apply _)]
  by_cases hsize : s.thread.stack.size < argc + 1
  · simp only [if_pos hsize]
    exact hs
  simp only [if_neg hsize]
  have hslot : s.thread.stack.size - (argc + 1) < s.thread.stack.size := by omega
  cases s.thread.stack.getD (s.thread.stack.size - (argc + 1)) .null with
  | function f => exact ((checkArity_bounded f argc).andThen fun _ =>
    enterFunction_bounded f _ none) s hs
  | bound receiver method =>
    exact (enterMethod_bounded method _ receiver argc none).weaken (fun _ h => h.1) ⟨hs, hslot⟩
  | native n =>
    exact ((hcut _).andThen fun _ => (callNative_bounded hnatives _ _).andThen fun v =>
      push_robust hI v) s hs
  | classRef c =>
    simp only
    rw [bind_of_ok (world_apply _), bind_of_ok (updateWorld_apply _ _)]
    cases (s.world.heap.newInstance c).2.method? c "init" with
    | none => exact ((hcut _).andThen fun _ => push_robust hI _) _ ⟨hs.stack, hs.pending⟩
    | some init =>
      exact (enterMethod_bounded init _ _ argc _).weaken (fun _ h => h.1)
        ⟨⟨hs.stack, hs.pending⟩, hslot⟩
  | _ => exact hs

theorem doReturn_bounded (v : Value) :
    Preserves (Bounded host.limits) (fun _ => True) (doReturn host v) := by
  have hI := robust_bounded host.limits
  refine Preserves.thread.andThen fun t => .ite (.pure trivial) ?_
  split
  · exact .pure trivial
  · exact (Preserves.updateThread fun s hs => ⟨hs.stack.take _, hs.pending⟩).andThen fun _ =>
      (push_robust hI _).andThen fun _ => .pure trivial

theorem beginImport_bounded (path : String) :
    Preserves (Bounded host.limits) (fun _ => True) (beginImport host path) := by
  unfold beginImport
  split
  · exact .throw _
  · refine Preserves.thread.andThen fun t => .ite (preserves_failed _ _) ?_
    refine Preserves.world.andThen fun w => ?_
    split
    · exact .throw _
    · exact bounded_updateThread fun _ => rfl

/-- The arguments of a spawned call move down, to the bottom of a stack of its own. -/
theorem jobOf_withinLimit {callee : Value} {args : List Value} {job : Job}
    (h : WithinLimit limits (st.push callee ++ args.toArray)) (hjob : jobOf t callee args = .ok job) :
    job.WithinLimit limits := by
  have hargs : ∀ k v, limits.stack ≤ st.size + 1 + k → args[k]? = some v →
      ∃ e : RuntimeError, v = .str e.message := by
    intro k v hk hv
    refine h (st.size + 1 + k) v hk ?_
    rw [Array.getElem?_append_right (by simp), Array.size_push, Nat.add_sub_cancel_left,
      List.getElem?_toArray, hv]
  unfold jobOf at hjob
  split at hjob
  · cases hjob
    trivial
  · next f =>
    split at hjob
    · cases hjob
    · cases hjob
      intro i v hi hv
      exact hargs i v (by omega) (by simpa [Thread.child] using hv)
  · next receiver f =>
    split at hjob
    · cases hjob
    · cases hjob
      intro i v hi hv
      cases i with
      | zero =>
        -- Without any room the bound method could not have been on the stack.
        have hcallee : (st.push (.bound receiver f) ++ args.toArray)[st.size]? =
            some (.bound receiver f) := by
          rw [Array.getElem?_append_left (by simp), Array.getElem?_push_size]
        obtain ⟨e, he⟩ := h st.size _ (by omega) hcallee
        cases he
      | succ k => exact hargs k v (by omega) (by simpa [Thread.child] using hv)
  · cases hjob

theorem spawnCall_bounded (argc : Nat) :
    Preserves (Bounded host.limits) (fun _ => True) (spawnCall host argc) := by
  have hI := robust_bounded host.limits
  rintro ⟨t, w⟩ hs
  simp only [spawnCall]
  rcases lt_or_exists_append t.stack argc with hlt | ⟨st, args, hst, hargs⟩
  · have hr : popMany argc ⟨t, w⟩ = .error .stackUnderflow ⟨t, w⟩ := by
      simp only [popMany, bind_apply, thread_apply, if_pos hlt, throw_apply]
    rw [bind_of_error hr]
    exact hs
  · have htake : st = t.stack.take st.size := by simp [hst]
    have hs₁ : Bounded host.limits ⟨{ t with stack := st }, w⟩ := by
      refine ⟨?_, hs.pending⟩
      change WithinLimit host.limits st
      rw [htake]
      exact hs.stack.take _
    rw [bind_of_ok (popMany_append hst hargs)]
    rcases Nat.eq_zero_or_pos st.size with hempty | hpos
    · rw [bind_of_error (pop_empty (t := { t with stack := st }) hempty w)]
      exact hs₁
    obtain ⟨st', callee, rfl⟩ := Array.size_pos_iff_exists_push.mp hpos
    rw [bind_of_ok (pop_push (t := { t with stack := st'.push callee }) rfl), bind_apply,
      spawnJob_apply]
    have hs₂ : Bounded host.limits ⟨{ t with stack := st' }, w⟩ := by
      refine ⟨?_, hs.pending⟩
      change WithinLimit host.limits st'
      have hst' : st' = (st'.push callee).take st'.size := by simp
      rw [hst']
      exact hs₁.stack.take _
    have hstack : WithinLimit host.limits (st'.push callee ++ args.toArray) := hst ▸ hs.stack
    cases hjob : jobOf { t with stack := st' } callee args with
    | error e => exact hs₂
    | ok job =>
      refine push_robust hI .null _ ⟨hs₂.stack, fun task htask => ?_⟩
      rcases List.mem_append.mp htask with htask | htask
      · exact hs.pending task htask
      · cases List.mem_singleton.mp htask
        exact jobOf_withinLimit hstack hjob

/-- The operand of an instruction and the rest of it. -/
theorem indexed_bounded {f : Nat → Exec Unit} {Q : Option Value → Prop} (hQ : Q none)
    (h : ∀ n, Preserves (Bounded host.limits) (fun _ => True) (f n)) :
    Preserves (Bounded host.limits) Q (do f (← readIndex); return none) :=
  (readIndex_robust (robust_bounded host.limits)).andThen fun n => (h n).andThen fun _ => .pure hQ

theorem execute_bounded (hnatives : host.SpawnsNone) (op : Opcode) :
    Preserves (Bounded host.limits) (fun _ => True) (execute host op) := by
  have hI := robust_bounded host.limits
  cases hplain : Plain op with
  | true => exact (execute_robust hI hplain).mono fun _ _ => trivial
  | false =>
    cases op with
    | ret => exact (pop_robust hI).andThen fun v => doReturn_bounded v
    | call => exact indexed_bounded trivial (callValue_bounded hnatives)
    | spawn => exact indexed_bounded trivial spawnCall_bounded
    | importUnit =>
      exact (pop_robust hI).andThen fun path => (beginImport_bounded _).andThen fun _ =>
        .pure trivial
    | tryEnter =>
      exact (readOperand_robust hI).andThen fun offset => (Preserves.jumpTarget offset).andThen
        fun a => Preserves.andThen (bounded_updateThread fun _ => rfl) fun _ => .pure trivial
    | tryExit =>
      exact Preserves.andThen (bounded_updateThread fun _ => rfl) fun _ => .pure trivial
    | _ => cases hplain

theorem instruction_bounded (hnatives : host.SpawnsNone) :
    Preserves (Bounded host.limits) (fun _ => True) (instruction host) := by
  refine Preserves.thread.andThen fun t => ?_
  split
  · exact doReturn_bounded _
  · split
    · exact .throw _
    · exact Preserves.andThen (bounded_updateThread fun _ => rfl) fun _ =>
        execute_bounded hnatives _

/-! ## Steps -/

/-- A failure that is caught leaves its message, also where there is no room for it. -/
theorem raise_withinLimit {t' : Thread} {ws : List Window} {e : RuntimeError}
    (h : WithinLimit limits t.stack) (hr : t.raise ws e = .ok t') : WithinLimit limits t'.stack := by
  induction ws generalizing t e with
  | nil =>
    cases hh : t.handler with
    | none =>
      simp only [Thread.raise, hh] at hr
      cases hr
    | some handler =>
      simp only [Thread.raise, hh] at hr
      cases hr
      exact (h.take _).push (.inr ⟨e, rfl⟩)
  | cons w outer ih =>
    cases hh : t.handler with
    | none =>
      simp only [Thread.raise, hh] at hr
      exact ih (h.take _) hr
    | some handler =>
      simp only [Thread.raise, hh] at hr
      cases hr
      exact (h.take _).push (.inr ⟨e, rfl⟩)

/-- What is left to bound after a step. The stack of a thread that has failed is thrown away. -/
def Outcome.Bounded (limits : Limits) : Outcome → Prop
  | .running s => Machine.Bounded limits s
  | .finished _ s => Machine.Bounded limits s
  | .failed _ s => ∀ task ∈ s.world.pending, task.job.WithinLimit limits

theorem step_bounded (hnatives : host.SpawnsNone) {s : State} (h : Bounded host.limits s) :
    (step host s).Bounded host.limits := by
  have hinstruction := instruction_bounded hnatives s h
  simp only [step]
  cases hr : instruction host s with
  | ok r s' =>
    rw [hr] at hinstruction
    obtain ⟨-, hs'⟩ := hinstruction
    cases r with
    | none => exact hs'
    | some v =>
      cases hw : s'.thread.windows with
      | nil =>
        simp only [hw]
        exact hs'
      | cons window outer =>
        simp only [hw]
        exact ⟨hs'.stack.take _, hs'.pending⟩
  | error e s' =>
    rw [hr] at hinstruction
    cases hraise : s'.thread.raise s'.thread.windows e with
    | ok t' =>
      simp only [hraise]
      exact ⟨raise_withinLimit hinstruction.stack hraise, hinstruction.pending⟩
    | error failure =>
      simp only [hraise]
      exact hinstruction.pending

/-! ## Sessions -/

/-- The stack of a thread that runs or has run. Of one that has not begun nothing is known. -/
def Cell.WithinLimit (limits : Limits) (c : Cell) : Prop :=
  c.activity ≠ .idle → Machine.WithinLimit limits c.thread.stack

/-- The stacks of the threads of a session and of the spawned calls. -/
structure Pool.Bounded (limits : Limits) (P : Pool) : Prop where
  cells : ∀ c ∈ P.cells, c.WithinLimit limits
  pending : ∀ task ∈ P.world.pending, task.job.WithinLimit limits

theorem withinLimit_empty : WithinLimit limits #[] := nofun

/-- One thread has changed. -/
theorem Pool.Bounded.replace {c c' : Cell} {before after : List Cell} {w' : World}
    (h : Pool.Bounded limits ⟨before ++ c :: after, w⟩) (hc : c'.WithinLimit limits)
    (hw : ∀ task ∈ w'.pending, task.job.WithinLimit limits) :
    Pool.Bounded limits ⟨before ++ c' :: after, w'⟩ := by
  refine ⟨fun d hd => ?_, hw⟩
  rcases List.mem_append.mp hd with hd | hd
  · exact h.cells d (List.mem_append_left _ hd)
  · rcases List.mem_cons.mp hd with rfl | hd
    · exact hc
    · exact h.cells d (List.mem_append_right _ (List.mem_cons_of_mem _ hd))

theorem failed_pending (work : Work) (e : RuntimeError) (w : World) :
    (work.failed e w).pending = w.pending := by
  cases work <;> rfl

/-- The spawned call that begins, and those that wait on. -/
theorem Pool.Bounded.launch {cells : List Cell} {before after : List Task} {task : Task}
    (h : Pool.Bounded limits ⟨cells, w⟩) (hw : w.pending = before ++ task :: after) :
    task.job.WithinLimit limits ∧ ∀ task' ∈ before ++ after, task'.job.WithinLimit limits := by
  have hpending := h.pending
  simp only [hw] at hpending
  refine ⟨hpending task (List.mem_append_right _ List.mem_cons_self), fun task' h' =>
    hpending task' ?_⟩
  rcases List.mem_append.mp h' with h' | h'
  · exact List.mem_append_left _ h'
  · exact List.mem_append_right _ (List.mem_cons_of_mem _ h')

theorem Pool.Bounded.move (hnatives : host.SpawnsNone) {P P' : Pool} (h : P.Bounded host.limits)
    (hmove : P.Move host P') : P'.Bounded host.limits := by
  have hcell : ∀ {t past work before after w}, P = ⟨before ++ ⟨t, past, work, .running⟩ :: after, w⟩ →
      Machine.Bounded host.limits ⟨t, w⟩ := by
    rintro t past work before after w rfl
    have hrunning : Activity.running ≠ .idle := nofun
    exact ⟨h.cells _ (List.mem_append_right _ List.mem_cons_self) hrunning, h.pending⟩
  cases hmove with
  | run hstep =>
    have hs := step_bounded hnatives (hcell rfl)
    rw [hstep] at hs
    exact h.replace (fun _ => hs.stack) hs.pending
  | finish hstep =>
    have hs := step_bounded hnatives (hcell rfl)
    rw [hstep] at hs
    exact h.replace (fun _ => hs.stack) hs.pending
  | @fail before after t past work w e s hstep =>
    have hs := step_bounded hnatives (hcell rfl)
    rw [hstep] at hs
    exact h.replace (fun _ => withinLimit_empty) ((failed_pending work e s.world).symm ▸ hs)
  | launch hw hjob =>
    obtain ⟨hstart, hrest⟩ := h.launch hw
    rw [hjob] at hstart
    refine ⟨fun c hc => ?_, hrest⟩
    rcases List.mem_append.mp hc with hc | hc
    · exact h.cells c hc
    · cases List.mem_singleton.mp hc
      exact fun _ => hstart
  | @native cells w before task after n args v w' hw hjob hcall =>
    have hpending := hnatives n.builtin args { w with pending := before ++ after }
    rw [hcall] at hpending
    exact ⟨h.cells, hpending.symm ▸ (h.launch hw).2⟩
  | @nativeFail cells w before task after n args message w' hw hjob hcall =>
    have hpending := hnatives n.builtin args { w with pending := before ++ after }
    rw [hcall] at hpending
    refine ⟨h.cells, ?_⟩
    simp only [failed_pending]
    exact hpending.symm ▸ (h.launch hw).2

/-- The stacks of a session stay bounded. -/
theorem Reachable.bounded {code : Program → Chunk → Prop} {P : Pool} (hnatives : host.SpawnsNone)
    (h : Reachable host code P) : P.Bounded host.limits := by
  induction h with
  | initial hglobals hwindows himports hpending =>
    refine ⟨fun d hd => ?_, ?_⟩
    · cases List.mem_singleton.mp hd
      exact fun hidle => absurd rfl hidle
    · simp only [hpending]
      nofun
  | next h hstep ih =>
    cases hstep with
    | move hmove => exact ih.move hnatives hmove
    | @begin t past work activity cells w p c hcode hidle =>
      have ih' : Pool.Bounded host.limits ⟨[] ++ ⟨t, past, work, activity⟩ :: cells, w⟩ := ih
      exact ih'.replace (fun _ => withinLimit_empty) ih.pending
    | @define t past work activity cells w name v hv hidle =>
      have ih' : Pool.Bounded host.limits ⟨[] ++ ⟨t, past, work, activity⟩ :: cells, w⟩ := ih
      exact ih'.replace (ih.cells ⟨t, past, work, activity⟩ List.mem_cons_self) ih.pending
    | outside hheap hpending => exact ⟨ih.cells, hpending.symm ▸ ih.pending⟩

/-- Above the limit of its stack a thread holds messages of caught failures only. This is so in
every session, whatever its code is, if its natives spawn no calls. -/
theorem message_of_limit_le (host : Host) (hnatives : host.SpawnsNone)
    (code : Program → Chunk → Prop) (P : Pool) (h : Reachable host code P) (c : Cell)
    (hc : c ∈ P.cells) (hactivity : c.activity ≠ .idle) (i : Nat) (v : Value)
    (hi : host.limits.stack ≤ i) (hv : c.thread.stack[i]? = some v) :
    ∃ e : RuntimeError, v = .str e.message :=
  (h.bounded hnatives).cells c hc hactivity i v hi hv

end

end

/-- A program that catches two failures for want of room, the second one while the message of the
first one is a local: `try: print true + true catch a: try: print true catch b: . .` -/
def caughtTwice : Program where
  stmts := [.tryCatch ⟨[.print (.binary .add (.bool true ⟨12, 16⟩) (.bool true ⟨19, 23⟩) ⟨12, 23⟩)
      ⟨6, 23⟩], ⟨6, 23⟩⟩ ⟨"a", ⟨30, 31⟩⟩
    ⟨[.tryCatch ⟨[.print (.bool true ⟨45, 49⟩) ⟨39, 49⟩], ⟨39, 49⟩⟩ ⟨"b", ⟨56, 57⟩⟩ ⟨[], ⟨58, 58⟩⟩
      ⟨34, 60⟩], ⟨34, 60⟩⟩ ⟨0, 62⟩]
  span := ⟨0, 62⟩

/-- After the second failure the stack holds both messages, with room for one value. -/
theorem reachable_caughtTwice : ∃ (P : Pool) (t : Thread) (past : List Thread) (work : Work),
    Reachable (Session.hostWith { stack := 1 } none) Compiled P ∧
      ⟨t, past, work, .running⟩ ∈ P.cells ∧ t.stack.size = 2 := by
  obtain ⟨c, hc, hcheck⟩ := exists_compiled caughtTwice "main"
    (fun c => match trail (Session.hostWith { stack := 1 } none) 5 ⟨Thread.start {} c, {}⟩ [] with
      | some (s, _) => decide (s.thread.stack.size = 2)
      | none => false) (by decide +kernel)
  cases hr : trail (Session.hostWith { stack := 1 } none) 5 ⟨Thread.start {} c, {}⟩ [] with
  | none =>
    rw [hr] at hcheck
    cases hcheck
  | some r =>
    obtain ⟨s, past⟩ := r
    rw [hr] at hcheck
    have hbegin : Reachable (Session.hostWith { stack := 1 } none) Compiled
        ⟨[] ++ ⟨Thread.start {} c, [], .main (some caughtTwice), .running⟩ :: [], {}⟩ :=
      .next (.initial (t := {}) (w := {}) nofun rfl rfl rfl) (.begin hc nofun)
    exact ⟨_, s.thread, past, _, reachable_trail hr hbegin, List.mem_cons_self,
      of_decide_eq_true hcheck⟩

/-- The value above the limit is a message. -/
theorem message_of_limit_le_caughtTwice : ∃ (P : Pool) (t : Thread) (past : List Thread)
    (work : Work) (v : Value), Reachable (Session.hostWith { stack := 1 } none) Compiled P ∧
      ⟨t, past, work, .running⟩ ∈ P.cells ∧ t.stack[1]? = some v ∧
      ∃ e : RuntimeError, v = .str e.message := by
  obtain ⟨P, t, past, work, hP, ht, hsize⟩ := reachable_caughtTwice
  have hv : t.stack[1]? = some t.stack[1] := Array.getElem?_eq_getElem (by omega)
  have hnatives : (Session.hostWith { stack := 1 } none).SpawnsNone :=
    (Natives.inertIn_of_callForHost rfl (codeRealm (fun _ => True) {})).spawnsNone fun _ => trivial
  exact ⟨P, t, past, work, _, hP, ht, hv,
    message_of_limit_le _ hnatives Compiled P hP _ ht nofun 1 _ (Nat.le_refl 1) hv⟩

/-- The limit of the stack is not kept. -/
theorem exists_limit_lt_size : ∃ (host : Host) (P : Pool) (t : Thread) (past : List Thread)
    (work : Work), Reachable host Compiled P ∧ ⟨t, past, work, .running⟩ ∈ P.cells ∧
      host.limits.stack < t.stack.size := by
  obtain ⟨P, t, past, work, hP, ht, hsize⟩ := reachable_caughtTwice
  exact ⟨_, P, t, past, work, hP, ht, hsize ▸ Nat.lt_succ_self 1⟩

end DotScript.Machine
