import DotScript.Proofs.Machine.Shift

/-!
# What arbitrary code can do to the spawned calls

Only one instruction spawns calls, and only if what it is to call passes the check of its kind and
of the number of its arguments. Nothing is assumed of the code.

* `World.SameCalls`: as many calls have been spawned, the same ones wait, and the same failures of
  spawned calls have been reported;
* `Thread.spawnCheck?`: what the check of the instruction at which a thread stands comes to;
* `Spawns`: what an instruction does to the spawned calls, `instruction_spawns`, `step_spawns`.
-/

namespace DotScript.Machine

open DotScript.Bytecode DotScript.Compile

/-! ## Reports of failed calls -/

/-- What the report of a failed spawned call begins with. -/
def failurePrefix : String := "[jihll-spawn-"

/-- Whether a line is the report of a failed spawned call. -/
def isFailure (line : String) : Bool := failurePrefix.toList.isPrefixOf line.toList

/-- The reports of failed spawned calls. -/
def World.failures (w : World) : List String := w.reports.toList.filter isFailure

/-- The world with one more spawned call. -/
def World.spawn (w : World) (job : Job) : World :=
  { w with threads := w.threads + 1, pending := w.pending ++ [⟨w.threads, job⟩] }

/-- Two worlds with the same spawned calls. -/
structure World.SameCalls (w w' : World) : Prop where
  threads : w'.threads = w.threads
  pending : w'.pending = w.pending
  failures : w'.failures = w.failures

/-- Natives neither spawn calls nor report the failures of spawned calls. -/
def Host.LeavesCalls (host : Host) : Prop :=
  ∀ b args (w : World), w.SameCalls (host.call b args w).2

/-- The outcome of the check that the next instruction makes of what it is to spawn; none if it is
no such instruction, or does not find what it takes on the stack. -/
def Thread.spawnCheck? (t : Thread) : Option (Except RuntimeError Job) := do
  let word ← t.image.chunk.code[t.ip]?
  let operand ← t.image.chunk.code[t.ip + 1]?
  let argc := operand.toInt.toNat
  if word = Opcode.spawn.encode ∧ 0 ≤ operand.toInt ∧ argc < t.stack.size then
    some (jobOf t (t.stack.getD (t.stack.size - (argc + 1)) .null)
      (t.stack.drop (t.stack.size - argc)).toList)
  else none

/-- What an instruction does to the spawned calls: it spawns one if the check says so. -/
def Spawns (check : Option (Except RuntimeError Job)) (w w' : World) : Prop :=
  match check with
  | some (.ok job) => w' = w.spawn job
  | _ => w.SameCalls w'

section
variable {host : Host} {w w' w'' : World} {t : Thread} {op : Opcode}

theorem World.SameCalls.refl (w : World) : w.SameCalls w := ⟨rfl, rfl, rfl⟩

theorem World.SameCalls.trans (h : w.SameCalls w') (h' : w'.SameCalls w'') : w.SameCalls w'' :=
  ⟨h'.threads.trans h.threads, h'.pending.trans h.pending, h'.failures.trans h.failures⟩

theorem World.failures_report (w : World) (line : String) :
    (w.report line).failures = w.failures ++ if isFailure line then [line] else [] := by
  simp only [World.failures, World.report, Array.toList_push, List.filter_append]
  cases h : isFailure line <;> simp [h]

theorem isFailure_append (rest : String) : isFailure (failurePrefix ++ rest) = true := by
  simp [isFailure, String.toList_append]

/-! ## Instructions -/

/-- A property of the spawned calls only. -/
theorem robust_sameCalls (limits : Limits) (w : World) :
    Robust limits fun s => w.SameCalls s.world where
  goto _ _ h := h
  globals _ _ h := h
  world s w' hpending hthreads hreports h := by
    refine h.trans ⟨hthreads, hpending, ?_⟩
    rw [World.failures, hreports, World.failures]
  push _ _ _ h := h
  take _ _ h := h
  copy _ _ _ _ _ h := h

/-- Whatever is done to the thread does nothing to the spawned calls. -/
theorem sameCalls_updateThread (w : World) (f : Thread → Thread) :
    Preserves (fun s => w.SameCalls s.world) (fun _ => True) (updateThread f) :=
  .updateThread fun _ hs => hs

theorem enterFunction_sameCalls (w : World) (limits : Limits) (f : Function) (slot : Nat)
    (result : Option Value) :
    Preserves (fun s => w.SameCalls s.world) (fun _ => True) (enterFunction limits f slot result) := by
  apply Preserves.thread.andThen
  intro t
  exact .ite (preserves_failed _ _) (sameCalls_updateThread w _)

theorem enterMethod_sameCalls (w : World) (limits : Limits) (f : Function) (slot argc : Nat)
    (receiver : InstanceRef) (result : Option Value) :
    Preserves (fun s => w.SameCalls s.world) (fun _ => True) (do
      checkArity f argc
      bindReceiver limits slot f receiver
      enterFunction limits f slot result) := by
  have harity : Preserves (fun s => w.SameCalls s.world) (fun _ => True) (checkArity f argc) :=
    .ite (.throw _) (.pure trivial)
  have hbind : Preserves (fun s => w.SameCalls s.world) (fun _ => True)
      (bindReceiver limits slot f receiver) := by
    apply Preserves.thread.andThen
    intro t
    exact .ite (preserves_failed _ _) (sameCalls_updateThread w _)
  exact harity.andThen fun _ => hbind.andThen fun _ => enterFunction_sameCalls w limits f slot result

theorem callNative_sameCalls (hnatives : host.LeavesCalls) (w : World) (n : Native)
    (args : List Value) :
    Preserves (fun s => w.SameCalls s.world) (fun _ => True) (callNative host n args) := by
  intro s hs
  have hcalls := hs.trans (hnatives n.builtin args s.world)
  rw [callNative_apply]
  rcases hcall : host.call n.builtin args s.world with ⟨r, w'⟩
  rw [hcall] at hcalls
  cases r with
  | ok v => exact ⟨trivial, hcalls⟩
  | error message => exact hcalls

theorem callValue_sameCalls (hnatives : host.LeavesCalls) (w : World) (argc : Nat) :
    Preserves (fun s => w.SameCalls s.world) (fun _ => True) (callValue host argc) := by
  have hI := robust_sameCalls host.limits w
  apply Preserves.thread.andThen
  intro t
  refine .ite (preserves_failed _ _) ?_
  dsimp only
  split
  · next f _ =>
    exact Preserves.andThen (.ite (.throw _) (.pure trivial)) fun _ =>
      enterFunction_sameCalls w host.limits f _ none
  · exact enterMethod_sameCalls w host.limits _ _ _ _ _
  · exact (sameCalls_updateThread w _).andThen fun _ =>
      (callNative_sameCalls hnatives w _ _).andThen fun v => push_robust hI v
  · apply Preserves.world.andThen
    intro w₁
    apply (heap_robust hI fun _ => _).andThen
    intro _
    split
    · exact (sameCalls_updateThread w _).andThen fun _ => push_robust hI _
    · exact enterMethod_sameCalls w host.limits _ _ _ _ _
  · exact .throw _

theorem doReturn_sameCalls (w : World) (v : Value) :
    Preserves (fun s => w.SameCalls s.world) (fun _ => True) (doReturn host v) := by
  have hI := robust_sameCalls host.limits w
  apply Preserves.thread.andThen
  intro t
  refine .ite (.pure trivial) ?_
  split
  · exact .pure trivial
  · exact (sameCalls_updateThread w _).andThen fun _ => (push_robust hI _).andThen fun _ =>
      .pure trivial

theorem beginImport_sameCalls (w : World) (path : String) :
    Preserves (fun s => w.SameCalls s.world) (fun _ => True) (beginImport host path) := by
  unfold beginImport
  split
  · exact .throw _
  · apply Preserves.thread.andThen
    intro t
    refine .ite (preserves_failed _ _) ?_
    apply Preserves.world.andThen
    intro w₁
    split
    · exact .throw _
    · exact sameCalls_updateThread w _

/-- Instructions that spawn nothing. -/
theorem execute_sameCalls (hnatives : host.LeavesCalls) (w : World) (hop : op ≠ .spawn) :
    Preserves (fun s => w.SameCalls s.world) (fun _ => True) (execute host op) := by
  have hI := robust_sameCalls host.limits w
  cases hplain : Plain op with
  | true => exact (execute_robust hI hplain).mono fun _ _ => trivial
  | false =>
    cases op with
    | spawn => exact absurd rfl hop
    | ret => exact (pop_robust hI).andThen fun v => doReturn_sameCalls w v
    | call =>
      exact (readIndex_robust hI).andThen fun n => (callValue_sameCalls hnatives w n).andThen
        fun _ => .pure trivial
    | importUnit =>
      exact (pop_robust hI).andThen fun path => (beginImport_sameCalls w _).andThen fun _ =>
        .pure trivial
    | tryEnter =>
      exact (readOperand_robust hI).andThen fun offset => (Preserves.jumpTarget offset).andThen
        fun a => Preserves.andThen (sameCalls_updateThread w _) fun _ => .pure trivial
    | tryExit => exact Preserves.andThen (sameCalls_updateThread w _) fun _ => .pure trivial
    | _ => cases hplain

/-! ## Spawning -/

/-- The world that an instruction leaves. -/
def worldAfter : Result (Option Value) → World
  | .ok _ s | .error _ s => s.world

theorem worldAfter_of_preserves {m : Exec (Option Value)} {I : World → Prop} {s : State}
    (h : Preserves (fun s => I s.world) (fun _ => True) m) (hs : I s.world) :
    I (worldAfter (m s)) := by
  have hm := h s hs
  cases hr : m s with
  | ok a s' =>
    rw [hr] at hm
    exact hm.2
  | error e s' =>
    rw [hr] at hm
    exact hm

theorem worldAfter_pushed (host : Host) (v : Value) (t : Thread) (w : World) :
    worldAfter (pushed host v t w) = w := by
  unfold pushed
  split <;> rfl

/-- The check depends on what is called only, and not on what else is on the stack. -/
theorem jobOf_move (t : Thread) (a : Nat) (st : Array Value) (callee : Value) (args : List Value) :
    jobOf { t with ip := a, stack := st } callee args = jobOf t callee args := rfl

theorem spawnCheck?_of_not_opAt (h : ¬ OpAt t.image.chunk t.ip .spawn) : t.spawnCheck? = none := by
  cases hr : t.spawnCheck? with
  | none => rfl
  | some r =>
    simp only [Thread.spawnCheck?, Option.bind_eq_bind, Option.bind_eq_some_iff] at hr
    obtain ⟨word, hword, operand, hoperand, hr⟩ := hr
    split at hr
    · next hspawn => exact absurd (hword.trans (congrArg some hspawn.1)) h
    · cases hr

theorem spawnCheck?_of_instrAt {callee : Value} {args : List Value} {st : Array Value}
    (h : InstrAt t.image.chunk t.ip .spawn args.length)
    (hst : t.stack = st.push callee ++ args.toArray) :
    t.spawnCheck? = some (jobOf t callee args) := by
  obtain ⟨hop, operand, hoperand, hn⟩ := h
  simp only [OpAt] at hop
  have hsize : t.stack.size = st.size + 1 + args.length := by
    rw [hst]
    simp
    omega
  have hcallee : t.stack.getD (t.stack.size - (args.length + 1)) .null = callee := by
    have hslot : t.stack.size - (args.length + 1) = st.size := by omega
    rw [hslot, hst, Array.getD_eq_getD_getElem?, Array.getElem?_append_left (by simp),
      Array.getElem?_push_size]
    rfl
  have hargs : (t.stack.drop (t.stack.size - args.length)).toList = args := by
    have hslot : t.stack.size - args.length = (st.push callee).size := by
      rw [Array.size_push]
      omega
    rw [hslot, hst]
    simp
  simp only [Thread.spawnCheck?, hop, hoperand, Option.bind_eq_bind, Option.bind_some, hn,
    Int.toNat_natCast, Int.natCast_nonneg, true_and]
  rw [if_pos (by omega), hcallee, hargs]

/-- Without an operand, or with too little on the stack, nothing is checked. -/
theorem spawnCheck?_eq_none (h : ∀ n, InstrAt t.image.chunk t.ip .spawn n → t.stack.size < n + 1) :
    t.spawnCheck? = none := by
  cases hcheck : t.spawnCheck? with
  | none => rfl
  | some r =>
    simp only [Thread.spawnCheck?, Option.bind_eq_bind, Option.bind_eq_some_iff] at hcheck
    obtain ⟨word, hword, operand, hoperand, hcheck⟩ := hcheck
    split at hcheck
    · next hspawn =>
      obtain ⟨rfl, hpos, hsize⟩ := hspawn
      have hlt := h _ ⟨hword, operand, hoperand, (Int.toNat_of_nonneg hpos).symm⟩
      omega
    · cases hcheck

/-- With too little on the stack, nothing is spawned. -/
theorem spawnCall_sameCalls {n : Nat} (hlt : t.stack.size < n + 1) (w : World) :
    ∃ e t', spawnCall host n ⟨t, w⟩ = .error e ⟨t', w⟩ := by
  rcases lt_or_exists_append t.stack n with hlt' | ⟨st, args, hst, hargs⟩
  · have hr : popMany n ⟨t, w⟩ = .error .stackUnderflow ⟨t, w⟩ := by
      simp only [popMany, bind_apply, thread_apply, if_pos hlt', throw_apply]
    exact ⟨_, _, bind_of_error hr⟩
  · have hempty : st.size = 0 := by
      simp [hst] at hlt
      omega
    refine ⟨.stackUnderflow, { t with stack := st }, ?_⟩
    simp only [spawnCall]
    rw [bind_of_ok (popMany_append hst hargs)]
    exact bind_of_error (pop_empty (t := { t with stack := st }) hempty w)

/-- Whatever else the instruction that spawns a call does, it counts the call and lets it wait, if
the check has been passed. -/
theorem spawn_spawns (hop : OpAt t.image.chunk t.ip .spawn) (w : World) :
    Spawns t.spawnCheck? w (worldAfter (instruction host ⟨t, w⟩)) := by
  have hexec := instruction_of_opAt (w := w) host hop
  rcases readIndex_cases hop w with ⟨e, a, hr⟩ | ⟨n, hinstr, hr⟩
  · -- There is no operand.
    have hnone : t.spawnCheck? = none := by
      refine spawnCheck?_eq_none fun n hinstr => ?_
      rw [readIndex_of_instrAt hinstr] at hr
      cases hr
    rw [hnone, hexec]
    simp only [execute]
    rw [bind_of_error hr]
    exact .refl w
  · rcases lt_or_exists_append t.stack (n + 1) with hlt | ⟨st, vs, hst, hvs⟩
    · have hnone : t.spawnCheck? = none := by
        refine spawnCheck?_eq_none fun m hinstr' => ?_
        rw [hinstr'.operand_unique hinstr]
        exact hlt
      obtain ⟨e, t', hcall⟩ : ∃ e t', spawnCall host n ⟨{ t with ip := t.ip + 2 }, w⟩ =
          .error e ⟨t', w⟩ := spawnCall_sameCalls (t := { t with ip := t.ip + 2 }) hlt w
      rw [hnone, hexec]
      simp only [execute]
      rw [bind_of_ok hr, bind_of_error hcall]
      exact .refl w
    · cases vs with
      | nil => cases hvs
      | cons callee args =>
        have hlength : n = args.length := (Nat.succ.inj hvs).symm
        subst hlength
        have hst' : t.stack = st.push callee ++ args.toArray := by
          rw [hst]
          simp
        rw [spawnCheck?_of_instrAt hinstr hst', instruction_spawn host hinstr hst',
          jobOf_move t (t.ip + 2) st]
        cases jobOf t callee args with
        | error e => exact .refl w
        | ok job => exact worldAfter_pushed host .null _ _

/-- An instruction spawns a call if the check says so, and otherwise none. -/
theorem instruction_spawns (hnatives : host.LeavesCalls) (t : Thread) (w : World) :
    Spawns t.spawnCheck? w (worldAfter (instruction host ⟨t, w⟩)) := by
  by_cases hspawn : OpAt t.image.chunk t.ip .spawn
  · exact spawn_spawns hspawn w
  rw [spawnCheck?_of_not_opAt hspawn]
  rcases instruction_cases host t w with ⟨-, hr⟩ | ⟨e, hr⟩ | ⟨op, hop, hr⟩
  · rw [hr]
    exact worldAfter_of_preserves (I := w.SameCalls) (doReturn_sameCalls w .null) (.refl w)
  · rw [hr]
    exact .refl w
  · rw [hr]
    have hne : op ≠ .spawn := by
      rintro rfl
      exact hspawn hop
    exact worldAfter_of_preserves (I := w.SameCalls) (execute_sameCalls hnatives w hne) (.refl w)

/-! ## Steps -/

/-- The world that a step leaves. -/
def Outcome.world : Outcome → World
  | .running s | .finished _ s | .failed _ s => s.world

/-- What becomes of the thread after an instruction is nothing to the world. -/
theorem step_world (host : Host) (s : State) : (step host s).world = worldAfter (instruction host s) := by
  simp only [step]
  cases instruction host s with
  | ok r s' =>
    cases r with
    | none => rfl
    | some v =>
      cases hwindows : s'.thread.windows with
      | nil =>
        simp only [hwindows]
        rfl
      | cons window outer =>
        simp only [hwindows]
        rfl
  | error e s' =>
    cases hraise : s'.thread.raise s'.thread.windows e with
    | ok t' =>
      simp only [hraise]
      rfl
    | error failure =>
      simp only [hraise]
      rfl

/-- A step spawns a call if the check says so, and otherwise none. -/
theorem step_spawns (hnatives : host.LeavesCalls) (t : Thread) (w : World) :
    Spawns t.spawnCheck? w (step host ⟨t, w⟩).world := by
  rw [step_world]
  exact instruction_spawns hnatives t w

end

end DotScript.Machine
