import DotScript.Proofs.Machine.Runs
import DotScript.Proofs.Machine.Shift

/-!
# Units that a thread has loaded

A thread never changes its name, and it does not forget which units it has loaded: the number of the
next one only grows. Main statements: `later_of_reaches`, `later_of_halts`.
-/

namespace DotScript.Machine

open DotScript.Bytecode DotScript.Compile

/-- The same thread, which may have loaded more units. -/
structure Thread.Later (t t' : Thread) : Prop where
  id : t'.id = t.id
  loaded : t.loaded ≤ t'.loaded

theorem Thread.Later.refl (t : Thread) : t.Later t := ⟨rfl, Nat.le_refl _⟩

theorem Thread.Later.trans {t t' t'' : Thread} (h : t.Later t') (h' : t'.Later t'') :
    t.Later t'' :=
  ⟨h'.id.trans h.id, Nat.le_trans h.loaded h'.loaded⟩

section
variable {host : Host} (t : Thread)

/-! ## Instructions -/

theorem robust_later (limits : Limits) : Robust limits fun s => t.Later s.thread where
  goto _ _ h := ⟨h.id, h.loaded⟩
  globals _ _ h := ⟨h.id, h.loaded⟩
  world _ _ _ _ _ h := h
  push _ _ _ h := ⟨h.id, h.loaded⟩
  take _ _ h := ⟨h.id, h.loaded⟩
  copy _ _ _ _ _ h := ⟨h.id, h.loaded⟩

theorem later_updateThread {f : Thread → Thread} (hf : ∀ u : Thread, u.Later (f u)) :
    Preserves (fun s => t.Later s.thread) (fun _ => True) (updateThread f) :=
  .updateThread fun s hs => hs.trans (hf s.thread)

theorem later_updateStack (f : Array Value → Array Value) :
    Preserves (fun s => t.Later s.thread) (fun _ => True) (updateStack f) :=
  later_updateThread t fun _ => ⟨rfl, Nat.le_refl _⟩

theorem later_updateWorld (f : World → World) :
    Preserves (fun s => t.Later s.thread) (fun _ => True) (updateWorld f) :=
  .updateWorld fun _ hs => hs

theorem enterFunction_later (limits : Limits) (f : Function) (slot : Nat) (result : Option Value) :
    Preserves (fun s => t.Later s.thread) (fun _ => True) (enterFunction limits f slot result) :=
  Preserves.thread.andThen fun _ =>
    .ite (preserves_failed _ _) (later_updateThread t fun _ => ⟨rfl, Nat.le_refl _⟩)

theorem enterMethod_later (limits : Limits) (f : Function) (slot argc : Nat) (receiver : InstanceRef)
    (result : Option Value) :
    Preserves (fun s => t.Later s.thread) (fun _ => True) (do
      checkArity f argc
      bindReceiver limits slot f receiver
      enterFunction limits f slot result) := by
  have hbind : Preserves (fun s => t.Later s.thread) (fun _ => True)
      (bindReceiver limits slot f receiver) :=
    Preserves.thread.andThen fun _ =>
      .ite (preserves_failed _ _) (later_updateThread t fun _ => ⟨rfl, Nat.le_refl _⟩)
  exact Preserves.andThen (.ite (.throw _) (.pure trivial)) fun _ =>
    hbind.andThen fun _ => enterFunction_later t limits f slot result

theorem callNative_later (n : Native) (args : List Value) :
    Preserves (fun s => t.Later s.thread) (fun _ => True) (callNative host n args) := by
  intro s hs
  rw [callNative_apply]
  rcases host.call n.builtin args s.world with ⟨e | v, w⟩
  · exact hs
  · exact ⟨trivial, hs⟩

theorem callValue_later (argc : Nat) :
    Preserves (fun s => t.Later s.thread) (fun _ => True) (callValue host argc) := by
  have hI := robust_later t host.limits
  refine Preserves.thread.andThen fun u => .ite (preserves_failed _ _) ?_
  dsimp only
  split
  · exact Preserves.andThen (.ite (.throw _) (.pure trivial)) fun _ =>
      enterFunction_later t host.limits _ _ none
  · exact enterMethod_later t host.limits _ _ _ _ _
  · exact (later_updateStack t _).andThen fun _ =>
      (callNative_later t _ _).andThen fun v => push_robust hI v
  · refine Preserves.world.andThen fun w => (later_updateWorld t _).andThen fun _ => ?_
    split
    · exact (later_updateStack t _).andThen fun _ => push_robust hI _
    · exact enterMethod_later t host.limits _ _ _ _ _
  · exact .throw _

theorem doReturn_later (v : Value) :
    Preserves (fun s => t.Later s.thread) (fun _ => True) (doReturn host v) := by
  refine Preserves.thread.andThen fun u => .ite (.pure trivial) ?_
  split
  · exact .pure trivial
  · refine (later_updateThread t ?_).andThen fun _ =>
      (push_robust (robust_later t host.limits) _).andThen fun _ => .pure trivial
    exact fun _ => ⟨rfl, Nat.le_refl _⟩

theorem beginImport_later (path : String) :
    Preserves (fun s => t.Later s.thread) (fun _ => True) (beginImport host path) := by
  unfold beginImport
  split
  · exact .throw _
  · refine Preserves.thread.andThen fun u => .ite (preserves_failed _ _) ?_
    refine Preserves.world.andThen fun w => ?_
    split
    · exact .throw _
    · exact later_updateThread t fun _ => ⟨rfl, Nat.le_succ _⟩

theorem spawnCall_later (argc : Nat) :
    Preserves (fun s => t.Later s.thread) (fun _ => True) (spawnCall host argc) := by
  have hI := robust_later t host.limits
  refine (popMany_robust hI argc).andThen fun args => (pop_robust hI).andThen fun callee =>
    Preserves.andThen (fun s hs => ?_) fun job => (later_updateThread t ?_).andThen fun _ =>
    (later_updateWorld t _).andThen fun _ => push_robust hI .null
  · rw [spawnJob_apply]
    cases jobOf s.thread callee args with
    | ok job => exact ⟨trivial, hs⟩
    | error e => exact hs
  · exact fun _ => ⟨rfl, Nat.le_refl _⟩

theorem execute_later (op : Opcode) :
    Preserves (fun s => t.Later s.thread) (fun _ => True) (execute host op) := by
  have hI := robust_later t host.limits
  cases hplain : Plain op with
  | true => exact (execute_robust hI hplain).mono fun _ _ => trivial
  | false =>
    cases op with
    | ret => exact (pop_robust hI).andThen fun v => doReturn_later t v
    | call =>
      exact (readIndex_robust hI).andThen fun n => (callValue_later t n).andThen fun _ =>
        .pure trivial
    | spawn =>
      exact (readIndex_robust hI).andThen fun n => (spawnCall_later t n).andThen fun _ =>
        .pure trivial
    | importUnit =>
      exact (pop_robust hI).andThen fun path => (beginImport_later t _).andThen fun _ => .pure trivial
    | tryEnter =>
      exact (readOperand_robust hI).andThen fun offset => (Preserves.jumpTarget offset).andThen
        fun a => Preserves.andThen (later_updateThread t fun _ => ⟨rfl, Nat.le_refl _⟩) fun _ =>
          .pure trivial
    | tryExit =>
      exact Preserves.andThen (later_updateThread t fun _ => ⟨rfl, Nat.le_refl _⟩) fun _ =>
        .pure trivial
    | _ => cases hplain

theorem instruction_later (host : Host) :
    Preserves (fun s => t.Later s.thread) (fun _ => True) (instruction host) := by
  refine Preserves.thread.andThen fun u => ?_
  split
  · exact doReturn_later t _
  · split
    · exact .throw _
    · exact Preserves.andThen (later_updateThread t fun _ => ⟨rfl, Nat.le_refl _⟩) fun _ =>
        execute_later t _

end

/-! ## Steps -/

section
variable {host : Host} {t t' : Thread} {s s' : State} {n : Nat}

/-- A failure is caught by the same thread, or it ends its run. -/
theorem raise_later {u : Thread} (h : t.Later u) (ws : List Window) (e : RuntimeError) :
    match u.raise ws e with
    | .ok t' => t.Later t'
    | .error (_, t') => t.Later t' := by
  induction ws generalizing u e with
  | nil =>
    cases hh : u.handler with
    | none =>
      simp only [Thread.raise, hh]
      exact h
    | some handler =>
      simp only [Thread.raise, hh]
      exact ⟨h.id, h.loaded⟩
  | cons w outer ih =>
    cases hh : u.handler with
    | none =>
      have hclose : t.Later (u.closeWindow w outer) := ⟨h.id, h.loaded⟩
      simp only [Thread.raise, hh]
      exact ih hclose _
    | some handler =>
      simp only [Thread.raise, hh]
      exact ⟨h.id, h.loaded⟩

/-- The thread after a step, or at the end of its run. -/
def Outcome.thread : Outcome → Thread
  | .running s | .finished _ s | .failed _ s => s.thread

theorem step_later (host : Host) (s : State) : s.thread.Later (step host s).thread := by
  have h := instruction_later s.thread host s (.refl _)
  simp only [step]
  cases hr : instruction host s with
  | ok r s' =>
    rw [hr] at h
    cases r with
    | none => exact h.2
    | some v =>
      cases hw : s'.thread.windows with
      | nil =>
        simp only [hw]
        exact h.2
      | cons w outer =>
        simp only [hw]
        exact ⟨h.2.id, h.2.loaded⟩
  | error e s' =>
    rw [hr] at h
    have hraise := raise_later h s'.thread.windows e
    cases hx : s'.thread.raise s'.thread.windows e with
    | ok u =>
      rw [hx] at hraise
      simp only [hx]
      exact hraise
    | error failure =>
      rw [hx] at hraise
      simp only [hx]
      exact hraise

theorem later_of_step (h : step host s = .running s') : s.thread.Later s'.thread := by
  have hlater := step_later host s
  rw [h] at hlater
  exact hlater

theorem later_of_steps (h : Steps host n s s') : s.thread.Later s'.thread := by
  induction n generalizing s with
  | zero =>
    cases h
    exact .refl _
  | succ n ih =>
    obtain ⟨s₁, hstep, h⟩ := h
    exact (later_of_step hstep).trans (ih h)

/-- Whatever a thread does, it stays the same thread. -/
theorem later_of_reaches (h : Reaches host s s') : s.thread.Later s'.thread := by
  obtain ⟨n, h⟩ := h
  exact later_of_steps h

theorem later_of_halts {r : Except RuntimeError Value} (h : Halts host s r s') :
    s.thread.Later s'.thread := by
  obtain ⟨fuel, h⟩ := h
  induction fuel generalizing s with
  | zero => cases h
  | succ fuel ih =>
    have hlater := step_later host s
    rw [run] at h
    cases hstep : step host s with
    | running s₁ =>
      rw [hstep] at h hlater
      exact hlater.trans (ih h)
    | finished v s₁ | failed e s₁ =>
      rw [hstep] at h hlater
      cases h
      exact hlater

end

end DotScript.Machine
