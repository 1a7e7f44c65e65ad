import DotScript.Machine.Step

/-!
# Steps in a row

A machine that goes on after `n` steps is somewhere; what it has left to do from there is what it
would do had it begun there. A run that ends takes a certain number of steps, so that a machine
which can take any number of them does not end.

* `Steps host n s s'`: `n` steps lead from `s` to `s'`;
* `Reaches host s s'`: some number of steps does;
* `Halts host s r s'`: the run from `s` ends with the result `r` in the state `s'`;
* `Calm host s`: no instruction of the run from `s` overflows the stack or the frames; `calmFor`
  finds out by running.
-/

namespace DotScript.Machine

variable {host : Host} {s s' s'' : State} {n m : Nat}

/-! ## Steps -/

theorem step_of_ok (hr : instruction host s = .ok none s') : step host s = .running s' := by
  simp only [step, hr]

/-- `n` steps lead from one state to another. -/
def Steps (host : Host) : Nat → State → State → Prop
  | 0, s, s' => s = s'
  | n + 1, s, s' => ∃ s₁, step host s = .running s₁ ∧ Steps host n s₁ s'

theorem Steps.trans (h : Steps host n s s') (h' : Steps host m s' s'') :
    Steps host (n + m) s s'' := by
  induction n generalizing s with
  | zero =>
    cases h
    rwa [Nat.zero_add]
  | succ n ih =>
    obtain ⟨s₁, hstep, h⟩ := h
    rw [Nat.succ_add]
    exact ⟨s₁, hstep, ih h⟩

/-- The first of several steps. -/
theorem Steps.initial (h : Steps host n s s') (hm : m ≤ n) :
    ∃ s₁, Steps host m s s₁ ∧ Steps host (n - m) s₁ s' := by
  induction m generalizing n s with
  | zero => exact ⟨s, rfl, h⟩
  | succ m ih =>
    cases n with
    | zero => omega
    | succ n =>
      obtain ⟨s₁, hstep, h⟩ := h
      obtain ⟨s₂, hfirst, hrest⟩ := ih h (by omega)
      rw [Nat.add_sub_add_right]
      exact ⟨s₂, ⟨s₁, hstep, hfirst⟩, hrest⟩

def Reaches (host : Host) (s s' : State) : Prop := ∃ n, Steps host n s s'

theorem Reaches.refl (s : State) : Reaches host s s := ⟨0, rfl⟩

theorem Reaches.trans (h : Reaches host s s') (h' : Reaches host s' s'') : Reaches host s s'' := by
  obtain ⟨n, h⟩ := h
  obtain ⟨m, h'⟩ := h'
  exact ⟨n + m, h.trans h'⟩

theorem Reaches.step (h : step host s = .running s') : Reaches host s s' := ⟨1, s', h, rfl⟩

theorem Reaches.head (h : Machine.step host s = .running s') (h' : Reaches host s' s'') :
    Reaches host s s'' :=
  (Reaches.step h).trans h'

/-! ## Runs -/

/-- The run from a state ends. -/
def Halts (host : Host) (s : State) (r : Except RuntimeError Value) (s' : State) : Prop :=
  ∃ fuel, run host fuel s = some (r, s')

/-- Steps taken do not count against the bound of the run that is left. -/
theorem Steps.run_eq (h : Steps host n s s') (fuel : Nat) :
    run host (n + fuel) s = run host fuel s' := by
  induction n generalizing s with
  | zero =>
    cases h
    rw [Nat.zero_add]
  | succ n ih =>
    obtain ⟨s₁, hstep, h⟩ := h
    rw [Nat.succ_add, run, hstep]
    exact ih h

theorem Reaches.halts {r : Except RuntimeError Value} (h : Reaches host s s')
    (h' : Halts host s' r s'') : Halts host s r s'' := by
  obtain ⟨n, h⟩ := h
  obtain ⟨fuel, h'⟩ := h'
  exact ⟨n + fuel, (h.run_eq fuel).trans h'⟩

/-- A run that ends does so within its bound. -/
theorem run_eq_none_of_steps (h : Steps host n s s') : run host n s = none := by
  have hrun := h.run_eq 0
  rwa [Nat.add_zero] at hrun

theorem run_succ {fuel : Nat} {r : Except RuntimeError Value × State}
    (h : run host fuel s = some r) : run host (fuel + 1) s = some r := by
  induction fuel generalizing s with
  | zero => cases h
  | succ fuel ih =>
    rw [run] at h ⊢
    cases hstep : step host s with
    | running s₁ =>
      rw [hstep] at h
      exact ih h
    | finished v s₁ =>
      rw [hstep] at h
      exact h
    | failed e s₁ =>
      rw [hstep] at h
      exact h

theorem run_mono {fuel fuel' : Nat} {r : Except RuntimeError Value × State} (hle : fuel ≤ fuel')
    (h : run host fuel s = some r) : run host fuel' s = some r := by
  induction hle with
  | refl => exact h
  | step _ ih => exact run_succ ih

/-- A run ends in one way at most. -/
theorem Halts.unique {r r' : Except RuntimeError Value} (h : Halts host s r s')
    (h' : Halts host s r' s'') : r = r' ∧ s' = s'' := by
  obtain ⟨n, h⟩ := h
  obtain ⟨m, h'⟩ := h'
  have hn := run_mono (Nat.le_max_left n m) h
  have hm := run_mono (Nat.le_max_right n m) h'
  rw [hn] at hm
  cases hm
  exact ⟨rfl, rfl⟩

/-- What is left of a run that ends. -/
theorem Halts.after {r : Except RuntimeError Value} (h : Halts host s r s'')
    (hreaches : Reaches host s s') : Halts host s' r s'' := by
  obtain ⟨fuel, h⟩ := h
  obtain ⟨n, hsteps⟩ := hreaches
  have hrun := run_mono (Nat.le_add_left fuel n) h
  rw [hsteps.run_eq] at hrun
  exact ⟨fuel, hrun⟩

/-! ## Runs without overflow -/

/-- No instruction of the run from a state overflows the stack or the frames. -/
def Calm (host : Host) (s : State) : Prop :=
  ∀ s₁, Reaches host s s₁ → ∀ s₂, instruction host s₁ ≠ .error .stackOverflow s₂

theorem Calm.of_reaches (h : Calm host s) (hs : Reaches host s s') : Calm host s' :=
  fun s₁ hs₁ => h s₁ (hs.trans hs₁)

theorem Calm.here (h : Calm host s) : instruction host s ≠ .error .stackOverflow s' :=
  h s (.refl s) s'

/-- Whether the run from a state ends within a bound, and without an overflow. -/
def calmFor (host : Host) : Nat → State → Bool
  | 0, _ => false
  | fuel + 1, s =>
    (match instruction host s with
      | .error .stackOverflow _ => false
      | _ => true) &&
    match step host s with
    | .running s' => calmFor host fuel s'
    | _ => true

theorem calm_of_calmFor {fuel : Nat} (h : calmFor host fuel s = true) : Calm host s := by
  rintro s₁ ⟨n, hsteps⟩ s₂ hover
  induction fuel generalizing s n with
  | zero => cases h
  | succ fuel ih =>
    simp only [calmFor, Bool.and_eq_true] at h
    cases n with
    | zero =>
      cases hsteps
      simp only [hover] at h
      cases h.1
    | succ n =>
      obtain ⟨s₃, hstep, hsteps⟩ := hsteps
      simp only [hstep] at h
      exact ih h.2 n hsteps

end DotScript.Machine
