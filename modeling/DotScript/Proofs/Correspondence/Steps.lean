import DotScript.Proofs.Correspondence.Instructions
import DotScript.Proofs.Machine.Runs

/-!
# Steps and runs at corresponding places

Two machines at corresponding places do the same step by step. On the left there may be jumps that
the code on the right does without: the left machine takes them by itself.

* `Leads`: from one address jumps lead to where the same instruction stands as at another address;
* `step_like`: where the same instruction stands, a step leads to states that correspond;
* `halts_like`, `halts_like_right`: a run ends on one side exactly if it does on the other, with
  results and states that correspond;
* `Arrives`, `arrives_like`: runs that correspond up to some places get there, or the left one ends.
-/

namespace DotScript.Machine

open DotScript.Bytecode DotScript.Compile

variable (C : Correspondence)

/-- Jumps on the left lead to where the same instruction stands as on the right. -/
inductive Leads (i : Image) : Nat → Image → Nat → Prop
  | meets {a j b} (h : Meets C i a j b) : Leads i a j b
  | skip {a t j b} (h : JumpAt i.chunk a .jump t) (hplace : C.place i t j b)
    (hrest : Leads i t j b) : Leads i a j b

/-- From corresponding places the same instructions are reached. -/
def Correspondence.Closed : Prop := ∀ {i a j b}, C.place i a j b → Leads C i a j b

/-- What two steps lead to. -/
inductive Outcome.Like : Outcome → Outcome → Prop
  | running {s s'} (h : s.Like C s') (hplace : s.thread.AtPlace C s'.thread) :
    Like (.running s) (.running s')
  | leaves {s s'} (h : s.thread.Leaves C s'.thread) : Like (.running s) (.running s')
  | finished {v v' s s'} (hv : v.Like C.function v') (h : s.Like C s') :
    Like (.finished v s) (.finished v' s')
  | failed (e : RuntimeError) {s s'} (h : s.Like C s') : Like (.failed e s) (.failed e s')

/-- The ends of two runs. -/
structure EndsLike (r r' : Except RuntimeError Value) (s s' : State) : Prop where
  result : ResultLike (Value.Like C.function) r r'
  state : s.Like C s'

variable {C}

section
variable {host : Host} {t t' : Thread} {s s' s₁ s₁' : State}

/-! ## Steps -/

theorem closeWindow_like (h : t.Like C t') {w w' : Window} (hw : w.Like C w')
    {ws ws' : List Window} (hws : List.Forall₂ (Window.Like C) ws ws') :
    (t.closeWindow w ws).Like C (t'.closeWindow w' ws') := by
  refine { h with
    frames := ?_
    stack := ?_
    base := hw.base
    handler := hw.handler
    windows := hws
    imports := ?_ }
  · simp only [Thread.closeWindow, hw.height]
    exact h.stack.take _
  · simp only [Thread.closeWindow, hw.depth]
    exact h.frames.take _
  · simp only [Thread.closeWindow, h.imports]

theorem enterHandler_like (h : t.Like C t') {k k' : Handler} (hk : k.Like C k') (e : RuntimeError) :
    (t.enterHandler k e).Like C (t'.enterHandler k' e) := by
  refine { h with
    frames := ?_
    stack := ?_
    base := hk.base
    handler := .none }
  · simp only [Thread.enterHandler, hk.height]
    exact (h.stack.take _).push (.str _)
  · simp only [Thread.enterHandler, hk.depth]
    exact h.frames.take _

/-- A failure is caught at corresponding places, or at none. -/
theorem raise_like {ws ws' : List Window} (hws : List.Forall₂ (Window.Like C) ws ws')
    (h : t.Like C t') (e : RuntimeError) :
    (∃ u u', t.raise ws e = .ok u ∧ t'.raise ws' e = .ok u' ∧ u.Like C u' ∧ u.AtPlace C u') ∨
      ∃ e' u u', t.raise ws e = .error (e', u) ∧ t'.raise ws' e = .error (e', u') ∧ u.Like C u' := by
  induction hws generalizing t t' e with
  | nil =>
    obtain ⟨ho, ho'⟩ | ⟨k, k', ho, ho', hk⟩ := rel_cases h.handler
    · exact .inr ⟨e, t, t', by simp only [Thread.raise, ho], by simp only [Thread.raise, ho'], h⟩
    · exact .inl ⟨_, _, by simp only [Thread.raise, ho], by simp only [Thread.raise, ho'],
        enterHandler_like h hk e, hk.place⟩
  | @cons w w' ws ws' hw hws ih =>
    obtain ⟨ho, ho'⟩ | ⟨k, k', ho, ho', hk⟩ := rel_cases h.handler
    · simp only [Thread.raise, ho, ho', hw.path]
      exact ih (closeWindow_like h hw hws) _
    · exact .inl ⟨_, _, by simp only [Thread.raise, ho], by simp only [Thread.raise, ho'],
        enterHandler_like h hk e, hk.place⟩

/-- Where the same instruction stands, a step leads to states that correspond. -/
theorem step_like (hS : C.Sound) (hhost : host.Respects C) (h : s.Like C s')
    (hmeets : Meets C s.thread.image s.thread.ip s'.thread.image s'.thread.ip) :
    (step host s).Like C (step host s') := by
  have hboth := instruction_both hS hhost h hmeets
  simp only [step]
  generalize instruction host s = r at hboth
  generalize instruction host s' = r' at hboth
  cases hboth with
  | @ok _ _ s₂ s₂' hnext =>
    cases hnext with
    | goes hs hplace => exact .running hs hplace
    | leaves h => exact .leaves h
    | returns hv hs =>
      have hwindows := hs.thread.windows
      rcases ho : s₂.thread.windows with _ | ⟨w, ws⟩ <;>
        rcases ho' : s₂'.thread.windows with _ | ⟨w', ws'⟩
      all_goals
        rw [ho, ho'] at hwindows
        simp only [ho, ho']
      · exact .finished hv hs
      · cases hwindows
      · cases hwindows
      · obtain ⟨hw, hws⟩ := List.forall₂_cons.mp hwindows
        exact .running ⟨closeWindow_like hs.thread hw hws, hs.world⟩ hw.place
  | error e hs =>
    obtain ⟨u, u', hr, hr', hu, hplace⟩ | ⟨e', u, u', hr, hr', hu⟩ :=
      raise_like hs.thread.windows hs.thread e
    · simp only [hr, hr']
      exact .running ⟨hu, hs.world⟩ hplace
    · simp only [hr, hr']
      exact .failed e' ⟨hu, hs.world⟩

/-- A jump on the left only. -/
theorem step_skip (host : Host) {k : Nat} (h : s.Like C s') (hjump : JumpAt s.thread.image.chunk s.thread.ip .jump k) :
    ∃ s₁, step host s = .running s₁ ∧ s₁.Like C s' ∧ s₁.thread.image = s.thread.image ∧
      s₁.thread.ip = k := by
  obtain ⟨t, w⟩ := s
  refine ⟨⟨{ t with ip := k }, w⟩, ?_, ⟨{ h.thread with }, h.world⟩, rfl, rfl⟩
  rw [step, instruction_jump host hjump]

/-! ## Runs -/

/-- A correspondence that lasts is never left. -/
theorem Correspondence.Lasting.stays (hS : C.Lasting) (t t' : Thread) : ¬ t.Leaves C t' :=
  fun ⟨_, hfresh, hnot, _⟩ => hnot (hS.next hfresh)

/-- The left machine takes its jumps and stands where the right one does. -/
theorem reaches_of_leads (host : Host) {i j : Image} {a b : Nat} (hlead : Leads C i a j b) (h : s.Like C s')
    (hi : s.thread.image = i) (ha : s.thread.ip = a) :
    ∃ s₁, Reaches host s s₁ ∧ s₁.Like C s' ∧ Meets C s₁.thread.image s₁.thread.ip j b := by
  induction hlead generalizing s with
  | meets hmeets =>
    subst hi ha
    exact ⟨s, .refl s, h, hmeets⟩
  | skip hjump _ _ ih =>
    subst hi ha
    obtain ⟨s₁, hstep, hlike, himage, hip⟩ := step_skip host h hjump
    obtain ⟨s₂, hreaches, hs₂, hmeets⟩ := ih hlike himage hip
    exact ⟨s₂, .head hstep hreaches, hs₂, hmeets⟩

theorem run_eq_of_step {fuel : Nat} : run host (fuel + 1) s =
    match step host s with
    | .running s => run host fuel s
    | .finished v s => some (.ok v, s)
    | .failed e s => some (.error e, s) := rfl

/-- If the run on the left ends, so does that on the right. -/
theorem halts_like (hS : C.Lasting) (hclosed : C.Closed) (hhost : host.Respects C) (h : s.Like C s')
    (hplace : s.thread.AtPlace C s'.thread) {r : Except RuntimeError Value}
    (hrun : Halts host s r s₁) :
    ∃ r' s₁', Halts host s' r' s₁' ∧ EndsLike C r r' s₁ s₁' := by
  obtain ⟨fuel, hrun⟩ := hrun
  induction fuel generalizing s s' with
  | zero => cases hrun
  | succ fuel ih =>
    cases hclosed hplace with
    | meets hmeets =>
      have hstep := step_like hS.toSound hhost h hmeets
      rw [run_eq_of_step] at hrun
      generalize ho : step host s = o at hstep hrun
      generalize ho' : step host s' = o' at hstep
      cases hstep with
      | running hs hplace =>
        obtain ⟨r', s₁', hhalts, hend⟩ := ih hs hplace hrun
        exact ⟨r', s₁', (Reaches.step ho').halts hhalts, hend⟩
      | leaves h => exact absurd h (hS.stays _ _)
      | finished hv hs =>
        cases hrun
        exact ⟨.ok _, _, ⟨1, by rw [run_eq_of_step, ho']⟩, hv, hs⟩
      | failed e hs =>
        cases hrun
        exact ⟨.error _, _, ⟨1, by rw [run_eq_of_step, ho']⟩, rfl, hs⟩
    | skip hjump hnext =>
      obtain ⟨s₂, hstep, hlike, himage, hip⟩ := step_skip host h hjump
      rw [run_eq_of_step, hstep] at hrun
      refine ih hlike ?_ hrun
      rw [Thread.AtPlace, himage, hip]
      exact hnext

/-- If the run on the right ends, so does that on the left. -/
theorem halts_like_right (hS : C.Lasting) (hclosed : C.Closed) (hhost : host.Respects C)
    (h : s.Like C s') (hplace : s.thread.AtPlace C s'.thread) {r' : Except RuntimeError Value}
    (hrun : Halts host s' r' s₁') :
    ∃ r s₁, Halts host s r s₁ ∧ EndsLike C r r' s₁ s₁' := by
  obtain ⟨fuel, hrun⟩ := hrun
  induction fuel generalizing s s' with
  | zero => cases hrun
  | succ fuel ih =>
    obtain ⟨s₂, hreaches, hs₂, hmeets⟩ := reaches_of_leads host (hclosed hplace) h rfl rfl
    have hstep := step_like hS.toSound hhost hs₂ hmeets
    rw [run_eq_of_step] at hrun
    generalize ho : step host s₂ = o at hstep
    generalize ho' : step host s' = o' at hstep hrun
    cases hstep with
    | running hs hplace =>
      obtain ⟨r, s₁, hhalts, hend⟩ := ih hs hplace hrun
      exact ⟨r, s₁, (hreaches.trans (.step ho)).halts hhalts, hend⟩
    | leaves h => exact absurd h (hS.stays _ _)
    | finished hv hs =>
      cases hrun
      exact ⟨.ok _, _, hreaches.halts ⟨1, by rw [run_eq_of_step, ho]⟩, hv, hs⟩
    | failed e hs =>
      cases hrun
      exact ⟨.error _, _, hreaches.halts ⟨1, by rw [run_eq_of_step, ho]⟩, rfl, hs⟩

/-- How two runs go on that correspond up to some places. -/
inductive Arrives (host : Host) (C : Correspondence) (exit : Image → Nat → Image → Nat → Prop)
    (v : Value) (s s' s₁ : State) : Prop
  | exits {s₂ s₂' : State} (left : Reaches host s s₂) (right : Reaches host s' s₂')
    (like : s₂.Like C s₂')
    (place : exit s₂.thread.image s₂.thread.ip s₂'.thread.image s₂'.thread.ip)
  | finishes {s₂ s₂' : State} (left : Reaches host s s₂) (place : s₂.thread.AtPlace C s₂'.thread)
    (ends : step host s₂ = .finished v s₁)

theorem Arrives.after {exit : Image → Nat → Image → Nat → Prop} {v : Value} {s₂ s₂' : State}
    (h : Reaches host s s₂) (h' : Reaches host s' s₂') (harrives : Arrives host C exit v s₂ s₂' s₁) :
    Arrives host C exit v s s' s₁ := by
  cases harrives with
  | exits left right like place => exact .exits (h.trans left) (h'.trans right) like place
  | finishes left place ends => exact .finishes (h.trans left) place ends

/-- Where nothing is known of what follows some places, two runs go on alike until they are there. -/
theorem arrives_like (hS : C.Sound) (hhost : host.Respects C)
    {exit : Image → Nat → Image → Nat → Prop}
    (hplaces : ∀ {i a j b}, C.place i a j b → Leads C i a j b ∨ exit i a j b)
    (hstays : ∀ s₂ s₂' : State, Reaches host s s₂ → ¬ s₂.thread.Leaves C s₂'.thread)
    (h : s.Like C s') (hplace : s.thread.AtPlace C s'.thread) {v : Value}
    (hrun : Halts host s (.ok v) s₁) : Arrives host C exit v s s' s₁ := by
  obtain ⟨fuel, hrun⟩ := hrun
  induction fuel generalizing s s' with
  | zero => cases hrun
  | succ fuel ih =>
    have hlater {s₂ : State} (hreaches : Reaches host s s₂) (s₃ s₃' : State)
        (h₃ : Reaches host s₂ s₃) : ¬ s₃.thread.Leaves C s₃'.thread :=
      hstays s₃ s₃' (hreaches.trans h₃)
    rcases hplaces hplace with hleads | hexit
    · cases hleads with
      | meets hmeets =>
        have hstep := step_like hS hhost h hmeets
        rw [run_eq_of_step] at hrun
        generalize ho : step host s = o at hstep hrun
        generalize ho' : step host s' = o' at hstep
        cases hstep with
        | running hs hplace =>
          exact .after (.step ho) (.step ho') (ih (hlater (.step ho)) hs hplace hrun)
        | leaves hleaves => exact absurd hleaves (hstays _ _ (.step ho))
        | finished =>
          cases hrun
          exact .finishes (.refl s) hplace ho
        | failed => cases hrun
      | skip hjump hnext =>
        obtain ⟨s₂, hstep, hlike, himage, hip⟩ := step_skip host h hjump
        rw [run_eq_of_step, hstep] at hrun
        refine .after (.step hstep) (.refl s') (ih (hlater (.step hstep)) hlike ?_ hrun)
        rw [Thread.AtPlace, himage, hip]
        exact hnext
    · exact .exits (.refl s) (.refl s') h hexit

end

end DotScript.Machine
