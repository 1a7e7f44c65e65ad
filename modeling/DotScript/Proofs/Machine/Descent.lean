import DotScript.Proofs.Compile.LoopFree
import DotScript.Proofs.Machine.Preservation
import Mathlib.Data.List.Lex

/-!
# Code without loops only goes forth

Each activation of a thread has so many words of code ahead of it: from the address where it is, or
where it waits for a call or an import, to the end of its code. A step of code without loops lets the
list of these numbers, the oldest activation first, go down lexicographically: the activation on top
moves forth, or it ends; a call or an import lets it wait further on, and puts another activation
behind it in the list; a failure that is caught ends some activations and lets the one whose handler
it is move forth, since a handler stands behind the body that it guards.

* `Level.ahead`, `Thread.ahead`: the numbers of words ahead;
* `Tower.raise_ahead`: what a failure makes of them;
* `Runs.ahead_lt`: a step lets them go down.
-/

namespace DotScript.Machine

open DotScript.Bytecode DotScript.Compile DotScript.Syntax

/-! ## Words ahead -/

/-- The number of words from an address to the end of the code. -/
def wordsAhead (image : Image) (a : Nat) : Nat := image.chunk.code.size - a

/-- What lies ahead of the activations that wait, the oldest first. -/
def waitingAhead (frames : List Frame) : List Window → List Nat
  | [] => frames.map fun f => wordsAhead f.image f.ip
  | w :: outer =>
    waitingAhead (frames.take w.depth) outer ++
      wordsAhead w.image w.ip :: (frames.drop w.depth).map fun f => wordsAhead f.image f.ip

/-- What lies ahead of an activation at an address, and of those that it stands upon. -/
def Level.ahead (L : Level) (a : Nat) : List Nat :=
  waitingAhead L.frames.toList L.windows ++ [wordsAhead L.image a]

/-- What lies ahead of the activations of a thread. -/
def Thread.ahead (t : Thread) : List Nat :=
  waitingAhead t.frames.toList t.windows ++ [wordsAhead t.image t.ip]

/-- Lexicographically less. -/
abbrev Lower : List Nat → List Nat → Prop := List.Lex (· < ·)

section
variable {R : Realm} {host : Host} {Q : Level → Try → List Value → Prop} {L : Level}
  {Ls : List Level} {inherited : Option Handler} {a b : Nat} {σ : Site} {ls vs : List Value}
  {t t' : Thread} {w : Window} {outer : List Window} {frames : List Frame}

theorem Lower.concat {n m : Nat} (pre xs ys : List Nat) (h : n < m) :
    Lower (pre ++ n :: xs) (pre ++ m :: ys) :=
  List.Lex.append_left _ (.rel h) pre

/-- Less is left of a list. -/
theorem Lower.cut (pre : List Nat) (n : Nat) (xs : List Nat) : Lower pre (pre ++ n :: xs) := by
  have h : Lower (pre ++ []) (pre ++ n :: xs) := List.Lex.append_left _ .nil pre
  rwa [List.append_nil] at h

theorem length_waitingAhead (frames : List Frame) (ws : List Window) :
    (waitingAhead frames ws).length = frames.length + ws.length := by
  induction ws generalizing frames with
  | nil => simp [waitingAhead]
  | cons w outer ih =>
    simp only [waitingAhead, List.length_append, List.length_cons, List.length_map, ih,
      List.length_take, List.length_drop]
    omega

theorem Thread.length_ahead (t : Thread) :
    t.ahead.length = t.frames.size + t.windows.length + 1 := by
  simp [ahead, length_waitingAhead]

/-- One more call waits. -/
theorem waitingAhead_concat {ws : List Window} (frame : Frame)
    (hfloor : ∀ w outer, ws = w :: outer → w.depth ≤ frames.length) :
    waitingAhead (frames ++ [frame]) ws =
      waitingAhead frames ws ++ [wordsAhead frame.image frame.ip] := by
  cases ws with
  | nil => simp [waitingAhead]
  | cons w outer =>
    have hle := hfloor w outer rfl
    simp [waitingAhead, List.take_append_of_le_length hle, List.drop_append_of_le_length hle]

/-- One more import waits. -/
theorem waitingAhead_cons (hdepth : w.depth = frames.length) :
    waitingAhead frames (w :: outer) = waitingAhead frames outer ++ [wordsAhead w.image w.ip] := by
  simp [waitingAhead, hdepth]

theorem Level.Carries.ahead (h : L.Carries R t) : t.ahead = L.ahead t.ip := by
  rw [Thread.ahead, Level.ahead, h.tops.frames, h.tops.windows, h.image]

/-- At every address where control may be there is an instruction. -/
theorem AtSite.lt_size (h : AtSite R L a σ ls vs) : a < L.image.chunk.code.size := by
  obtain ⟨op, hop⟩ := h.flow.point.move.exists_opAt
  exact (Array.getElem?_eq_some_iff.mp hop).1

theorem AtSite.wordsAhead_lt (h : AtSite R L a σ ls vs) (hlt : a < b) :
    wordsAhead L.image b < wordsAhead L.image a := by
  have hsize := h.lt_size
  unfold wordsAhead
  omega

/-- An activation moves forth. -/
theorem AtSite.ahead_lt (h : AtSite R L a σ ls vs) (hlt : a < b) (more : List Nat) :
    Lower (L.ahead b ++ more) (L.ahead a) := by
  rw [Level.ahead, List.append_assoc]
  exact Lower.concat _ _ _ (h.wordsAhead_lt hlt)

/-- The end of an import ends some activations. -/
theorem exists_ahead_closeWindow (htops : L.Tops t) (hwindows : L.windows = w :: outer) (a : Nat) :
    ∃ n ns, L.ahead a = (t.closeWindow w outer).ahead ++ n :: ns := by
  let above := (L.frames.toList.drop w.depth).map fun f => wordsAhead f.image f.ip
  have hne : above ++ [wordsAhead L.image a] ≠ [] := by simp
  obtain ⟨n, ns, hns⟩ := List.exists_cons_of_ne_nil hne
  refine ⟨n, ns, ?_⟩
  rw [← hns]
  simp [Level.ahead, Thread.ahead, Thread.closeWindow, hwindows, htops.frames, waitingAhead, above]

namespace Tower

/-- An activation that was called, upon its caller, which goes on at the address `a`. -/
theorem ahead_call (h : Tower R Q L Ls inherited) (lower : Array Value) (handler : Option Handler)
    (result : Option Value) (image : Image) (p : Program) (top : Bool) :
    Level.ahead ⟨lower, L.frames.push ⟨L.image, a, L.lower.size, handler, result⟩, L.windows, image,
      p, top⟩ b = L.ahead a ++ [wordsAhead image b] := by
  have hfloor : ∀ w outer, L.windows = w :: outer → w.depth ≤ L.frames.toList.length := by
    intro w outer hw
    rw [Array.length_toList]
    exact h.floor_le hw
  simp only [Level.ahead, Array.toList_push, waitingAhead_concat _ hfloor]

/-- A module upon its importer. -/
theorem ahead_module (lower : Array Value) (path : String) (height : Nat)
    (handler : Option Handler) (image : Image) (p : Program) :
    Level.ahead ⟨lower, L.frames,
      ⟨path, L.frames.size, height, L.image, a, L.lower.size, handler⟩ :: L.windows, image, p, true⟩
      b = L.ahead a ++ [wordsAhead image b] := by
  have hwindow : waitingAhead L.frames.toList
      (⟨path, L.frames.size, height, L.image, a, L.lower.size, handler⟩ :: L.windows) =
        waitingAhead L.frames.toList L.windows ++ [wordsAhead L.image a] := waitingAhead_cons rfl
  simp only [Level.ahead, hwindow]

/-! ## Failures -/

/-- The handler in force stands behind where its activation is. -/
theorem handler_ahead {handler : Handler} (h : Tower R Q L Ls inherited)
    (hsite : AtSite R L a σ ls vs) (hheld : Held Q L inherited ls σ.tries (some handler)) :
    handler.depth ≤ L.frames.size ∧
      Lower (waitingAhead (L.frames.toList.take handler.depth) L.windows ++
        [wordsAhead handler.image handler.address]) (L.ahead a) := by
  -- An inherited handler is held by the activation below, so the induction is on the tower.
  have hown : ∀ {L inherited a σ ls vs}, AtSite R L a σ ls vs → ∀ ts, σ.tries = ts →
      Held Q L inherited ls ts (some handler) → some handler = inherited ∨
      handler.depth ≤ L.frames.size ∧
        Lower (waitingAhead (L.frames.toList.take handler.depth) L.windows ++
          [wordsAhead handler.image handler.address]) (L.ahead a) := by
    intro L inherited a σ ls vs hsite ts hts hheld
    cases hheld with
    | inherited => exact .inl rfl
    | @own τ outer hQ =>
      obtain ⟨-, hexit, -⟩ := hsite.flow.point.guarded τ outer hts
      have hlt : a < τ.target := by
        simp only [Try.exit] at hexit
        simp only [Try.target]
        omega
      refine .inr ⟨Nat.le_refl _, ?_⟩
      rw [show L.frames.toList.take (L.handler τ).depth = L.frames.toList from
        List.take_of_length_le (by simp [Level.handler])]
      exact Lower.concat _ _ _ (hsite.wordsAhead_lt hlt)
  induction h generalizing a σ ls vs with
  | ground =>
    rcases hown hsite _ rfl hheld with h | h
    · cases h
    · exact h
  | @call L Ls inh a₀ σ₀ ls₀ vs₀ handler₀ result f image p below wait held hresult ih =>
    rcases hown hsite _ rfl hheld with rfl | h
    · obtain ⟨hdepth, hlower⟩ := ih (wait .null Value.in_null) held
      rw [below.ahead_call, Array.toList_push,
        List.take_append_of_le_length (by rwa [Array.length_toList])]
      refine ⟨?_, hlower.append_right _ _⟩
      rw [Array.size_push]
      exact Nat.le_succ_of_le hdepth
    · exact h
  | module below wait held =>
    rcases hown hsite _ rfl hheld with h | h
    · cases h
    · exact h

/-- A failure that is caught lets the numbers go down, also when it leaves imports. -/
theorem raise_ahead (h : Tower R Q L Ls inherited) (hsite : AtSite R L a σ ls vs)
    (hheld : Held Q L inherited ls σ.tries t.handler) (htops : L.Tops t)
    (hstack : (L.stack ls []).toList <+: t.stack.toList) (hglobals : t.globals.In R)
    (e : RuntimeError) (hraise : t.raise t.windows e = .ok t') : Lower t'.ahead (L.ahead a) := by
  have hcatch : ∀ {t : Thread} {L Ls inherited a σ ls vs e handler}, Tower R Q L Ls inherited →
      AtSite R L a σ ls vs → Held Q L inherited ls σ.tries t.handler → L.Tops t →
      t.handler = some handler → Lower (t.enterHandler handler e).ahead (L.ahead a) := by
    intro t L Ls inherited a σ ls vs e handler h hsite hheld htops hhandler
    rw [hhandler] at hheld
    have hlower := (h.handler_ahead hsite hheld).2
    simp only [Thread.ahead, Thread.enterHandler, htops.frames, htops.windows]
    simpa using hlower
  generalize hws : t.windows = ws at hraise
  induction ws generalizing L Ls inherited a σ ls vs t e with
  | nil =>
    cases hhandler : t.handler with
    | none =>
      simp only [Thread.raise, hhandler] at hraise
      cases hraise
    | some handler =>
      simp only [Thread.raise, hhandler] at hraise
      cases hraise
      exact hcatch h hsite hheld htops hhandler
  | cons w ws ih =>
    cases hhandler : t.handler with
    | some handler =>
      simp only [Thread.raise, hhandler] at hraise
      cases hraise
      exact hcatch h hsite hheld htops hhandler
    | none =>
      simp only [Thread.raise, hhandler] at hraise
      have hwindows : L.windows = w :: ws := htops.windows.symm.trans hws
      obtain ⟨L', Ls', inh', σ', ls', vs', -, -, htower, hstands, hheld'⟩ :=
        h.close hwindows (htops.frames ▸ List.prefix_refl _) (prefix_stack.trans hstack) hglobals
      have hlower := ih htower hstands.site hheld' hstands.carries.tops
        (hstands.stack ▸ prefix_stack_locals) hglobals _ rfl hraise
      obtain ⟨n, ns, hahead⟩ := exists_ahead_closeWindow htops hwindows a
      rw [← hstands.carries.ahead] at hlower
      rw [hahead]
      exact hlower.append_right _ _

end Tower

/-! ## Steps -/

/-- A return ends the activation on top. -/
theorem Tower.leave_ahead {w : World} {v : Value} (h : Tower R Q L Ls inherited)
    (hcarries : L.Carries R t') (hstack : t'.stack = L.stack ls []) (hv : v.In R)
    (hr : instruction host ⟨t, w⟩ = doReturn host v ⟨t', w⟩) {s' : State}
    (hstep : step host ⟨t, w⟩ = .running s') : Lower s'.thread.ahead (L.ahead a) := by
  have hret := h.leave host (w := w) hcarries hstack hv
  generalize doReturn host v ⟨t', w⟩ = r at hret hr
  cases hret with
  | ground hLs hwindows =>
    have hwindows' : t'.windows = [] := hcarries.tops.windows.trans hwindows
    simp only [step, hr, hwindows'] at hstep
    cases hstep
  | @module window outer hwindows =>
    have hwindows' : t'.windows = window :: outer := hcarries.tops.windows.trans hwindows
    simp only [step, hr, hwindows'] at hstep
    cases hstep
    obtain ⟨n, ns, hahead⟩ := exists_ahead_closeWindow hcarries.tops hwindows a
    rw [hahead]
    exact Lower.cut _ _ _
  | @caller L' Ls' inh' σ' ls' vs' v' t'' hLs hwindows below wait held hv' hcarries' hstack' hframes =>
    obtain ⟨handler, result, hframes⟩ := hframes
    obtain ⟨lower, frames, windows, image, p, top⟩ := L
    obtain rfl : windows = L'.windows := hwindows
    obtain rfl : frames = _ := hframes
    rw [below.ahead_call]
    by_cases hfull : host.limits.stack ≤ t''.stack.size
    · -- The return has been made, but the caller has no room for the value.
      rw [pushed, if_pos hfull] at hr
      simp only [step, hr] at hstep
      cases hraise : t''.raise t''.windows .stackOverflow with
      | error failure =>
        simp only [hraise] at hstep
        cases hstep
      | ok t₁ =>
        simp only [hraise] at hstep
        cases hstep
        have hlower := below.raise_ahead (wait .null Value.in_null) held hcarries'.tops
          (hstack' ▸ prefix_stack_locals) hcarries'.globals _ hraise
        exact hlower.append_right _ _
    · rw [pushed, if_neg hfull] at hr
      simp only [step, hr] at hstep
      cases hstep
      rw [← hcarries'.ahead]
      exact Lower.cut _ _ _

/-- A step of code without loops lets the numbers of words ahead go down. -/
theorem Runs.ahead_lt {past : List Thread} {w : World} (hR : R.OfCode) (hinert : host.InertIn R)
    (hload : host.LoadsFrom R.program) (hfree : ∀ p, R.program p → ¬ Loops p)
    (h : Runs R (t :: past) Ls) (hw : w.In R) {s' : State}
    (hstep : step host ⟨t, w⟩ = .running s') : Lower s'.thread.ahead t.ahead := by
  obtain @⟨_, _, L, Ls, inherited, σ, ls, vs, tower, hs, held⟩ := h
  have heffect := effect hR hinert hload hs hw
  have hsite := hs.site
  have hahead := hs.carries.ahead
  rw [hahead]
  generalize hr : instruction host ⟨t, w⟩ = r at heffect
  cases heffect with
  | @go σ' ls' vs' t' w' hstands hw' htries hhandler hls hip =>
    simp only [step, hr] at hstep
    cases hstep
    have hlt := hip.resolve_left (hfree _ hsite.compiled.program)
    have hlower := hsite.ahead_lt hlt []
    rwa [List.append_nil, ← hstands.carries.ahead] at hlower
  | arm hop ha hlocals hstack hstands htries hhandler hip
  | disarm hop hstands htries hhandler hip =>
    simp only [step, hr] at hstep
    cases hstep
    have hlower := hsite.ahead_lt hip []
    rwa [List.append_nil, ← hstands.carries.ahead] at hlower
  | enter hop hwait htries hresult hstands hhandler hw' =>
    simp only [step, hr] at hstep
    cases hstep
    rw [hstands.carries.ahead, tower.ahead_call]
    exact hsite.ahead_lt (by omega) _
  | load hop hwait htries hstands hhandler =>
    simp only [step, hr] at hstep
    cases hstep
    rw [hstands.carries.ahead, Tower.ahead_module]
    exact hsite.ahead_lt (Nat.lt_succ_self _) _
  | leave hop hv hend hcarries hstack hip => exact tower.leave_ahead hcarries hstack hv hr hstep
  | @fail e vs' t' w' he hcarries hstack hhandler hw' =>
    simp only [step, hr] at hstep
    cases hraise : t'.raise t'.windows e with
    | error failure =>
      simp only [hraise] at hstep
      cases hstep
    | ok t'' =>
      simp only [hraise] at hstep
      cases hstep
      exact tower.raise_ahead hsite (hhandler ▸ held) hcarries.tops
        (hstack ▸ prefix_stack_locals) hcarries.globals e hraise

end

end DotScript.Machine
