import DotScript.Proofs.Machine.Runs
import DotScript.Proofs.Machine.Tower

/-!
# Running compiled code

A thread that runs compiled code is at a known site of the activation on top of a tower, and each
step leads to such a thread again: `Runs.next`. What is known of handlers is where in the history
of the thread they were armed.

* `Level.Knows`: a handler was armed by the `try` statement of an activation, and these are the
  latest values of the locals around it;
* `Runs`: the activations that the latest thread of a history runs.
-/

namespace DotScript.Machine

open DotScript.Bytecode DotScript.Compile DotScript.Syntax

/-! ## What is known of handlers -/

/-- A thread is about to enter the body of a `try` statement of the program that it runs, with the
locals `vs`. -/
structure Level.Enters (L : Level) (τ : Try) (vs : List Value) (t : Thread) : Prop where
  tops : L.Tops t
  image : t.image = L.image
  base : t.base = L.lower.size
  stack : t.stack = L.stack vs []
  length : vs.length = τ.names.length
  ip : t.ip = τ.enter
  op : OpAt t.image.chunk t.ip .tryEnter
  compiled : ∃ name, compile L.program name = .ok L.image.chunk
  occurs : ∃ k, Occurs L.program ⟨L.top, k, τ.names, τ.enter⟩ (.stmt τ.stmt)

/-- The handler of a `try` statement was armed when the activation entered its body. -/
def Level.Knows (ts : List Thread) (L : Level) (τ : Try) (vs : List Value) : Prop :=
  ∃ u us, Armed ts (L.handler τ) u vs ∧ L.Enters τ us u

/-- What the next instruction of a thread makes of some locals of an activation: nothing, if it is
not the running one. -/
inductive Level.After (L : Level) (t : Thread) (vs vs' : List Value) : Prop
  | running (tops : L.Tops t) (assigned : vs' = t.assign vs)
  | waiting (tops : ¬ L.Tops t) (same : vs' = vs)

/-- A thread runs the activations of a tower. -/
inductive Runs (R : Realm) : List Thread → List Level → Prop
  | mk {t past L Ls inherited σ ls vs} (tower : Tower R (Level.Knows (t :: past)) L Ls inherited)
    (stands : Stands R L σ ls vs t)
    (held : Held (Level.Knows (t :: past)) L inherited ls σ.tries t.handler) :
    Runs R (t :: past) (L :: Ls)

section
variable {R : Realm} {host : Host} {L L' : Level} {Ls Ls' : List Level}
  {inherited inherited' : Option Handler} {t t' : Thread} {past : List Thread} {ls vs vs' : List Value}
  {ts : List Try} {τ : Try}

theorem Level.Knows.arm (h : L.Enters τ vs t) (htops : L.Tops t')
    (hhandler : t'.handler = some (L.handler τ)) : L.Knows (t' :: t :: past) τ vs := by
  have heq : L.handler τ = ⟨τ.target, t.image, t.base, t.frames.size, t.stack.size⟩ := by
    rw [Level.handler, h.image, h.base, h.tops.frames, h.stack, Level.size_stack, h.length]
    rfl
  have hlocals : vs = (t.stack.drop t.base).toList := by
    simp [h.stack, h.base, Level.stack]
  refine ⟨t, vs, ?_, h⟩
  rw [heq] at hhandler ⊢
  rw [hlocals]
  exact .arm h.op (htops.frames.trans h.tops.frames.symm)
    (htops.windows.trans h.tops.windows.symm) hhandler

theorem Level.Knows.keep (h : L.Knows (t :: past) τ vs) (hlive : L.LiveIn t')
    (hkeeps : t'.Keeps (L.handler τ)) (hafter : L.After t vs vs') :
    L.Knows (t' :: t :: past) τ vs' := by
  obtain ⟨u, us, harmed, henters⟩ := h
  have hframes := henters.tops.frames
  have hwindows := henters.tops.windows
  have hassign : vs' = u.assignIn t vs := by
    cases hafter with
    | running tops assigned =>
      have htop : u.atTop t = true := by
        simp [Thread.atTop, tops.frames, tops.windows, hframes, hwindows]
      rw [Thread.assignIn, if_pos htop, assigned]
    | waiting tops same =>
      have htop : ¬ u.atTop t = true := by
        -- The activation is live, so it is the running one if nothing is above it.
        intro htop
        simp only [Thread.atTop, Bool.and_eq_true, beq_iff_eq] at htop
        refine tops ⟨?_, ?_⟩
        · rw [← hframes]
          exact (Array.toList_inj.mp (harmed.liveIn.frames.eq_of_length (by simp [htop.1]))).symm
        · rw [← hwindows]
          exact (harmed.liveIn.windows.eq_of_length htop.2.symm).symm
      rw [Thread.assignIn, if_neg htop, same]
  rw [hassign]
  exact ⟨u, us, harmed.keep ⟨hframes ▸ hlive.frames, hwindows ▸ hlive.windows⟩ hkeeps, henters⟩

theorem Level.Saves.keeps {h : Handler} (hs : L.Saves h) (ht : L.LiveIn t) : t.Keeps h := by
  rcases hs with ⟨f, hf, heq⟩ | ⟨w, hw, heq⟩
  · exact .inr (.inl ⟨f, Array.mem_def.mpr (ht.frames.subset (Array.mem_def.mp hf)), heq⟩)
  · exact .inr (.inr ⟨w, ht.windows.subset hw, heq⟩)

/-- Only one activation of a tower is running. -/
theorem Tower.not_tops {Q : Level → Try → List Value → Prop} (h : Tower R Q L Ls inherited)
    (htops : L.Tops t) (hL' : L' ∈ Ls) : ¬ L'.Tops t := by
  intro htops'
  have hlt := h.height_lt L' hL'
  rw [Level.height, Level.height, ← htops.frames, ← htops.windows, htops'.frames,
    htops'.windows] at hlt
  exact Nat.lt_irrefl _ hlt

theorem tail_suffix {α : Type} {x y : α} {xs ys : List α} (h : (x :: xs) <:+ (y :: ys)) :
    xs <:+ ys := by
  rcases List.suffix_cons_iff.mp h with h | h
  · cases h
    exact List.suffix_refl _
  · exact (List.suffix_cons ..).trans h

/-- A step does nothing to the activations that wait. -/
theorem Tower.keep (htops : L.Tops t) (h : Tower R (Level.Knows (t :: past)) L Ls inherited)
    (h' : Tower R (Level.Knows (t :: past)) L' Ls' inherited') (hsuffix : (L' :: Ls') <:+ (L :: Ls))
    (hlive : L'.LiveIn t') : Tower R (Level.Knows (t' :: t :: past)) L' Ls' inherited' := by
  refine h'.map fun L₁ hL₁ τ vs hknown hsaves => ?_
  have hmem : L₁ ∈ Ls := (tail_suffix hsuffix).subset hL₁
  exact hknown.keep ((h'.under L₁ hL₁).liveIn hlive) (hsaves.keeps hlive)
    (.waiting (h.not_tops htops hmem) rfl)

/-- An activation that has waited takes up its handler. -/
theorem Held.resume (htops : ¬ L'.Tops t) (hlive : L'.Tops t')
    (h : Held (Level.Knows (t :: past)) L' inherited' ls ts t'.handler) :
    Held (Level.Knows (t' :: t :: past)) L' inherited' ls ts t'.handler :=
  h.map fun _ _ _ hhandler hknown =>
    hknown.keep hlive.liveIn (.inl hhandler) (.waiting htops rfl)

/-- The running activation passes its handler on. -/
theorem Held.pass (htops : L.Tops t) (hset : ¬ OpAt t.image.chunk t.ip .setLocal)
    (hlive : L.LiveIn t') {handler : Option Handler}
    (hkeeps : ∀ h, handler = some h → t'.Keeps h)
    (h : Held (Level.Knows (t :: past)) L inherited ls ts handler) :
    Held (Level.Knows (t' :: t :: past)) L inherited ls ts handler :=
  h.map fun _ _ _ hhandler hknown =>
    hknown.keep hlive (hkeeps _ hhandler)
      (.running htops (Thread.assign_of_not_opAt hset _).symm)

/-! ## Failures -/

/-- No failure of compiled code is one of the machine's own, and it is caught by an activation of
the tower or ends the run. -/
theorem Runs.failure {w : World} {s' : State} {e : RuntimeError} (hR : R.OfCode)
    (hinert : host.InertIn R) (hload : host.LoadsFrom R.program) (h : Runs R (t :: past) Ls)
    (hw : w.In R)
    (hr : instruction host ⟨t, w⟩ = .error e s') :
    e.internal = false ∧ s'.world.In R ∧ s'.thread.windows = t.windows ∧
      (∀ t', s'.thread.raise s'.thread.windows e = .ok t' →
        Caught R (Level.Knows (t :: past)) Ls s'.thread.windows e t') ∧
      ∀ e' t', s'.thread.raise s'.thread.windows e = .error (e', t') →
        t'.windows = [] ∧ t'.globals.In R := by
  obtain ⟨tower, hs, held⟩ := h
  have heffect := effect hR hinert hload hs hw
  generalize instruction host ⟨t, w⟩ = r at heffect hr
  cases heffect with
  | go | arm | disarm | enter | load => cases hr
  | fail he hcarries hstack hhandler hw' =>
    cases hr
    refine ⟨he, hw', hcarries.tops.windows.trans hs.carries.tops.windows.symm, ?_⟩
    exact tower.raise hs.site (hhandler ▸ held) (hcarries.tops.frames ▸ List.prefix_refl _)
      (hstack ▸ prefix_stack_locals) hcarries.tops.windows hcarries.globals e
  | leave hop hv hend hcarries hstack hip =>
    have hret := tower.leave host (w := w) hcarries hstack hv
    generalize doReturn host _ _ = r at hret hr
    cases hret with
    | ground | module => cases hr
    | caller hLs hwindows below wait held' hv' hcarries' hstack' =>
      -- The return has been made, but the caller has no room for the value.
      unfold pushed at hr
      split at hr
      · cases hr
        obtain ⟨hok, herror⟩ := below.raise (wait .null Value.in_null) held'
          (hcarries'.tops.frames ▸ List.prefix_refl _) (hstack' ▸ prefix_stack_locals)
          hcarries'.tops.windows hcarries'.globals .stackOverflow
        refine ⟨rfl, hw, ?_, fun t' ht' => (hok t' ht').mono ?_, herror⟩
        · rw [hcarries'.tops.windows, ← hwindows, hs.carries.tops.windows]
        · rw [hLs]
          exact List.suffix_cons ..
      · cases hr

/-! ## Steps -/

/-- What a step of the latest thread of `ts`, which runs the activations `Ls` and is at the address
`a`, leads to. -/
inductive Next (R : Realm) (ts : List Thread) (a : Nat) (Ls : List Level) : Outcome → Prop
  | running {s' Ls'} (runs : Runs R (s'.thread :: ts) Ls') (world : s'.world.In R)
    (levels : Ls' <:+ Ls ∨ ∃ L, Ls' = L :: Ls) : Next R ts a Ls (.running s')
  /-- Only the run of a program or of a spawned call itself is left, and it returns. -/
  | finished {L v s'} (levels : Ls = [L]) (world : s'.world.In R) (globals : s'.thread.globals.In R)
    (tops : L.Tops s'.thread) (windows : L.windows = []) (image : s'.thread.image = L.image)
    (ip : s'.thread.ip = a + 1)
    (ends : L.top = true → Ends L.program a s'.thread.stack.size) :
    Next R ts a Ls (.finished v s')
  | failed {e s'} (world : s'.world.In R) (globals : s'.thread.globals.In R)
    (windows : s'.thread.windows = []) : Next R ts a Ls (.failed e s')

/-- A failure goes to the activation that catches it, or out of the run. -/
theorem Runs.next_of_error (hR : R.OfCode) (hinert : host.InertIn R) (hload : host.LoadsFrom R.program)
    (h : Runs R (t :: past) Ls) {w : World} (hw : w.In R) {e : RuntimeError} {s' : State}
    (hr : instruction host ⟨t, w⟩ = .error e s') :
    Next R (t :: past) t.ip Ls (step host ⟨t, w⟩) := by
  obtain ⟨-, hw', -, hok, herror⟩ := h.failure hR hinert hload hw hr
  obtain ⟨tower, hs, held⟩ := h
  cases hraise : s'.thread.raise s'.thread.windows e with
  | error failure =>
    obtain ⟨e', t'⟩ := failure
    have hstep : step host ⟨t, w⟩ = .failed e' { s' with thread := t' } := by
      simp only [step, hr, hraise]
    obtain ⟨hwindows, hglobals⟩ := herror e' t' hraise
    rw [hstep]
    exact .failed hw' hglobals hwindows
  | ok t' =>
    have hstep : step host ⟨t, w⟩ = .running { s' with thread := t' } := by
      simp only [step, hr, hraise]
    obtain ⟨hsuffix, htower, -, -, -, hstands, -, hhandler⟩ := hok t' hraise
    have htower' := Tower.keep hs.carries.tops tower htower hsuffix hstands.carries.tops.liveIn
    rw [hstep]
    exact .running ⟨htower', hstands, hhandler ▸ .none⟩ hw' (.inl hsuffix)

/-- A return goes to the caller or the importer, or out of the run. -/
theorem Runs.next_of_leave {w : World} {t' : Thread} {σ : Site} {vs : List Value} {v : Value}
    (tower : Tower R (Level.Knows (t :: past)) L Ls inherited)
    (hs : Stands R L σ ls vs t) (hw : w.In R) (hv : v.In R)
    (hend : L.top = true → Ends L.program t.ip ls.length) (hcarries : L.Carries R t')
    (hstack : t'.stack = L.stack ls []) (hip : t'.ip = t.ip + 1)
    (hr : instruction host ⟨t, w⟩ = doReturn host v ⟨t', w⟩)
    (herror : ∀ e s', instruction host ⟨t, w⟩ = .error e s' →
      Next R (t :: past) t.ip (L :: Ls) (step host ⟨t, w⟩)) :
    Next R (t :: past) t.ip (L :: Ls) (step host ⟨t, w⟩) := by
  have hret := tower.leave host (w := w) hcarries hstack hv
  generalize doReturn host v ⟨t', w⟩ = r at hret hr
  cases hret with
  | ground hLs hwindows =>
    subst hLs
    have hwindows' : t'.windows = [] := hcarries.tops.windows.trans hwindows
    have hstep : step host ⟨t, w⟩ = .finished v ⟨t', w⟩ := by simp only [step, hr, hwindows']
    have hsize : t'.stack.size = ls.length := by
      cases tower
      simp [hstack, Level.stack, Level.ground]
    rw [hstep]
    exact .finished rfl hw hcarries.globals hcarries.tops hwindows hcarries.image hip
      (hsize ▸ hend)
  | @module window outer hwindows =>
    have hwindows' : t'.windows = window :: outer := hcarries.tops.windows.trans hwindows
    have hstep : step host ⟨t, w⟩ = .running ⟨t'.closeWindow window outer, w⟩ := by
      simp only [step, hr, hwindows']
    obtain ⟨L', Ls', inh', σ', ls', vs', hsuffix, -, htower, hstands, hheld⟩ :=
      tower.close hwindows (hcarries.tops.frames ▸ List.prefix_refl _) (hstack ▸ prefix_stack)
        hcarries.globals
    have hsuffix' : (L' :: Ls') <:+ (L :: Ls) := hsuffix.trans (List.suffix_cons ..)
    have htower' := Tower.keep hs.carries.tops tower htower hsuffix' hstands.carries.tops.liveIn
    have hwaits : ¬ L'.Tops t := tower.not_tops hs.carries.tops (hsuffix.subset List.mem_cons_self)
    have hheld' := Held.resume hwaits hstands.carries.tops hheld
    rw [hstep]
    exact .running ⟨htower', hstands, hheld'⟩ hw (.inl hsuffix')
  | @caller L' Ls' inh' σ' ls' vs' v' t'' hLs hwindows below wait held hv' hcarries' hstack' =>
    subst hLs
    by_cases hfull : host.limits.stack ≤ t''.stack.size
    · rw [pushed, if_pos hfull] at hr
      exact herror _ _ hr
    · rw [pushed, if_neg hfull] at hr
      have hstep : step host ⟨t, w⟩ = .running ⟨{ t'' with stack := t''.stack.push v' }, w⟩ := by
        simp only [step, hr]
      have hstands : Stands R L' σ' ls' (v' :: vs') { t'' with stack := t''.stack.push v' } :=
        ⟨hcarries'.of_eq rfl rfl rfl rfl hcarries'.globals,
          by rw [Level.stack_cons, ← hstack'], wait v' hv'⟩
      have hsuffix : (L' :: Ls') <:+ (L :: L' :: Ls') := List.suffix_cons ..
      have htower' := Tower.keep hs.carries.tops tower below hsuffix
        hstands.carries.tops.liveIn
      have hwaits : ¬ L'.Tops t := tower.not_tops hs.carries.tops List.mem_cons_self
      have hheld' := Held.resume hwaits hstands.carries.tops held
      rw [hstep]
      exact .running ⟨htower', hstands, hheld'⟩ hw (.inl hsuffix)

/-- A step of compiled code leads to compiled code again. -/
theorem Runs.next (hR : R.OfCode) (hinert : host.InertIn R) (hload : host.LoadsFrom R.program)
    (h : Runs R (t :: past) Ls) {w : World} (hw : w.In R) :
    Next R (t :: past) t.ip Ls (step host ⟨t, w⟩) := by
  have herror : ∀ e s', instruction host ⟨t, w⟩ = .error e s' →
      Next R (t :: past) t.ip Ls (step host ⟨t, w⟩) :=
    fun e s' hr => h.next_of_error hR hinert hload hw hr
  obtain @⟨_, _, L, Ls, inherited, σ, ls, vs, tower, hs, held⟩ := h
  have htops := hs.carries.tops
  have heffect := effect hR hinert hload hs hw
  generalize hr : instruction host ⟨t, w⟩ = r at heffect
  cases heffect with
  | @go σ' ls' vs' t' w' hstands hw' htries hhandler hls =>
    have hstep : step host ⟨t, w⟩ = .running ⟨t', w'⟩ := by simp only [step, hr]
    have hlive := hstands.carries.tops.liveIn
    have htower' := Tower.keep htops tower tower (List.suffix_refl _) hlive
    rw [hstep]
    refine .running ⟨htower', hstands, ?_⟩ hw' (.inl (List.suffix_refl _))
    rw [htries, hhandler]
    refine held.map fun τ outer hτ heq hknown => ?_
    obtain ⟨-, -, hlocals, -⟩ := hstands.site.flow.point.guarded τ outer (htries.trans hτ)
    exact hknown.keep hlive (.inl (hhandler.trans heq)) (.running htops (hls _ hlocals))
  | @arm σ' τ t' hop ha hlocals hstack hstands htries hhandler =>
    have hstep : step host ⟨t, w⟩ = .running ⟨t', w⟩ := by simp only [step, hr]
    have htower' := Tower.keep htops tower tower (List.suffix_refl _)
      hstands.carries.tops.liveIn
    obtain ⟨-, -, -, -, hoccurs⟩ := hstands.site.flow.point.guarded τ σ.tries htries
    have henters : L.Enters τ ls t :=
      ⟨htops, hs.carries.image, hs.carries.base, hstack, hlocals, ha, hop, hs.site.compiled.compiled,
        hstands.site.top ▸ hoccurs⟩
    have hknown : L.Knows (t' :: t :: past) τ ls := .arm henters hstands.carries.tops hhandler
    rw [hstep]
    refine .running ⟨htower', hstands, ?_⟩ hw (.inl (List.suffix_refl _))
    rw [htries, hhandler]
    refine .own ?_
    rw [List.take_of_length_le (Nat.le_of_eq hlocals)]
    exact hknown
  | @disarm σ' τ vs' t' hop hstands htries hhandler =>
    have hstep : step host ⟨t, w⟩ = .running ⟨t', w⟩ := by simp only [step, hr]
    have htower' := Tower.keep htops tower tower (List.suffix_refl _)
      hstands.carries.tops.liveIn
    rw [hstep]
    exact .running ⟨htower', hstands, hhandler ▸ .none⟩ hw (.inl (List.suffix_refl _))
  | @enter σ' f p slots vs' result t' w' hop hwait htries hresult hstands hhandler hw' =>
    have hstep : step host ⟨t, w⟩ = .running ⟨t', w'⟩ := by simp only [step, hr]
    have hframes := hstands.carries.tops.frames
    have hlive : L.LiveIn t' :=
      ⟨hframes ▸ prefix_push .., hstands.carries.tops.windows ▸ List.suffix_refl _⟩
    have htower' := Tower.keep htops tower tower (List.suffix_refl _) hlive
    have hsaved : (⟨L.image, t.ip + 2, L.lower.size, t.handler, result⟩ : Frame) ∈ t'.frames := by
      rw [hframes]
      exact Array.mem_push_self
    have hheld := Held.pass htops (hop.ne (by decide)) hlive
      (fun h heq => .inr (.inl ⟨_, hsaved, heq⟩)) held
    rw [hstep]
    refine .running ⟨.call htower' hwait (htries ▸ hheld) hresult, hstands, ?_⟩ hw'
      (.inr ⟨_, rfl⟩)
    rw [hhandler]
    exact .inherited
  | leave hop hv hend hcarries hstack hip =>
    exact next_of_leave tower hs hw hv hend hcarries hstack hip hr herror
  | @load σ' path image p vs' t' hop hwait htries hstands hhandler =>
    have hstep : step host ⟨t, w⟩ = .running ⟨t', w⟩ := by simp only [step, hr]
    have hwindows := hstands.carries.tops.windows
    have hlive : L.LiveIn t' :=
      ⟨hstands.carries.tops.frames ▸ List.prefix_refl _, hwindows ▸ List.suffix_cons ..⟩
    have htower' := Tower.keep htops tower tower (List.suffix_refl _) hlive
    have hsaved : (⟨path, L.frames.size, (L.stack ls vs').size, L.image, t.ip + 1, L.lower.size,
        t.handler⟩ : Window) ∈ t'.windows := by
      rw [hwindows]
      exact List.mem_cons_self
    have hheld := Held.pass htops (hop.ne (by decide)) hlive
      (fun h heq => .inr (.inr ⟨_, hsaved, heq⟩)) held
    rw [hstep]
    refine .running ⟨.module htower' hwait (htries ▸ hheld), hstands, ?_⟩ hw (.inr ⟨_, rfl⟩)
    rw [hhandler]
    exact .none
  | fail => exact herror _ _ hr

end

end DotScript.Machine
