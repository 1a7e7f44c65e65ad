import DotScript.Proofs.Session.Within

/-!
# Imports leave nothing behind

A module runs upon its importer and leaves it alone: what the importer had is below all that the
module does, its handler is out of reach, and when the module is over the importer goes on as it
was. A failure that the module does not catch is a failure of the import.

* `Armed.mem_or_liveIn`: a handler was armed within the module, or by an activation that is older;
* `raise_module`: a failure within a module;
* `Runs.module_kept`: an instruction that ends a module, or fails in it, leaves what is below.

Main statement: `import_transparent`.
-/

namespace DotScript.Machine

open DotScript.Bytecode DotScript.Compile DotScript.Syntax

/-! ## Importers -/

/-- `x` put back to where `t` was at its import: behind it, and without the path. -/
def Thread.importer (t x : Thread) : Thread :=
  { x with
    stack := t.stack.pop
    frames := t.frames
    image := t.image
    ip := t.ip + 1
    base := t.base
    handler := t.handler
    windows := t.windows
    imports := t.imports }

/-- What a failure of the thread leads to. -/
def raised (e : RuntimeError) (s : State) : Outcome :=
  match s.thread.raise s.thread.windows e with
  | .ok t => .running { s with thread := t }
  | .error (e, t) => .failed e { s with thread := t }

/-- The thread `x` has more imports in progress than `t`. -/
def Thread.ModuleAbove (t x : Thread) : Prop := t.windows.length < x.windows.length

/-- The imports of `x` in progress within the first module upon `t`, the innermost first. -/
def Thread.importsWithin (t x : Thread) : List Window :=
  x.windows.take (x.windows.length - (t.windows.length + 1))

section
variable {host : Host} {t x u : Thread} {past us : List Thread} {h : Handler} {ls : List Value}
  {e : RuntimeError} {s : State} {w : World}

theorem step_of_error (hr : instruction host ⟨t, w⟩ = .error e s) :
    step host ⟨t, w⟩ = raised e s := by
  unfold step
  rw [hr]
  rfl

/-- A handler was armed after `t`, or its activation was live at `t`. -/
theorem Armed.mem_or_liveIn (ha : Armed (x :: (us ++ t :: past)) h u ls) : u ∈ us ∨ u.LiveIn t := by
  induction us generalizing x ls with
  | nil =>
    cases ha with
    | arm => exact .inr (.refl t)
    | keep before => exact .inr before.liveIn
  | cons y us ih =>
    cases ha with
    | arm => exact .inl List.mem_cons_self
    | keep before => exact (ih before).imp_left (List.mem_cons_of_mem _)

/-- An armed handler whose activation has more imports than `t` was armed after `t`. -/
theorem Armed.mem_of_moduleAbove (ha : Armed (x :: (us ++ t :: past)) h u ls) (hu : t.ModuleAbove u) :
    u ∈ us := by
  refine ha.mem_or_liveIn.resolve_right fun hlive => ?_
  have hle := hlive.windows.length_le
  unfold Thread.ModuleAbove at hu
  omega

end

/-! ## Failures within modules -/

/-- Later imports stand upon earlier ones. -/
def Ordered (windows : List Window) : Prop :=
  windows.Pairwise fun w w' => w'.depth ≤ w.depth ∧ w'.height ≤ w.height

/-- A failure within a module is caught there, or it is the failure of the import. -/
theorem raise_module {window : Window} {outer : List Window} {t : Thread} {frames : Array Frame}
    {stack : Array Value} (inner : List Window) (e : RuntimeError)
    (hordered : Ordered (inner ++ window :: outer)) (hdepth : frames.size = window.depth)
    (hheight : stack.size = window.height) (hframes : frames.toList <+: t.frames.toList)
    (hstack : stack.toList <+: t.stack.toList) (hwindows : t.windows = inner ++ window :: outer)
    (himports : t.imports = t.windows.length) :
    (∃ t', t.raise (inner ++ window :: outer) e = .ok t' ∧ outer.length < t'.windows.length) ∨
    t.raise (inner ++ window :: outer) e =
      Thread.raise outer (.importFailed window.path (arrived inner e).message)
        { t with
          stack, frames
          image := window.image
          ip := window.ip
          base := window.base
          handler := window.handler
          windows := outer
          imports := outer.length } := by
  induction inner generalizing t e with
  | nil =>
    cases hh : t.handler with
    | some handler =>
      refine .inl ⟨t.enterHandler handler e, by simp only [List.nil_append, Thread.raise, hh], ?_⟩
      simp [Thread.enterHandler, hwindows]
    | none =>
      refine .inr ?_
      have hcut : t.frames.take window.depth = frames := hdepth ▸ prefix_take_size hframes
      have hcut' : t.stack.take window.height = stack := hheight ▸ prefix_take_size hstack
      have hcount : t.imports - 1 = outer.length := by simp [himports, hwindows]
      simp only [List.nil_append, Thread.raise, hh, Thread.closeWindow, hcut, hcut', hcount, arrived]
  | cons v inner ih =>
    cases hh : t.handler with
    | some handler =>
      refine .inl ⟨t.enterHandler handler e, by simp only [List.cons_append, Thread.raise, hh], ?_⟩
      simp [Thread.enterHandler, hwindows]
      omega
    | none =>
      simp only [List.cons_append, Thread.raise, hh]
      obtain ⟨hfirst, hrest⟩ := List.pairwise_cons.mp hordered
      obtain ⟨hle, hle'⟩ := hfirst window (List.mem_append_right _ List.mem_cons_self)
      have hframes' : frames.toList <+: (t.frames.take v.depth).toList := by
        rw [← prefix_take_size hframes, ← take_take t.frames (m := v.depth) (by omega)]
        exact take_prefix_self ..
      have hstack' : stack.toList <+: (t.stack.take v.height).toList := by
        rw [← prefix_take_size hstack, ← take_take t.stack (m := v.height) (by omega)]
        exact take_prefix_self ..
      exact ih (.importFailed v.path e.message) hrest hframes' hstack' rfl
        (by simp [Thread.closeWindow, himports, hwindows])

section
variable {R : Realm} {Q : Level → Try → List Value → Prop} {host : Host} {L : Level}
  {Ls : List Level} {inherited : Option Handler} {t : Thread} {past : List Thread}

/-- The imports of a tower stand upon each other, below the activation on top. -/
theorem Tower.ordered (h : Tower R Q L Ls inherited) :
    Ordered L.windows ∧ ∀ w ∈ L.windows, w.depth ≤ L.frames.size ∧ w.height ≤ L.lower.size := by
  induction h with
  | ground => exact ⟨.nil, nofun⟩
  | @call L Ls inherited a σ ls vs handler result f image p below wait held hresult ih =>
    refine ⟨ih.1, fun w hw => ?_⟩
    obtain ⟨hdepth, hheight⟩ := ih.2 w hw
    simp only [Array.size_push, Level.size_stack]
    omega
  | @module L Ls inherited a σ ls vs handler path image p below wait held ih =>
    refine ⟨.cons (fun w hw => ?_) ih.1, fun w hw => ?_⟩
    · obtain ⟨hdepth, hheight⟩ := ih.2 w hw
      simp only [Level.size_stack]
      omega
    · rcases List.mem_cons.mp hw with rfl | hw
      · exact ⟨Nat.le_refl _, Nat.le_refl _⟩
      · obtain ⟨hdepth, hheight⟩ := ih.2 w hw
        simp only [Level.size_stack]
        omega

theorem Runs.ordered (h : Runs R (t :: past) Ls) : Ordered t.windows := by
  obtain ⟨tower, stands, held⟩ := h
  rw [stands.carries.tops.windows]
  exact tower.ordered.1

/-- The frames of the importers are below those of all activations. -/
theorem Tower.floorOf_le (h : Tower R Q L Ls inherited) : floorOf L.windows ≤ L.frames.size := by
  cases hw : L.windows with
  | nil => exact Nat.zero_le _
  | cons w outer => exact h.floor_le hw

/-- What an activation stands upon is there on a thread. -/
structure Level.KeptBy (L : Level) (t : Thread) : Prop where
  frames : L.frames.toList <+: t.frames.toList
  lower : L.lower.toList <+: t.stack.toList

/-- An instruction that ends a module or a run, or fails, leaves what the modules in progress stand
upon. -/
theorem Runs.module_kept (hR : R.OfCode) (hinert : host.InertIn R) (hload : host.LoadsFrom R.program)
    (h : Runs R (t :: past) Ls) {w : World} (hw : w.In R) (hL : L ∈ Ls)
    (hmodule : floorOf L.windows = L.frames.size) :
    match instruction host ⟨t, w⟩ with
    | .ok none _ => True
    | .ok (some _) s | .error _ s => L.KeptBy s.thread := by
  obtain @⟨_, _, L₀, Ls₀, inherited, σ, ls, vs, tower, hs, held⟩ := h
  -- On top of the tower, the activation is kept by a thread that still carries the top.
  have hkept : ∀ {t' : Thread} {ls' vs'}, L₀.Carries R t' → t'.stack = L₀.stack ls' vs' →
      L.KeptBy t' := by
    intro t' ls' vs' hcarries hstack
    refine ⟨?_, ?_⟩
    · rw [hcarries.tops.frames]
      rcases List.mem_cons.mp hL with rfl | hL
      · exact List.prefix_refl _
      · exact (tower.under L hL).frames
    · rw [hstack]
      rcases List.mem_cons.mp hL with rfl | hL
      · exact prefix_stack
      · exact (tower.lower_prefix L hL).trans prefix_stack
  have heffect := effect hR hinert hload hs hw
  generalize instruction host ⟨t, w⟩ = r at heffect
  cases heffect with
  | go | arm | disarm | enter | load => trivial
  | fail he hcarries hstack hhandler hw' => exact hkept hcarries hstack
  | @leave v t' hop hv hend hcarries hstack hip =>
    have hret := tower.leave host (w := w) hcarries hstack hv
    generalize doReturn host v ⟨t', w⟩ = r at hret
    cases hret with
    | ground | module => exact hkept hcarries hstack
    | @caller L' Ls' inherited' σ' ls' vs' v' t'' hLs hwindows below wait held' hv' hcarries' hstack' =>
      by_cases hfull : host.limits.stack ≤ t''.stack.size
      · rw [pushed, if_pos hfull]
        -- The return has been made, so the activation on top was not that of a module.
        have hmem : L ∈ L' :: Ls' := by
          refine hLs ▸ (List.mem_cons.mp hL).resolve_left ?_
          rintro rfl
          have hlt := tower.height_lt L' (hLs ▸ List.mem_cons_self)
          have hfloor := below.floorOf_le
          rw [← hwindows, hmodule] at hfloor
          simp only [Level.height, hwindows] at hlt
          omega
        refine ⟨?_, ?_⟩
        · rw [hcarries'.tops.frames]
          rcases List.mem_cons.mp hmem with rfl | hmem
          · exact List.prefix_refl _
          · exact (below.under L hmem).frames
        · rw [hstack']
          rcases List.mem_cons.mp hmem with rfl | hmem
          · exact prefix_stack
          · exact (below.lower_prefix L hmem).trans prefix_stack
      · rw [pushed, if_neg hfull]
        trivial

end

/-! ## Modules -/

/-- The activation of a module that `t` imports. -/
structure Level.ModuleOf (L : Level) (t : Thread) (path : Value) : Prop where
  op : OpAt t.image.chunk t.ip .importUnit
  stack : t.stack = L.lower.push path
  frames : L.frames = t.frames
  windows : L.windows =
    ⟨path.text, t.frames.size, L.lower.size, t.image, t.ip + 1, t.base, t.handler⟩ :: t.windows

/-- What a step of `x` leads to, within a module that `t` has imported. The states since then are
`us`; `ts` is the whole history. -/
inductive ModuleStep (host : Host) (t : Thread) (path : Value) (us ts : List Thread) (x : Thread)
    (w : World) : Prop
  /-- The module goes on. -/
  | goes {s} (ok : ∀ e s', instruction host ⟨x, w⟩ ≠ .error e s')
    (step : step host ⟨x, w⟩ = .running s) (module : t.ModuleAbove s.thread)
  /-- A failure goes to a handler that was armed within the module. -/
  | caught {e s s' handler y ls} (error : instruction host ⟨x, w⟩ = .error e s')
    (step : step host ⟨x, w⟩ = .running s) (armed : Armed ts handler y ls) (within : y ∈ us)
    (ip : s.thread.ip = handler.address) (module : t.ModuleAbove s.thread)
  /-- The importer goes on behind the import. -/
  | ends {v s} (ok : instruction host ⟨x, w⟩ = .ok (some v) s)
    (step : step host ⟨x, w⟩ = .running ⟨t.importer s.thread, s.world⟩)
  /-- The import fails. -/
  | fails {e s} (error : instruction host ⟨x, w⟩ = .error e s)
    (step : step host ⟨x, w⟩ = raised
      (.importFailed path.text (arrived (t.importsWithin x) e).message)
      ⟨t.importer s.thread, s.world⟩)

/-- What an import comes to at once. -/
inductive ImportStep (host : Host) (x : Thread) (path : Value) (w : World) : Prop
  /-- It fails, and no module runs. -/
  | refused {message} (error : instruction host ⟨x, w⟩ =
      .error (.importFailed path.text message) ⟨x.importer x, w⟩)
  /-- A module begins to run, without a handler in force. -/
  | begun {s} (step : step host ⟨x, w⟩ = .running s) (module : x.ModuleAbove s.thread)
    (handler : s.thread.handler = none) (imports : s.thread.imports = x.imports + 1)

section
variable {R : Realm} {host : Host} {L : Level} {Ls : List Level} {t t₁ x y : Thread} {path : Value}
  {past us xs : List Thread} {w : World}

/-- A thread that has more imports than `t` had runs upon a module that `t` has imported. -/
theorem Tracked.moduleOf (hhistory : History host (x :: xs)) (htracked : Tracked R (x :: xs) Ls)
    (hpast : x :: xs = us ++ t₁ :: t :: past) (habove : ∀ y ∈ us ++ [t₁], t.ModuleAbove y) :
    ∃ L path, L ∈ Ls ∧ L.ModuleOf t path := by
  obtain ⟨L, Ls', ht, ht₁, hsuffix⟩ :=
    (hpast ▸ htracked).within fun y hy => .inr (habove y hy)
  have hbegin : History host (t₁ :: t :: past) := .of_append us (hpast ▸ hhistory)
  obtain ⟨hbefore, hmoves⟩ : History host (t :: past) ∧ t.Moves host t₁ := by
    cases hbegin with
    | next before moves => exact ⟨before, moves⟩
  have hmore := habove t₁ (List.mem_append_right _ List.mem_cons_self)
  cases hmoves.rises hbefore (.inr hmore) with
  | enter op slot_eq below control =>
    simp only [Thread.control, Control.mk.injEq] at control
    obtain ⟨-, hw, -⟩ := control
    rw [Thread.ModuleAbove, hw] at hmore
    exact absurd hmore (Nat.lt_irrefl _)
  | @load path image op stack control =>
    simp only [Thread.control, Control.mk.injEq] at control
    obtain ⟨hf, hw, -, -, hb, -⟩ := control
    obtain ⟨_, _, heq, hcarries⟩ := ht₁.exists_top
    cases heq
    have hsize : L.lower.size = t₁.stack.size := hcarries.base.symm.trans hb
    have hlower : L.lower = t₁.stack := by
      refine Array.toList_inj.mp ((ht₁.lower_prefix L List.mem_cons_self).eq_of_length ?_)
      simpa using hsize
    refine ⟨L, path, hsuffix.subset List.mem_cons_self, op, ?_, ?_, ?_⟩
    · rw [hlower, stack]
    · exact hcarries.tops.frames.symm.trans hf
    · rw [← hcarries.tops.windows, hw, hsize]

/-- A failure above a module is caught there or is the failure of its import. -/
theorem Level.ModuleOf.raise (hL : L.ModuleOf t path) (hkept : L.KeptBy y)
    (hwindows : L.windows <:+ y.windows) (hordered : Ordered y.windows)
    (hy : y.imports = y.windows.length) (ht : t.imports = t.windows.length) (e : RuntimeError) :
    (∃ t', y.raise y.windows e = .ok t' ∧ t.ModuleAbove t') ∨
    y.raise y.windows e = (t.importer y).raise t.windows
      (.importFailed path.text (arrived (t.importsWithin y) e).message) := by
  obtain ⟨inner, hinner⟩ := hwindows
  rw [hL.windows] at hinner
  have hpop : t.stack.pop = L.lower := by rw [hL.stack, Array.pop_push]
  have hframes : t.frames.toList <+: y.frames.toList := hL.frames ▸ hkept.frames
  have hraise := raise_module inner e (hinner ▸ hordered) rfl rfl hframes hkept.lower hinner.symm hy
  rw [hinner] at hraise
  have hwithin : t.importsWithin y = inner := by
    rw [Thread.importsWithin, ← hinner, List.length_append, List.length_cons, Nat.add_sub_cancel,
      List.take_left]
  refine hraise.imp_right fun h => h.trans ?_
  simp only [Thread.importer, hpop, ht, hwithin]

/-- An instruction that does not fail closes no import. -/
theorem windows_length_le {s : State} (hr : instruction host ⟨x, w⟩ = .ok none s) :
    x.windows.length ≤ s.thread.windows.length := by
  have hshift := instruction_shift host x w
  rw [hr] at hshift
  cases hshift with
  | stay control | arm op stack control | disarm control | enter op slot_eq room below control
  | leave frames floor ip height stack control | load op room stack control =>
    simp only [Thread.control, Control.mk.injEq] at control
    obtain ⟨-, hw, -⟩ := control
    simp [hw]

/-- The end of a module that `t` has imported, or of one within it. -/
theorem Level.ModuleOf.close {s : State} {v : Value} (hL : L.ModuleOf t path)
    (hlive : L.LiveIn x) (hkept : L.KeptBy s.thread) (hx : x.imports = x.windows.length)
    (ht : t.imports = t.windows.length) (hr : instruction host ⟨x, w⟩ = .ok (some v) s) :
    (∃ s', step host ⟨x, w⟩ = .running s' ∧ t.ModuleAbove s'.thread) ∨
      step host ⟨x, w⟩ = .running ⟨t.importer s.thread, s.world⟩ := by
  have hshift := instruction_shift host x w
  rw [hr] at hshift
  cases hshift with
  | finish floor control =>
    simp only [Thread.control, Control.mk.injEq] at control
    obtain ⟨-, hw, hi, -⟩ := control
    obtain ⟨inner, hinner⟩ := hlive.windows
    rw [hL.windows, ← hw] at hinner
    cases inner with
    | nil =>
      rw [List.nil_append] at hinner
      refine .inr ?_
      have hpop : t.stack.pop = L.lower := by rw [hL.stack, Array.pop_push]
      have hframes : s.thread.frames.take t.frames.size = t.frames :=
        prefix_take_size (hL.frames ▸ hkept.frames)
      have hstack : s.thread.stack.take L.lower.size = L.lower := prefix_take_size hkept.lower
      have himports : s.thread.imports - 1 = t.windows.length := by
        rw [hi, hx, ← hw, ← hinner, List.length_cons, Nat.add_sub_cancel]
      simp only [step, hr, ← hinner]
      simp only [Thread.closeWindow, Thread.importer, hframes, hstack, hpop, himports, ht]
    | cons v inner =>
      refine .inl ⟨_, by simp only [step, hr, ← hinner, List.cons_append]; rfl, ?_⟩
      simp [Thread.ModuleAbove, Thread.closeWindow]
      omega

/-- What a step within a module leads to. -/
theorem Tracked.moduleStep (hR : R.OfCode) (hinert : host.InertIn R)
    (hload : host.LoadsFrom R.program) (hw : w.In R)
    (hhistory : History host (x :: (us ++ t :: past)))
    (htracked : Tracked R (x :: (us ++ t :: past)) Ls) (habove : ∀ y ∈ x :: us, t.ModuleAbove y) :
    ∃ (L : Level) (path : Value), L.ModuleOf t path ∧ L.LiveIn x ∧
      L.lower.toList <+: x.stack.toList ∧ ModuleStep host t path us (x :: (us ++ t :: past)) x w := by
  have hx : t.ModuleAbove x := habove x List.mem_cons_self
  obtain ⟨L, path, hmem, hL⟩ : ∃ (L : Level) (path : Value), L ∈ Ls ∧ L.ModuleOf t path := by
    obtain ⟨us', t₁, hus⟩ := (List.eq_nil_or_concat (x :: us)).resolve_left nofun
    rw [List.concat_eq_append] at hus
    have hpast : x :: (us ++ t :: past) = us' ++ t₁ :: t :: past := by
      rw [← List.cons_append, hus, List.append_assoc]
      rfl
    exact htracked.moduleOf hhistory hpast fun y hy => habove y (hus ▸ hy)
  have hlive := htracked.runs.liveIn L hmem
  have hsound := hhistory.sound_state
  have ht : t.imports = t.windows.length :=
    (History.of_append (x :: us) hhistory).sound_state.imports
  have hmodule : floorOf L.windows = L.frames.size := by
    rw [hL.windows, hL.frames]
    rfl
  have hkept := htracked.runs.module_kept hR hinert hload hw hmem hmodule
  refine ⟨L, path, hL, hlive, htracked.runs.lower_prefix L hmem, ?_⟩
  cases hr : instruction host ⟨x, w⟩ with
  | ok v s =>
    have hok : ∀ e s', instruction host ⟨x, w⟩ ≠ .error e s' := by
      rw [hr]
      nofun
    rw [hr] at hkept
    cases v with
    | none =>
      exact .goes hok (step_of_ok hr) (Nat.lt_of_lt_of_le hx (windows_length_le hr))
    | some v =>
      rcases hL.close hlive hkept hsound.imports ht hr with ⟨s', hstep, hmore⟩ | hstep
      · exact .goes hok hstep hmore
      · exact .ends hr hstep
  | error e s =>
    rw [hr] at hkept
    have hshift := instruction_shift host x w
    rw [hr] at hshift
    obtain ⟨-, -, hwindows, himports⟩ := hsound.failed hshift
    have hordered : Ordered s.thread.windows := hwindows ▸ htracked.runs.ordered
    have hcount : s.thread.imports = s.thread.windows.length := by
      rw [himports, hwindows, hsound.imports]
    have hstep := step_of_error hr
    rcases hL.raise hkept (hwindows ▸ hlive.windows) hordered hcount ht e with
      ⟨t', hraise, hmore⟩ | hraise
    · obtain ⟨handler, hc⟩ := hsound.recovered hshift hraise
      obtain ⟨y, ls, harmed, hy⟩ := hc.known
      have hwithin : y ∈ us := by
        refine harmed.mem_of_moduleAbove ?_
        rw [Thread.ModuleAbove, hy]
        exact hmore
      simp only [raised, hraise] at hstep
      exact .caught hr hstep harmed hwithin hc.ip hmore
    · refine .fails hr (hstep.trans ?_)
      have hwithin : t.importsWithin s.thread = t.importsWithin x := by
        simp only [Thread.importsWithin, hwindows]
      rw [raised, hraise, hwithin]
      rfl

/-- What an import comes to at once: there is a path on the stack, and it is refused or a module
begins. -/
theorem Runs.importStep (hR : R.OfCode) (hinert : host.InertIn R) (hload : host.LoadsFrom R.program)
    (hw : w.In R) (h : Runs R (x :: xs) Ls) (hop : OpAt x.image.chunk x.ip .importUnit) :
    ∃ (st : Array Value) (path : Value), x.stack = st.push path ∧ ImportStep host x path w := by
  rcases Nat.eq_zero_or_pos x.stack.size with hempty | hpos
  · have herror : instruction host ⟨x, w⟩ = .error .stackUnderflow ⟨{ x with ip := x.ip + 1 }, w⟩ := by
      rw [instruction_of_opAt host hop]
      simp only [execute]
      rw [bind_of_error (pop_empty (t := { x with ip := x.ip + 1 }) hempty w)]
    obtain ⟨hinternal, -⟩ := h.failure hR hinert hload hw herror
    cases hinternal
  · obtain ⟨st, path, hst⟩ := Array.size_pos_iff_exists_push.mp hpos
    refine ⟨st, path, hst, ?_⟩
    have hpop : x.importer x = { x with ip := x.ip + 1, stack := st } := by
      simp only [Thread.importer, hst, Array.pop_push]
    have hinstr := (instruction_importUnit (w := w) host hop hst).trans (beginImport_then_none ..)
    rw [← hpop] at hinstr
    cases hloader : host.loader with
    | none =>
      simp only [hloader] at hinstr
      exact .refused hinstr
    | some load =>
      simp only [hloader] at hinstr
      split at hinstr
      · exact .refused hinstr
      · split at hinstr
        · exact .refused hinstr
        · exact .begun (step_of_ok hinstr) (Nat.lt_succ_self _) rfl rfl

end

/-! ## Transparency -/

/-- Imports in every session whose loader gives compiled programs only and whose natives bring no
functions, bound methods, classes or instances.

An import finds its path on the stack. It is refused, with the thread behind the import and
otherwise as it was, or a module begins to run. Let a thread `x` have gone through a state `t`, and
since then through states `us` with more imports in progress. Then `t` was at an import. What the
importer had is below what `x` has, and a handler that is in force was armed in one of the states
`us`. If the next step fails and the failure is caught within the module, then by such a handler;
any other failure is that of the import, raised where the importer stands behind its import, with
all that it had. So it stands if the step ends the module. -/
theorem import_transparent (host : Host) (hinert : host.Inert) (hload : host.LoadsCompiled) (P : Pool)
    (h : Reachable host Compiled P) (x : Thread) (xs : List Thread) (work : Work)
    (hx : ⟨x, xs, work, .running⟩ ∈ P.cells) :
    (OpAt x.image.chunk x.ip .importUnit →
      ∃ (st : Array Value) (path : Value), x.stack = st.push path ∧
        ImportStep host x path P.world) ∧
    ∀ us t past, xs = us ++ t :: past → (∀ y ∈ x :: us, t.ModuleAbove y) →
      OpAt t.image.chunk t.ip .importUnit ∧
      ∃ (st : Array Value) (path : Value), t.stack = st.push path ∧
        st.toList <+: x.stack.toList ∧ t.frames.toList <+: x.frames.toList ∧
        t.windows <:+ x.windows ∧
        (∀ handler, x.handler = some handler → ∃ y ls, Armed (x :: xs) handler y ls ∧ y ∈ us) ∧
        ModuleStep host t path us (x :: xs) x P.world := by
  obtain ⟨R, hR, hinert', hload', hgood⟩ := good_of_reachable hinert hload h
  obtain ⟨hhistory, Ls, htracked, -⟩ := (hgood.cells _ hx).tracked
  refine ⟨htracked.runs.importStep hR hinert' hload' hgood.world, ?_⟩
  rintro us t past rfl habove
  obtain ⟨L, path, hL, hlive, hlower, hstep⟩ :=
    htracked.moduleStep hR hinert' hload' hgood.world hhistory habove
  have hwindows := hlive.windows
  rw [hL.windows] at hwindows
  refine ⟨hL.op, L.lower, path, hL.stack, hlower, hL.frames ▸ hlive.frames,
    (List.suffix_cons ..).trans hwindows, fun handler hhandler => ?_, hstep⟩
  obtain ⟨-, -, y, ls, harmed, hy⟩ := hhistory.sound_state.nested.segment.armed handler hhandler
  refine ⟨y, ls, harmed, harmed.mem_of_moduleAbove ?_⟩
  rw [Thread.ModuleAbove, hy]
  exact habove x List.mem_cons_self

/-- A loader for which every path is that of a program that fails. -/
def loadsUndefinedName : Loader := fun _ _ =>
  match compile undefinedName "m" with
  | .ok c => .ok c
  | .error _ => .error "no such module"

/-- A session with that loader. -/
def undefinedNameHost : Host := Session.hostWith {} (some loadsUndefinedName)

theorem loadsCompiled_undefinedNameHost : undefinedNameHost.LoadsCompiled := by
  intro load hload files path chunk hchunk
  cases hload
  unfold loadsUndefinedName at hchunk
  split at hchunk
  · next c hc =>
    cases hchunk
    exact ⟨undefinedName, trivial, "m", hc⟩
  · cases hchunk

/-- A program that imports such a module where a handler is in force: `try: import "m" catch e:
.` -/
def importsUnderTry : Program where
  stmts := [.tryCatch ⟨[.importUnit (.str "m" ⟨12, 15⟩) ⟨5, 15⟩], ⟨5, 15⟩⟩ ⟨"e", ⟨22, 23⟩⟩
    ⟨[], ⟨25, 25⟩⟩ ⟨0, 26⟩]
  span := ⟨0, 26⟩

/-- Whether the last state before was at an import and this one is in a module that fails. -/
def failsInModule (s : State) : List Thread → Bool
  | t :: _ =>
    decide (t.windows.length < s.thread.windows.length) &&
    match instruction undefinedNameHost s with
    | .error _ _ => true
    | .ok _ _ => false
  | [] => false

/-- The module fails, and so does the import. -/
theorem import_transparent_importsUnderTry : ∃ (P : Pool) (x t : Thread) (past : List Thread)
    (work : Work) (path : Value) (e : RuntimeError) (s : State),
    Reachable undefinedNameHost Compiled P ∧ ⟨x, t :: past, work, .running⟩ ∈ P.cells ∧
      t.ModuleAbove x ∧ instruction undefinedNameHost ⟨x, P.world⟩ = .error e s ∧
      step undefinedNameHost ⟨x, P.world⟩ = raised
        (.importFailed path.text (arrived (t.importsWithin x) e).message)
        ⟨t.importer s.thread, s.world⟩ := by
  obtain ⟨chunk, hc, hcheck⟩ := exists_compiled importsUnderTry "main"
    (fun c => match trail undefinedNameHost 3 ⟨Thread.start {} c, {}⟩ [] with
      | some (s, past) => failsInModule s past
      | none => false) (by decide +kernel)
  cases hr : trail undefinedNameHost 3 ⟨Thread.start {} chunk, {}⟩ [] with
  | none =>
    rw [hr] at hcheck
    cases hcheck
  | some r =>
    obtain ⟨⟨x, w⟩, past⟩ := r
    rw [hr] at hcheck
    have hbegin : Reachable undefinedNameHost Compiled
        ⟨[] ++ ⟨Thread.start {} chunk, [], .main (some importsUnderTry), .running⟩ :: [], {}⟩ :=
      .next (.initial (t := {}) (w := {}) nofun rfl rfl rfl) (.begin hc nofun)
    have hP := reachable_trail hr hbegin
    match past, hcheck, hP with
    | t :: past, hcheck, hP =>
      cases hinstr : instruction undefinedNameHost ⟨x, w⟩ with
      | ok v s => simp [failsInModule, hinstr] at hcheck
      | error e s =>
        have habove : t.ModuleAbove x := by
          simpa [failsInModule, hinstr, Thread.ModuleAbove] using hcheck
        obtain ⟨-, hmodule⟩ := import_transparent undefinedNameHost
          (Natives.inert_of_callForHost rfl) loadsCompiled_undefinedNameHost _ hP x _ _
          List.mem_cons_self
        obtain ⟨-, st, path, -, -, -, -, -, hstep⟩ := hmodule [] t past rfl (by simpa using habove)
        cases hstep with
        | goes ok => exact absurd hinstr (ok e s)
        | caught error step armed within => cases within
        | ends ok => cases ok.symm.trans hinstr
        | fails error step =>
          cases error.symm.trans hinstr
          exact ⟨_, x, t, past, _, path, e, s, hP, List.mem_cons_self, habove, hinstr, step⟩

end DotScript.Machine
