import DotScript.Proofs.Machine.History

/-!
# Frames, handlers and imports

Nothing is assumed of the code. Each run, of a chunk or of an imported module, has the frames from
a certain depth on; those below belong to the importer. A handler never reaches below the frames of
its run, nor above the frame in which it is saved.

* `Segment`: the frames of one run and the handlers in them;
* `Nested`: all runs of a thread, each import upon its importer;
* `Recovered`: where a failure has been caught;
* `History.nested`: the handlers of a thread are nested, and all were armed in its history.

Main statement: `History.sound`.
-/

namespace DotScript.Machine

open DotScript.Bytecode DotScript.Compile

/-! ## Runs upon runs -/

/-- Where the frames of the innermost of some runs begin. -/
def floorOf : List Window → Nat
  | [] => 0
  | w :: _ => w.depth

theorem floor_eq (t : Thread) : t.floor = floorOf t.windows := by
  unfold Thread.floor floorOf
  split <;> simp_all

/-- The frames of a run, which begin at `lo`, and its handlers. `Q` is known of all handlers and the
imports in progress when they were armed. -/
structure Segment (Q : Handler → List Window → Prop) (lo : Nat) (frames : Array Frame)
    (handler : Option Handler) (windows : List Window) : Prop where
  le : lo ≤ frames.size
  armed : ∀ h, handler = some h → lo ≤ h.depth ∧ h.depth ≤ frames.size ∧ Q h windows
  saved : ∀ i f h, lo ≤ i → frames[i]? = some f → f.handler = some h →
    lo ≤ h.depth ∧ h.depth ≤ i ∧ Q h windows

/-- The runs of a thread: the innermost one, and below it that of the importer. -/
def Nested (Q : Handler → List Window → Prop) (frames : Array Frame) (handler : Option Handler) :
    List Window → Prop
  | [] => Segment Q 0 frames handler []
  | w :: outer => Segment Q w.depth frames handler (w :: outer) ∧
      Nested Q (frames.take w.depth) w.handler outer

section
variable {Q Q' : Handler → List Window → Prop} {frames : Array Frame} {handler : Option Handler}
  {windows : List Window} {lo : Nat}

namespace Nested

/-- The innermost run. -/
theorem segment (h : Nested Q frames handler windows) :
    Segment Q (floorOf windows) frames handler windows := by
  cases windows with
  | nil => exact h
  | cons w outer => exact h.1

/-- The frames and the handler of the innermost run may change. -/
theorem replace {frames' : Array Frame} {handler' : Option Handler}
    (h : Nested Q frames handler windows)
    (hsame : frames'.take (floorOf windows) = frames.take (floorOf windows))
    (hsegment : Segment Q (floorOf windows) frames' handler' windows) :
    Nested Q frames' handler' windows := by
  cases windows with
  | nil => exact hsegment
  | cons w outer => exact ⟨hsegment, hsame ▸ h.2⟩

theorem disarm (h : Nested Q frames handler windows) : Nested Q frames none windows :=
  h.replace rfl ⟨h.segment.le, nofun, h.segment.saved⟩

theorem arm {new : Handler} (h : Nested Q frames handler windows) (hdepth : new.depth = frames.size)
    (hnew : Q new windows) : Nested Q frames (some new) windows := by
  refine h.replace rfl ⟨h.segment.le, fun h' heq => ?_, h.segment.saved⟩
  cases heq
  exact ⟨hdepth ▸ h.segment.le, Nat.le_of_eq hdepth, hnew⟩

/-- A call saves the handler in its frame. -/
theorem enter {f : Frame} (h : Nested Q frames handler windows) (hf : f.handler = handler) :
    Nested Q (frames.push f) handler windows := by
  have hseg := h.segment
  refine h.replace (take_push frames f hseg.le)
    ⟨by rw [Array.size_push]; exact Nat.le_succ_of_le hseg.le, fun h' heq => ?_,
      fun i g h' hi hg heq => ?_⟩
  · obtain ⟨hlo, hhi, hQ⟩ := hseg.armed h' heq
    exact ⟨hlo, by rw [Array.size_push]; exact Nat.le_succ_of_le hhi, hQ⟩
  · rw [Array.getElem?_push] at hg
    split at hg
    · next hsize =>
      cases hg
      obtain ⟨hlo, hhi, hQ⟩ := hseg.armed h' (hf.symm.trans heq)
      exact ⟨hlo, hsize ▸ hhi, hQ⟩
    · exact hseg.saved i g h' hi hg heq

/-- A return brings back the handler of the caller. -/
theorem leave {fs : Array Frame} {f : Frame} (h : Nested Q (fs.push f) handler windows)
    (hfloor : floorOf windows ≤ fs.size) : Nested Q fs f.handler windows := by
  have hseg := h.segment
  refine h.replace (take_push fs f hfloor).symm ⟨hfloor, fun h' heq => ?_, fun i g h' hi hg heq => ?_⟩
  · exact hseg.saved fs.size f h' hfloor Array.getElem?_push_size heq
  · have hlt : i < fs.size := (Array.getElem?_eq_some_iff.mp hg).1
    refine hseg.saved i g h' hi ?_ heq
    rw [Array.getElem?_push_lt hlt, ← hg, Array.getElem?_eq_getElem hlt]

/-- An import begins a run of its own. -/
theorem load {w : Window} (h : Nested Q frames handler windows) (hdepth : w.depth = frames.size)
    (hhandler : w.handler = handler) : Nested Q frames none (w :: windows) := by
  refine ⟨⟨Nat.le_of_eq hdepth, nofun, fun i f h' hi hf _ => ?_⟩, ?_⟩
  · have hlt : i < frames.size := (Array.getElem?_eq_some_iff.mp hf).1
    omega
  · rw [hdepth, hhandler]
    simpa using h

/-- Unwinding to the depth of the handler in force. -/
theorem unwind {caught : Handler} (h : Nested Q frames (some caught) windows) :
    Nested Q (frames.take caught.depth) none windows := by
  have hseg := h.segment
  obtain ⟨hlo, hhi, -⟩ := hseg.armed caught rfl
  have hsize : (frames.take caught.depth).size = caught.depth := by
    simp [Nat.min_eq_left hhi]
  refine h.replace (take_take frames hlo) ⟨by rw [hsize]; exact hlo, nofun, fun i f h' hi hf heq => ?_⟩
  have hlt : i < caught.depth := hsize ▸ (Array.getElem?_eq_some_iff.mp hf).1
  rw [getElem?_take frames hlt] at hf
  exact hseg.saved i f h' hi hf heq

end Nested

/-- What is known of handlers may change. -/
theorem Segment.map (h : Segment Q lo frames handler windows)
    (hQ : ∀ h', h'.depth ≤ frames.size → Kept frames handler windows h' → Q h' windows →
      Q' h' windows) : Segment Q' lo frames handler windows := by
  refine ⟨h.le, fun h' heq => ?_, fun i f h' hi hf heq => ?_⟩
  · obtain ⟨hlo, hhi, hknown⟩ := h.armed h' heq
    exact ⟨hlo, hhi, hQ h' hhi (.inl heq) hknown⟩
  · obtain ⟨hlo, hhi, hknown⟩ := h.saved i f h' hi hf heq
    have hlt : i < frames.size := (Array.getElem?_eq_some_iff.mp hf).1
    exact ⟨hlo, hhi, hQ h' (by omega) (.inr (.inl ⟨f, Array.mem_of_getElem? hf, heq⟩)) hknown⟩

theorem size_take_le {α : Type} (xs : Array α) (n : Nat) : (xs.take n).size ≤ xs.size := by
  rw [Array.take_eq_extract, Array.size_extract]
  omega

/-- What the importer holds is held. -/
theorem Kept.of_take {n : Nat} {w : Window} {h : Handler}
    (hk : Kept (frames.take n) w.handler windows h) : Kept frames handler (w :: windows) h := by
  rcases hk with heq | ⟨f, hf, heq⟩ | ⟨w', hw', heq⟩
  · exact .inr (.inr ⟨w, List.mem_cons_self, heq⟩)
  · exact .inr (.inl ⟨f, Array.mem_def.mpr ((take_prefix_self frames n).subset
      (Array.mem_def.mp hf)), heq⟩)
  · exact .inr (.inr ⟨w', List.mem_cons_of_mem _ hw', heq⟩)

theorem Nested.map (h : Nested Q frames handler windows)
    (hQ : ∀ h' ws, ws <:+ windows → h'.depth ≤ frames.size → Kept frames handler windows h' →
      Q h' ws → Q' h' ws) : Nested Q' frames handler windows := by
  induction windows generalizing frames handler with
  | nil => exact Segment.map h fun h' => hQ h' [] (List.suffix_refl _)
  | cons w outer ih =>
    refine ⟨h.1.map fun h' => hQ h' (w :: outer) (List.suffix_refl _),
      ih h.2 fun h' ws hws hd hk => ?_⟩
    exact hQ h' ws (hws.trans (List.suffix_cons ..)) (Nat.le_trans hd (size_take_le ..)) hk.of_take

/-- What holds of the frames of the innermost run holds of those of all runs in progress. -/
theorem Nested.base {b : Nat} (h : Nested Q frames handler windows)
    (hb : b = 0 ∨ ∃ w ∈ windows, w.depth = b) :
    b ≤ floorOf windows ∧ ∀ i f h', b ≤ i → frames[i]? = some f → f.handler = some h' →
      b ≤ h'.depth ∧ h'.depth ≤ i := by
  induction windows generalizing frames handler with
  | nil =>
    obtain rfl : b = 0 := hb.resolve_right fun ⟨w, hw, _⟩ => List.not_mem_nil hw
    refine ⟨Nat.le_refl _, fun i f h' hi hf heq => ?_⟩
    obtain ⟨hlo, hhi, -⟩ := h.segment.saved i f h' hi hf heq
    exact ⟨hlo, hhi⟩
  | cons w outer ih =>
    by_cases hw : b = w.depth
    · subst hw
      refine ⟨Nat.le_refl _, fun i f h' hi hf heq => ?_⟩
      obtain ⟨hlo, hhi, -⟩ := h.segment.saved i f h' hi hf heq
      exact ⟨hlo, hhi⟩
    · have hb' : b = 0 ∨ ∃ w ∈ outer, w.depth = b := hb.imp_right fun ⟨v, hv, hvb⟩ =>
        ⟨v, (List.mem_cons.mp hv).resolve_left fun h => hw (h ▸ hvb.symm), hvb⟩
      obtain ⟨hle, hsaved⟩ := ih h.2 hb'
      have houter : floorOf outer ≤ (frames.take w.depth).size := h.2.segment.le
      have hsize : (frames.take w.depth).size ≤ w.depth := by
        rw [Array.take_eq_extract, Array.size_extract]
        omega
      have hbw : b ≤ w.depth := by omega
      refine ⟨hbw, fun i f h' hi hf heq => ?_⟩
      by_cases hiw : w.depth ≤ i
      · obtain ⟨hlo, hhi, -⟩ := h.segment.saved i f h' hiw hf heq
        exact ⟨Nat.le_trans hbw hlo, hhi⟩
      · exact hsaved i f h' hi (by rw [getElem?_take frames (by omega), hf]) heq

/-! ## Caught failures -/

/-- A failure of `t` goes to the handler `h` of `t` or of one of its importers, and `t'` goes on
there. -/
structure Recovered (Q : Handler → List Window → Prop) (t t' : Thread) (h : Handler) : Prop where
  kept : t.Keeps h
  known : Q h t'.windows
  windows : t'.windows <:+ t.windows
  frames : t'.frames = t.frames.take h.depth
  floor : floorOf t'.windows ≤ h.depth
  depth : h.depth ≤ t.frames.size
  image : t'.image = h.image
  base : t'.base = h.base
  ip : t'.ip = h.address
  handler : t'.handler = none
  imports : t'.imports = t'.windows.length
  nested : Nested Q t'.frames t'.handler t'.windows

theorem Nested.caught {t : Thread} {h : Handler} (hn : Nested Q t.frames t.handler t.windows)
    (himports : t.imports = t.windows.length) (hh : t.handler = some h) (e : RuntimeError) :
    Recovered Q t (t.enterHandler h e) h := by
  rw [hh] at hn
  obtain ⟨hlo, hhi, hknown⟩ := hn.segment.armed h rfl
  exact ⟨.inl hh, hknown, List.suffix_refl _, rfl, hlo, hhi, rfl, rfl, rfl, rfl, himports, hn.unwind⟩

/-- A failure that is caught is caught by a handler of the thread or of one of its importers. -/
theorem Nested.raise {t t' : Thread} {ws : List Window} (hws : t.windows = ws)
    (hn : Nested Q t.frames t.handler t.windows) (himports : t.imports = t.windows.length)
    {e : RuntimeError} (hr : t.raise ws e = .ok t') : ∃ h, Recovered Q t t' h := by
  induction ws generalizing t e with
  | nil =>
    cases hh : t.handler with
    | none =>
      simp only [Thread.raise, hh] at hr
      cases hr
    | some h =>
      simp only [Thread.raise, hh] at hr
      cases hr
      exact ⟨h, hn.caught himports hh e⟩
  | cons w outer ih =>
    cases hh : t.handler with
    | some h =>
      simp only [Thread.raise, hh] at hr
      cases hr
      exact ⟨h, hn.caught himports hh e⟩
    | none =>
      simp only [Thread.raise, hh] at hr
      rw [hws] at hn himports
      have himports' : (t.closeWindow w outer).imports = outer.length := by
        simp only [Thread.closeWindow, himports, List.length_cons, Nat.add_sub_cancel]
      obtain ⟨h, hc⟩ := ih rfl hn.2 himports' hr
      have hkept : t.Keeps h := by
        unfold Thread.Keeps
        rw [hws]
        exact hc.kept.of_take
      have hdepth : h.depth ≤ min w.depth t.frames.size := by
        simpa [Thread.closeWindow] using hc.depth
      have hframes : t'.frames = t.frames.take h.depth :=
        hc.frames.trans (take_take t.frames (by omega))
      exact ⟨h, hkept, hc.known, hws ▸ hc.windows.trans (List.suffix_cons ..), hframes, hc.floor,
        by omega, hc.image, hc.base, hc.ip, hc.handler, hc.imports, hc.nested⟩

/-- A failure that nothing catches closes all imports. -/
theorem raise_error {t t' : Thread} {ws : List Window} {e e' : RuntimeError} (hws : t.windows = ws)
    (himports : t.imports = ws.length) (hr : t.raise ws e = .error (e', t')) :
    t'.windows = [] ∧ t'.imports = 0 := by
  induction ws generalizing t e with
  | nil =>
    cases hh : t.handler with
    | none =>
      simp only [Thread.raise, hh] at hr
      cases hr
      exact ⟨hws, himports⟩
    | some h =>
      simp only [Thread.raise, hh] at hr
      cases hr
  | cons w outer ih =>
    cases hh : t.handler with
    | some h =>
      simp only [Thread.raise, hh] at hr
      cases hr
    | none =>
      simp only [Thread.raise, hh] at hr
      refine ih rfl ?_ hr
      simp only [Thread.closeWindow, himports, List.length_cons, Nat.add_sub_cancel]

end

/-! ## Histories -/

/-- The ways in which a step goes on. -/
inductive Moved (host : Host) (t t' : Thread) : Prop
  | ok {s'} (shift : Shift host t (.ok none s')) (thread : t' = s'.thread)
  | closed {s' v w outer} (shift : Shift host t (.ok (some v) s'))
    (windows : s'.thread.windows = w :: outer) (thread : t' = s'.thread.closeWindow w outer)
  | caught {s' e} (shift : Shift host t (.error e s'))
    (raise : s'.thread.raise s'.thread.windows e = .ok t')

section
variable {host : Host} {t t' : Thread} {past : List Thread}

theorem Thread.Moves.moved (h : t.Moves host t') : Moved host t t' := by
  obtain ⟨w, w', hstep⟩ := h
  have hshift := instruction_shift host t w
  simp only [step] at hstep
  cases hr : instruction host ⟨t, w⟩ with
  | ok v s' =>
    rw [hr] at hshift hstep
    cases v with
    | none =>
      cases hstep
      exact .ok hshift rfl
    | some v =>
      cases hw : s'.thread.windows with
      | nil =>
        simp only [hw] at hstep
        cases hstep
      | cons w outer =>
        simp only [hw] at hstep
        cases hstep
        exact .closed hshift hw rfl
  | error e s' =>
    rw [hr] at hshift hstep
    cases hraise : s'.thread.raise s'.thread.windows e with
    | ok t' =>
      simp only [hraise] at hstep
      cases hstep
      exact .caught hshift hraise
    | error failure =>
      simp only [hraise] at hstep
      cases hstep

/-- A handler was armed in a history, when these imports were in progress. -/
def ArmedIn (ts : List Thread) (h : Handler) (windows : List Window) : Prop :=
  ∃ u ls, Armed ts h u ls ∧ u.windows = windows

/-- Handlers that are kept stay armed. -/
theorem Nested.keep {handler : Option Handler}
    (h : Nested (ArmedIn (t :: past)) t'.frames handler t'.windows)
    (hhandler : ∀ h', handler = some h' → t'.handler = some h')
    (hframes : t.frames.toList <+: t'.frames.toList ∨ t'.frames.toList <+: t.frames.toList) :
    Nested (ArmedIn (t' :: t :: past)) t'.frames handler t'.windows := by
  refine h.map fun h ws hws hdepth hkept ⟨u, ls, harmed, hu⟩ => ?_
  have hsize : u.frames.size ≤ t'.frames.size := by
    obtain ⟨a, rfl⟩ := harmed.handler_eq
    exact hdepth
  have hlive : u.frames.toList <+: t'.frames.toList := by
    rcases hframes with hframes | hframes
    · exact harmed.liveIn.frames.trans hframes
    · exact List.prefix_of_prefix_length_le harmed.liveIn.frames hframes hsize
  exact ⟨u, _, harmed.keep ⟨hlive, hu ▸ hws⟩ (hkept.imp_left (hhandler h)), hu⟩

/-- A state of a thread that respects the limits, whose handlers are nested and armed in its
history. -/
structure Thread.Sound (limits : Limits) (t : Thread) (past : List Thread) : Prop where
  frames : t.frames.size ≤ limits.frames
  imports : t.imports = t.windows.length
  imports_le : t.imports ≤ limits.imports
  nested : Nested (ArmedIn (t :: past)) t.frames t.handler t.windows

theorem Thread.Fresh.sound_nil (h : t.Fresh) (limits : Limits) : t.Sound limits [] where
  frames := by simp [h.frames]
  imports := by simp [h.imports, h.windows]
  imports_le := by simp [h.imports]
  nested := by
    rw [h.windows, h.frames, h.handler]
    exact ⟨Nat.zero_le _, nofun, nofun⟩

/-- The handlers that stay after a step stay armed. -/
theorem Thread.Sound.of_control {c : Control} (hc : t'.control = c)
    (hn : Nested (ArmedIn (t :: past)) c.frames c.handler c.windows)
    (hframes : t.frames.toList <+: c.frames.toList ∨ c.frames.toList <+: t.frames.toList)
    (hsize : c.frames.size ≤ host.limits.frames) (himports : c.imports = c.windows.length)
    (hle : c.imports ≤ host.limits.imports) : t'.Sound host.limits (t :: past) := by
  subst hc
  exact ⟨hsize, himports, hle, hn.keep (fun _ h => h) hframes⟩

/-- An instruction that does not fail. -/
theorem Thread.Sound.ok {s' : State} (h : t.Sound host.limits past)
    (hs : Shift host t (.ok none s')) : s'.thread.Sound host.limits (t :: past) := by
  obtain ⟨t', w⟩ := s'
  cases hs with
  | stay control =>
    exact .of_control control h.nested (.inl (List.prefix_refl _)) h.frames h.imports h.imports_le
  | @arm _ a op stack control =>
    simp only [Thread.control, Control.mk.injEq] at control
    obtain ⟨hf, hw, hi, -, -, hh⟩ := control
    have hold : Nested (ArmedIn (t :: past)) t'.frames none t'.windows := hf ▸ hw ▸ h.nested.disarm
    have hnew : ArmedIn (t' :: t :: past) ⟨a, t.image, t.base, t.frames.size, t.stack.size⟩
        t'.windows := ⟨t, _, .arm op hf hw hh, hw.symm⟩
    have hn := (hold.keep nofun (.inl (hf ▸ List.prefix_refl _))).arm
      (congrArg Array.size hf.symm) hnew
    exact ⟨hf ▸ h.frames, hi.trans (hw ▸ h.imports), hi ▸ h.imports_le, hh ▸ hn⟩
  | disarm control =>
    exact .of_control control h.nested.disarm (.inl (List.prefix_refl _)) h.frames h.imports
      h.imports_le
  | @enter _ argc slot image result op slot_eq room below control =>
    refine .of_control control (h.nested.enter rfl) (.inl (prefix_push ..)) ?_ h.imports h.imports_le
    simp only [Array.size_push]
    exact room
  | @leave _ fs frame n v frames floor ip height stack control =>
    have hn := h.nested
    have hsize := h.frames
    rw [frames] at hn hsize
    rw [floor_eq] at floor
    refine .of_control control (hn.leave floor) (.inr ?_) ?_ h.imports h.imports_le
    · rw [frames]
      exact prefix_push ..
    · rw [Array.size_push] at hsize
      exact Nat.le_of_succ_le hsize
  | @load _ path image op room stack control =>
    refine .of_control control (h.nested.load rfl rfl) (.inl (List.prefix_refl _)) h.frames ?_ room
    simp only [List.length_cons, h.imports]

/-- The end of a module. -/
theorem Thread.Sound.closed {s' : State} {v : Value} {w : Window} {outer : List Window}
    (h : t.Sound host.limits past) (hs : Shift host t (.ok (some v) s'))
    (hw : s'.thread.windows = w :: outer) :
    (s'.thread.closeWindow w outer).Sound host.limits (t :: past) := by
  obtain ⟨t', world⟩ := s'
  cases hs with
  | finish floor control =>
    simp only [Thread.control, Control.mk.injEq] at control
    obtain ⟨hf, hws, hi, -, -, -⟩ := control
    have hwindows : t.windows = w :: outer := hws.symm.trans hw
    have hn := h.nested
    have himports := h.imports
    have hle := h.imports_le
    rw [hwindows] at hn himports
    rw [List.length_cons] at himports
    have hc : (t'.closeWindow w outer).control =
        ⟨t.frames.take w.depth, outer, t.imports - 1, w.image, w.base, w.handler⟩ := by
      simp only [Thread.control, Thread.closeWindow, hf, hi]
    refine .of_control hc hn.2 (.inr (take_prefix_self ..))
      (Nat.le_trans (size_take_le ..) h.frames) ?_ ?_
    all_goals
      simp only
      omega

/-- What a failing instruction leaves. -/
theorem Thread.Sound.failed {s' : State} {e : RuntimeError} (h : t.Sound host.limits past)
    (hs : Shift host t (.error e s')) :
    Nested (ArmedIn (t :: past)) s'.thread.frames s'.thread.handler s'.thread.windows ∧
      s'.thread.frames.toList <+: t.frames.toList ∧ s'.thread.windows = t.windows ∧
      s'.thread.imports = t.imports := by
  obtain ⟨t', world⟩ := s'
  cases hs with
  | fail control =>
    simp only [Thread.control, Control.mk.injEq] at control
    obtain ⟨hf, hw, hi, -, -, hh⟩ := control
    exact ⟨hf ▸ hw ▸ hh ▸ h.nested, hf ▸ List.prefix_refl _, hw, hi⟩
  | @overflow _ fs frame frames floor control =>
    simp only [Thread.control, Control.mk.injEq] at control
    obtain ⟨hf, hw, hi, -, -, hh⟩ := control
    have hn := h.nested
    rw [frames] at hn
    rw [floor_eq] at floor
    refine ⟨?_, ?_, hw, hi⟩
    · simp only [hf, hw, hh]
      exact hn.leave floor
    · simp only [hf, frames]
      exact prefix_push ..

/-- A failure that is caught goes to a handler that was armed in the history. -/
theorem Thread.Sound.recovered {s' : State} {e : RuntimeError} (h : t.Sound host.limits past)
    (hs : Shift host t (.error e s')) (hr : s'.thread.raise s'.thread.windows e = .ok t') :
    ∃ caught, Recovered (ArmedIn (t :: past)) s'.thread t' caught := by
  obtain ⟨hn, -, hw, hi⟩ := h.failed hs
  exact Nested.raise rfl hn (hi.trans (hw ▸ h.imports)) hr

theorem Thread.Sound.next (h : t.Sound host.limits past) (hm : t.Moves host t') :
    t'.Sound host.limits (t :: past) := by
  cases hm.moved with
  | ok shift thread => exact thread ▸ h.ok shift
  | closed shift windows thread => exact thread ▸ h.closed shift windows
  | @caught s' e shift raise =>
    obtain ⟨caught, hc⟩ := h.recovered shift raise
    obtain ⟨-, hframes, hw, -⟩ := h.failed shift
    have hprefix : t'.frames.toList <+: t.frames.toList := by
      rw [hc.frames]
      exact (take_prefix_self ..).trans hframes
    have hsize := hprefix.length_le
    simp only [Array.length_toList] at hsize
    have hwindows := (hw ▸ hc.windows).length_le
    have himports := h.imports
    have hle := h.imports_le
    refine .of_control rfl hc.nested (.inr hprefix) (Nat.le_trans hsize h.frames) hc.imports ?_
    have := hc.imports
    simp only [Thread.control]
    omega

/-- All states of a history are sound. -/
theorem History.sound_state (h : History host (t :: past)) : t.Sound host.limits past := by
  generalize hts : t :: past = ts at h
  induction h generalizing t past with
  | begin fresh =>
    cases hts
    exact fresh.sound_nil _
  | next before moves ih =>
    cases hts
    exact (ih rfl).next moves

/-- A depth of the frames at which a run in progress has begun: that of the chunk, or that of a
module. -/
def Thread.IsBase (t : Thread) (b : Nat) : Prop := b = 0 ∨ ∃ w ∈ t.windows, w.depth = b

/-- Frames and handlers of arbitrary code. In every state of a thread the frames of each run in
progress begin at its base and keep to the limit, and imports are counted and keep to theirs. The
handler in force lies between the base and the frames there are, was armed in this history, and its
frames are still those of then; a handler saved in a frame lies between the base and that frame. A
failure that is caught goes on in the activation that armed the handler, and the frames of importers
stay. -/
theorem History.sound (host : Host) (t : Thread) (past : List Thread)
    (h : History host (t :: past)) :
    (∀ b, t.IsBase b → b ≤ t.frames.size ∧
      (∀ caught, t.handler = some caught → b ≤ caught.depth ∧ caught.depth ≤ t.frames.size) ∧
      ∀ i f saved, b ≤ i → t.frames[i]? = some f → f.handler = some saved →
        b ≤ saved.depth ∧ saved.depth ≤ i) ∧
    t.frames.size ≤ host.limits.frames ∧
    t.imports = t.windows.length ∧ t.imports ≤ host.limits.imports ∧
    (∀ caught, t.handler = some caught →
      ∃ u ls, Armed (t :: past) caught u ls ∧ t.frames.take caught.depth = u.frames) ∧
    ∀ w e s' t', instruction host ⟨t, w⟩ = .error e s' →
      s'.thread.raise s'.thread.windows e = .ok t' →
      ∃ caught u ls, Armed (t :: past) caught u ls ∧ t'.ip = caught.address ∧ t'.image = u.image ∧
        t'.base = u.base ∧ t'.frames = u.frames ∧ t'.windows = u.windows ∧
        t'.floor ≤ t'.frames.size ∧ t'.frames.take t'.floor = t.frames.take t'.floor := by
  have hsound := h.sound_state
  have hn := hsound.nested
  refine ⟨fun b hb => ?_, hsound.frames, hsound.imports, hsound.imports_le, fun caught heq => ?_,
    fun w e s' t' hr hraise => ?_⟩
  · obtain ⟨hle, hsaved⟩ := hn.base hb
    refine ⟨Nat.le_trans hle hn.segment.le, fun caught heq => ?_, hsaved⟩
    obtain ⟨hlo, hhi, -⟩ := hn.segment.armed caught heq
    exact ⟨Nat.le_trans hle hlo, hhi⟩
  · obtain ⟨-, -, u, ls, harmed, -⟩ := hn.segment.armed caught heq
    refine ⟨u, ls, harmed, ?_⟩
    obtain ⟨a, rfl⟩ := harmed.handler_eq
    exact prefix_take_size harmed.liveIn.frames
  · have hshift := instruction_shift host t w
    rw [hr] at hshift
    obtain ⟨caught, hc⟩ := hsound.recovered hshift hraise
    obtain ⟨-, hframes, -, -⟩ := hsound.failed hshift
    obtain ⟨u, ls, harmed, hwindows⟩ := hc.known
    obtain ⟨a, rfl⟩ := harmed.handler_eq
    have hdepth : u.frames.size ≤ s'.thread.frames.size := hc.depth
    have hu : t'.frames = u.frames := by
      rw [hc.frames, ← prefix_take hframes hdepth]
      exact prefix_take_size harmed.liveIn.frames
    have hfloor : t'.floor ≤ t'.frames.size := by
      rw [floor_eq, hu]
      exact hc.floor
    refine ⟨_, u, ls, harmed, hc.ip, hc.image, hc.base, hu, hwindows.symm, hfloor, ?_⟩
    exact (prefix_take (hu ▸ harmed.liveIn.frames) hfloor).symm

end

/-- Code that arms a handler and then adds two values that are not there. -/
def addUnderTry : Chunk where
  name := "addUnderTry"
  code := #[Opcode.tryEnter.encode, 1, Opcode.add.encode, Opcode.tryExit.encode]

/-- The failed addition goes on in the activation that armed the handler. -/
theorem History.sound_addUnderTry :
    let host : Host := { call := fun _ _ w => (.ok .null, w) }
    ∃ t t' s', History host [t, Thread.start {} addUnderTry] ∧ t.handler.isSome = true ∧
      instruction host ⟨t, {}⟩ = .error .stackUnderflow s' ∧
      s'.thread.raise s'.thread.windows .stackUnderflow = .ok t' ∧
      ∃ caught u ls, Armed [t, Thread.start {} addUnderTry] caught u ls ∧ t'.ip = caught.address ∧
        t'.image = u.image ∧ t'.base = u.base ∧ t'.frames = u.frames ∧ t'.windows = u.windows := by
  intro host
  have hbegin : History host [Thread.start {} addUnderTry] :=
    .begin (Thread.Fresh.start (t := {}) rfl rfl addUnderTry)
  have hhistory := hbegin.next ⟨{}, {}, rfl⟩
  refine ⟨_, _, _, hhistory, rfl, rfl, rfl, ?_⟩
  obtain ⟨-, -, -, -, -, hcaught⟩ := History.sound host _ _ hhistory
  obtain ⟨caught, u, ls, harmed, hip, himage, hbase, hframes, hwindows, -⟩ :=
    hcaught {} .stackUnderflow _ _ rfl rfl
  exact ⟨caught, u, ls, harmed, hip, himage, hbase, hframes, hwindows⟩

end DotScript.Machine
