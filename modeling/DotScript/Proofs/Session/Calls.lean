import DotScript.Proofs.Session.Within

/-!
# Calls leave nothing behind

Whatever a callee does, when a call is done its caller finds what was below the callee, and one
value. A program that ends leaves on the stack the messages of the failures whose handlers it is
in.

* `instruction_call_cases`: what a call comes to at once;
* `Tracked.returned`: the return from an activation that a call has begun.

Main statement: `call_balanced`.
-/

namespace DotScript.Machine

open DotScript.Bytecode DotScript.Compile DotScript.Syntax

/-! ## Calls without a frame -/

section
variable {host : Host} {t : Thread} {w : World} {st : Array Value} {r : Option Value} {s : State}

theorem ok_of_pushed {v : Value} (h : pushed host v t w = .ok r s) :
    r = none ∧ s.thread = { t with stack := t.stack.push v } := by
  unfold pushed at h
  split at h
  · cases h
  · cases h
    exact ⟨rfl, rfl⟩

theorem ok_of_entered {f : Function} {slots : List Value} {result : Option Value}
    (h : entered host f slots result st t w = .ok r s) :
    r = none ∧ s.thread.frames.size = t.frames.size + 1 := by
  unfold entered at h
  simp only at h
  split at h
  · cases h
  · cases h
    exact ⟨rfl, Array.size_push _⟩

theorem ok_of_enteredWith {f : Function} {receiver : InstanceRef} {args : List Value}
    {result : Option Value} (h : enteredWith host f receiver args result st t w = .ok r s) :
    r = none ∧ s.thread.frames.size = t.frames.size + 1 := by
  unfold enteredWith at h
  split at h
  · cases h
  · split at h
    · cases h
    · exact ok_of_entered h

/-- A call that does not fail pushes a value in the place of the callee and the arguments, or makes
a frame. -/
theorem ok_of_called {callee : Value} {args : List Value}
    (h : called host callee args st t w = .ok r s) :
    r = none ∧ ((∃ v, s.thread = { t with stack := st.push v }) ∨
      s.thread.frames.size = t.frames.size + 1) := by
  unfold called at h
  split at h
  · split at h
    · cases h
    · exact (ok_of_entered h).imp_right .inr
  · exact (ok_of_enteredWith h).imp_right .inr
  · split at h
    · exact (ok_of_pushed h).imp_right fun h => .inl ⟨_, h⟩
    · cases h
  · simp only at h
    split at h
    · exact (ok_of_pushed h).imp_right fun h => .inl ⟨_, h⟩
    · exact (ok_of_enteredWith h).imp_right .inr
  · cases h

/-- A call finds its callee and its arguments, or it fails. -/
theorem instruction_call_cases {n : Nat} (hcall : InstrAt t.image.chunk t.ip .call n)
    (h : instruction host ⟨t, w⟩ = .ok r s) :
    ∃ c v, t.stack.size = c + n + 1 ∧ r = none ∧
      (s.thread = { t with ip := t.ip + 2, stack := (t.stack.take c).push v } ∨
        s.thread.frames.size = t.frames.size + 1) := by
  rcases lt_or_exists_append t.stack (n + 1) with hlt | ⟨st, vs, hst, hvs⟩
  · have herror : instruction host ⟨t, w⟩ =
        .error .stackUnderflow ⟨{ t with ip := t.ip + 2 }, w⟩ := by
      rw [instruction_of_opAt host hcall.1]
      simp only [execute]
      rw [bind_of_ok (readIndex_of_instrAt hcall)]
      simp only [callValue, bind_assoc]
      rw [bind_of_ok (thread_apply _)]
      simp only [if_pos hlt]
      rfl
    rw [herror] at h
    cases h
  · obtain ⟨callee, args, rfl⟩ := List.exists_cons_of_length_eq_add_one hvs
    obtain rfl : args.length = n := by simpa using hvs
    have hst' : t.stack = st.push callee ++ args.toArray := by simp [hst]
    have htake : t.stack.take st.size = st := by simp [hst']
    have hsize : t.stack.size = st.size + args.length + 1 := by
      simp [hst']
      omega
    rw [instruction_call host hcall hst'] at h
    obtain ⟨rfl, hv | hframes⟩ := ok_of_called h
    · obtain ⟨v, hv⟩ := hv
      refine ⟨st.size, v, hsize, rfl, .inl ?_⟩
      rw [hv, htake]
    · exact ⟨st.size, .null, hsize, rfl, .inr hframes⟩

end

/-! ## Calls with a frame -/

/-- `s` is behind the call that `t` was about to make, whose callee was in the slot `c`. -/
structure Thread.BehindCall (t s : Thread) (c : Nat) : Prop where
  stack : ∃ v, s.stack = (t.stack.take c).push v
  frames : s.frames = t.frames
  windows : s.windows = t.windows
  imports : s.imports = t.imports
  image : s.image = t.image
  base : s.base = t.base
  handler : s.handler = t.handler
  ip : s.ip = t.ip + 2

section
variable {R : Realm} {host : Host} {t t₁ u : Thread} {past us upast : List Thread} {Ls : List Level}
  {w : World} {r : Option Value} {s s₁ : State} {n : Nat}

/-- An instruction that does not fail removes a frame only if it returns from the activation that
has it. -/
theorem leave_of_frames_le {k : Nat} (hr : instruction host ⟨u, w⟩ = .ok r s₁)
    (hstep : step host ⟨u, w⟩ = .running s) (hk : k < u.frames.size)
    (hdone : s.thread.frames.size ≤ k) : ∃ fs frame m x, u.frames = fs.push frame ∧ u.floor ≤ fs.size ∧
      fs.size = k ∧ s.thread.ip = frame.ip ∧ u.stack.size ≤ m + 1 ∧
      s.thread.stack = ((u.stack.take m).take (u.base - 1)).push (frame.result.getD x) ∧
      s.thread.control = { u.control with
        frames := fs, image := frame.image, base := frame.base, handler := frame.handler } ∧
      u.Returns x := by
  have hshift := instruction_shift host u w
  simp only [step, hr] at hstep
  rw [hr] at hshift
  cases hshift with
  | stay control | arm op stack control | disarm control | load op room stack control =>
    cases hstep
    simp only [Thread.control, Control.mk.injEq] at control
    obtain ⟨hf, -⟩ := control
    rw [hf] at hdone
    omega
  | enter op slot_eq room below control =>
    cases hstep
    simp only [Thread.control, Control.mk.injEq] at control
    obtain ⟨hf, -⟩ := control
    rw [hf, Array.size_push] at hdone
    omega
  | @leave _ fs frame m x frames floor ip height stack control value =>
    cases hstep
    refine ⟨fs, frame, m, x, frames, floor, ?_, ip, height, stack, control, value⟩
    simp only [Thread.control, Control.mk.injEq] at control
    obtain ⟨hf, -⟩ := control
    rw [hf] at hdone
    rw [frames, Array.size_push] at hk
    omega
  | @finish _ v floor control =>
    simp only [Thread.control, Control.mk.injEq] at control
    obtain ⟨hf, hw, -⟩ := control
    cases hwindows : s₁.thread.windows with
    | nil =>
      simp only [hwindows] at hstep
      cases hstep
    | cons window outer =>
      -- A module ends with the frames it began with.
      simp only [hwindows] at hstep
      cases hstep
      have hfloor : u.floor = window.depth := by
        rw [floor_eq, ← hw, hwindows]
        rfl
      rw [hfloor] at floor
      have hsize : (s₁.thread.closeWindow window outer).frames.size = u.frames.size := by
        simp [Thread.closeWindow, hf, Nat.min_eq_right floor]
      simp only [hsize] at hdone
      omega

/-- A running thread is at an instruction. -/
theorem Runs.exists_opAt (h : Runs R (u :: upast) Ls) : ∃ op, OpAt u.image.chunk u.ip op := by
  cases h with
  | mk tower stands held =>
    rw [stands.carries.image]
    exact stands.site.flow.point.move.exists_opAt

/-- The return from a call that has made a frame. The caller finds the value that is returned, unless
the frame has another one. -/
theorem Tracked.returned (hhistory : History host (u :: upast)) (htracked : Tracked R (u :: upast) Ls)
    (hpast : u :: upast = us ++ t₁ :: t :: past) (hcall : InstrAt t.image.chunk t.ip .call n)
    (hduring : ∀ x ∈ us ++ [t₁], t.frames.size < x.frames.size)
    (hr : instruction host ⟨u, w⟩ = .ok r s₁) (hstep : step host ⟨u, w⟩ = .running s)
    (hdone : s.thread.frames.size ≤ t.frames.size) :
    ∃ c frame x, t.stack.size = c + n + 1 ∧ t₁.frames = t.frames.push frame ∧
      OpAt u.image.chunk u.ip .ret ∧ u.stack.back? = some x ∧ t.BehindCall s.thread c ∧
      s.thread.stack = (t.stack.take c).push (frame.result.getD x) := by
  have hu : t.frames.size < u.frames.size := by
    refine hduring u ?_
    cases us with
    | nil =>
      cases hpast
      exact List.mem_singleton.mpr rfl
    | cons x us =>
      cases hpast
      exact List.mem_cons_self
  obtain ⟨L, Ls', ht, ht₁, hsuffix⟩ :=
    (hpast ▸ htracked).within fun x hx => .inl (hduring x hx)
  have hbegin : History host (t₁ :: t :: past) := .of_append us (hpast ▸ hhistory)
  obtain ⟨hbefore, hmoves⟩ : History host (t :: past) ∧ t.Moves host t₁ := by
    cases hbegin with
    | next before moves => exact ⟨before, moves⟩
  have habove := hduring t₁ (List.mem_append_right _ List.mem_cons_self)
  cases hmoves.rises hbefore (.inl habove) with
  | load op stack control =>
    simp only [Thread.control, Control.mk.injEq] at control
    obtain ⟨hf, -⟩ := control
    rw [hf] at habove
    exact absurd habove (Nat.lt_irrefl _)
  | @enter argc c image result op slot_eq below control =>
    simp only [Thread.control, Control.mk.injEq] at control
    obtain ⟨hf₁, hw₁, -, -, hb₁, -⟩ := control
    obtain ⟨fs, frame, m, x, hframes, hfloor, hsize, hip, hheight, hstack, hcontrol, hvalue⟩ :=
      leave_of_frames_le hr hstep hu hdone
    obtain ⟨op', hop'⟩ := htracked.runs.exists_opAt
    obtain ⟨hret, hx⟩ := hvalue.resolve_left fun hend =>
      Option.some_ne_none _ (hop'.symm.trans hend)
    obtain ⟨_, _, heq, hcarries⟩ := ht₁.exists_top
    cases heq
    have hmem : L ∈ Ls := hsuffix.subset List.mem_cons_self
    have hlive := htracked.runs.liveIn L hmem
    have hlower := htracked.runs.lower_prefix L hmem
    -- The thread has come down to the activation that the call has begun.
    have hL : L.frames = t.frames.push ⟨t.image, t.ip + 2, t.base, t.handler, result⟩ :=
      hcarries.tops.frames.symm.trans hf₁
    have htop : L.frames = u.frames := by
      refine Array.toList_inj.mp (hlive.frames.eq_of_length ?_)
      simp [hL, hframes, hsize]
    obtain ⟨rfl, rfl⟩ := Array.push_eq_push.mp (hframes.symm.trans (htop.symm.trans hL))
    have hrunning : L.Carries R u :=
      htracked.runs.carries hmem htop (by rw [hframes, Array.size_push]; omega)
    have hbase : u.base = c + 1 := hrunning.base.trans (hcarries.base.symm.trans hb₁)
    have hwindows : u.windows = t.windows :=
      hrunning.tops.windows.trans (hcarries.tops.windows.symm.trans hw₁)
    have hc : c + 1 = L.lower.size := hb₁.symm.trans hcarries.base
    have hargc : argc = n := InstrAt.operand_unique op hcall
    have himports : u.imports = t.imports := by
      rw [hhistory.sound_state.imports, hbefore.sound_state.imports, hwindows]
    simp only [Thread.control, Control.mk.injEq] at hcontrol
    obtain ⟨hsf, hsw, hsi, hsimage, hsb, hsh⟩ := hcontrol
    have hle : L.lower.size ≤ u.stack.size := by simpa using hlower.length_le
    have hlower₁ : L.lower.toList <+: t₁.stack.toList := ht₁.lower_prefix L List.mem_cons_self
    have hbelow : (u.stack.take m).take c = t.stack.take c :=
      calc (u.stack.take m).take c = u.stack.take c := take_take u.stack (by omega)
        _ = L.lower.take c := prefix_take hlower (by omega)
        _ = t₁.stack.take c := (prefix_take hlower₁ (by omega)).symm
        _ = t.stack.take c := below
    have hpushed : s.thread.stack = (t.stack.take c).push (result.getD x) := by
      rw [hstack, hbase, Nat.add_sub_cancel, hbelow]
    exact ⟨c, _, x, by omega, hf₁, hret, hx, ⟨⟨_, hpushed⟩, hsf, hsw.trans hwindows,
      hsi.trans himports, hsimage, hsb, hsh, hip⟩, hpushed⟩

/-- A call that is done, whether it has made a frame or not. -/
theorem Tracked.call (hhistory : History host (u :: upast)) (htracked : Tracked R (u :: upast) Ls)
    (hpast : u :: upast = us ++ t :: past) (hcall : InstrAt t.image.chunk t.ip .call n)
    (hduring : ∀ x ∈ us, t.frames.size < x.frames.size)
    (hr : instruction host ⟨u, w⟩ = .ok r s₁) (hstep : step host ⟨u, w⟩ = .running s)
    (hdone : s.thread.frames.size ≤ t.frames.size) :
    ∃ c, t.stack.size = c + n + 1 ∧ t.BehindCall s.thread c := by
  rcases List.eq_nil_or_concat us with rfl | ⟨us, t₁, rfl⟩
  · cases hpast
    obtain ⟨c, v, hsize, rfl, hthread | hframes⟩ := instruction_call_cases hcall hr
    · refine ⟨c, hsize, ?_⟩
      simp only [step, hr] at hstep
      cases hstep
      rw [hthread]
      exact ⟨⟨v, rfl⟩, rfl, rfl, rfl, rfl, rfl, rfl, rfl⟩
    · simp only [step, hr] at hstep
      cases hstep
      omega
  · rw [List.concat_eq_append] at hpast hduring
    rw [List.append_assoc] at hpast
    obtain ⟨c, _, _, hsize, -, -, -, hbehind, -⟩ :=
      htracked.returned hhistory hpast hcall hduring hr hstep hdone
    exact ⟨c, hsize, hbehind⟩

end

/-! ## Balance -/

/-- What calls and programs leave on the stack, in every session whose loader gives compiled
programs only and whose natives bring no functions, bound methods, classes or instances.

A thread `u` has gone through a state `t` that was about to call a value with `n` arguments, and
since then all states have had more frames. If the instruction of `u` does not fail and leads back
to the frames of `t`, then the call is done: the thread is behind the call, with the stack as it
was below the callee and one value, and everything else as it was.

A run of a program that ends without a failure leaves as many values as there are handlers of the
program around the `return` that has ended it, and none if it has come to its end. -/
theorem call_balanced (host : Host) (hinert : host.Inert) (hload : host.LoadsCompiled) (P : Pool)
    (h : Reachable host Compiled P) :
    (∀ u upast work, ⟨u, upast, work, .running⟩ ∈ P.cells → ∀ us t past n,
      u :: upast = us ++ t :: past → InstrAt t.image.chunk t.ip .call n →
      (∀ x ∈ us, t.frames.size < x.frames.size) →
      ∀ r s₁ s, instruction host ⟨u, P.world⟩ = .ok r s₁ → step host ⟨u, P.world⟩ = .running s →
        s.thread.frames.size ≤ t.frames.size →
        ∃ c, t.stack.size = c + n + 1 ∧ t.BehindCall s.thread c) ∧
    ∀ t past p, ⟨t, past, .main (some p), .running⟩ ∈ P.cells →
      ∀ v s, step host ⟨t, P.world⟩ = .finished v s →
        Compiled p t.image.chunk ∧ Ends p t.ip s.thread.stack.size := by
  obtain ⟨R, hR, hinert', hload', hgood⟩ := good_of_reachable hinert hload h
  refine ⟨fun u upast work hu us t past n hpast hcall hduring r s₁ s hr hstep hdone => ?_,
    fun t past p ht v s hstep => ?_⟩
  · obtain ⟨hhistory, Ls, htracked, -⟩ := (hgood.cells _ hu).tracked
    exact htracked.call hhistory hpast hcall hduring hr hstep hdone
  · obtain ⟨-, Ls, htracked, hprogram⟩ := (hgood.cells _ ht).tracked
    obtain ⟨image, hground⟩ := hprogram p rfl
    have hruns := htracked.runs
    have hnext := hruns.next hR hinert' hload' hgood.world
    rw [hstep] at hnext
    cases hnext with
    | @finished L _ _ levels world globals tops windows image_eq ip ends =>
      subst levels
      rcases List.suffix_cons_iff.mp hground with heq | hnil
      · cases heq
        obtain ⟨-, stands, -⟩ := hruns
        refine ⟨?_, ends rfl⟩
        rw [stands.carries.image]
        exact ⟨trivial, stands.site.compiled.compiled⟩
      · cases List.eq_nil_of_suffix_nil hnil

/-- A program that calls a function: `fun f x: x . f(true)`. -/
def callsFunction : Program where
  stmts := [.function ⟨⟨"f", ⟨4, 5⟩⟩, [⟨"x", ⟨6, 7⟩⟩], ⟨[.expr (.var ⟨"x", ⟨9, 10⟩⟩)], ⟨9, 10⟩⟩,
    ⟨0, 12⟩⟩,
    .expr (.call (.var ⟨"f", ⟨13, 14⟩⟩) [.bool true ⟨15, 19⟩] ⟨13, 20⟩)]
  span := ⟨0, 20⟩

/-- The function is about to return; before that it has read its parameter, and been called. -/
def aboutToReturn (host : Host) (s : State) : List Thread → Bool
  | x :: t :: _ =>
    decide (t.image.chunk.code[t.ip]? = some Opcode.call.encode) &&
    decide (t.image.chunk.code[t.ip + 1]? = some 1) &&
    decide (t.frames.size < s.thread.frames.size) && decide (t.frames.size < x.frames.size) &&
    match instruction host s with
    | .ok none s₁ => decide (s₁.thread.frames.size ≤ t.frames.size)
    | _ => false
  | _ => false

/-- When the function returns, its caller is behind the call. -/
theorem call_balanced_callsFunction : ∃ (P : Pool) (u x t : Thread) (past : List Thread)
    (work : Work) (s : State) (c : Nat), Reachable (Session.hostWith {} none) Compiled P ∧
      ⟨u, x :: t :: past, work, .running⟩ ∈ P.cells ∧ InstrAt t.image.chunk t.ip .call 1 ∧
      step (Session.hostWith {} none) ⟨u, P.world⟩ = .running s ∧ t.BehindCall s.thread c := by
  obtain ⟨chunk, hc, hcheck⟩ := exists_compiled callsFunction "main"
    (fun c => match trail (Session.hostWith {} none) 8 ⟨Thread.start {} c, {}⟩ [] with
      | some (s, past) => aboutToReturn (Session.hostWith {} none) s past
      | none => false) (by decide +kernel)
  cases hr : trail (Session.hostWith {} none) 8 ⟨Thread.start {} chunk, {}⟩ [] with
  | none =>
    rw [hr] at hcheck
    cases hcheck
  | some r =>
    obtain ⟨⟨u, w⟩, past⟩ := r
    rw [hr] at hcheck
    have hbegin : Reachable (Session.hostWith {} none) Compiled
        ⟨[] ++ ⟨Thread.start {} chunk, [], .main (some callsFunction), .running⟩ :: [], {}⟩ :=
      .next (.initial (t := {}) (w := {}) nofun rfl rfl rfl) (.begin hc nofun)
    have hP := reachable_trail hr hbegin
    match past, hcheck, hP with
    | x :: t :: past, hcheck, hP =>
      cases hinstr : instruction (Session.hostWith {} none) ⟨u, w⟩ with
      | error e s₁ => simp [aboutToReturn, hinstr] at hcheck
      | ok v s₁ =>
        cases v with
        | some v => simp [aboutToReturn, hinstr] at hcheck
        | none =>
          simp only [aboutToReturn, hinstr, Bool.and_eq_true, decide_eq_true_eq] at hcheck
          obtain ⟨⟨⟨⟨hop, harg⟩, hu⟩, hx⟩, hdone⟩ := hcheck
          have hstep : step (Session.hostWith {} none) ⟨u, w⟩ = .running s₁ := by
            simp only [step, hinstr]
          have hcall : InstrAt t.image.chunk t.ip .call 1 := ⟨hop, 1, harg, rfl⟩
          obtain ⟨c, -, hbehind⟩ := (call_balanced (Session.hostWith {} none)
            (Natives.inert_of_callForHost rfl) (fun _ hload => by cases hload) _ hP).1 u _ _ List.mem_cons_self [u, x] t past 1
            rfl hcall (by simp [hu, hx]) none s₁ s₁ hinstr hstep hdone
          exact ⟨_, u, x, t, past, _, s₁, c, hP, List.mem_cons_self, hcall, hstep, hbehind⟩

end DotScript.Machine
