import DotScript.Proofs.Session.Compiled

/-!
# Within a call or an import

An instruction may begin an activation upon the one that carries it out. As long as the thread has
more frames or more imports than it had then, that activation is still there, and so is all below
it.

* `Thread.Above`: more frames or more imports;
* `Tracked.within`: the activations of a thread that has been above one of its earlier states since.
-/

namespace DotScript.Machine

open DotScript.Bytecode DotScript.Compile DotScript.Syntax

/-- `x` has more frames or more imports than `t`. -/
def Thread.Above (t x : Thread) : Prop :=
  t.frames.size < x.frames.size ∨ t.windows.length < x.windows.length

/-! ## Histories -/

section
variable {R : Realm} {host : Host} {t : Thread} {past us : List Thread} {Ls : List Level}

/-- A thread has gone through every earlier part of its history. -/
theorem History.of_append (us : List Thread) (h : History host (us ++ t :: past)) :
    History host (t :: past) := by
  induction us with
  | nil => exact h
  | cons u us ih =>
    refine ih ?_
    rw [List.cons_append] at h
    generalize hts : us ++ t :: past = ts at h
    cases h with
    | begin => simp at hts
    | next before moves => exact before

end

/-! ## Activations that are live -/

section
variable {R : Realm} {Q : Level → Try → List Value → Prop} {L L' : Level} {Ls Ls' : List Level}
  {inherited : Option Handler} {t x : Thread} {past us : List Thread}

/-- What the activations of a tower stand upon is part of what the one on top stands upon. -/
theorem Tower.lower_prefix (h : Tower R Q L Ls inherited) :
    ∀ L' ∈ Ls, L'.lower.toList <+: L.lower.toList := by
  induction h with
  | ground => nofun
  | @call L Ls inherited a σ ls vs handler result f image p below wait held hresult ih =>
    have hstep : L.lower.toList <+: ((L.stack ls vs).push f).toList :=
      prefix_stack.trans (prefix_push _ f)
    intro L' hL'
    rcases List.mem_cons.mp hL' with rfl | hL'
    · exact hstep
    · exact (ih L' hL').trans hstep
  | @module L Ls inherited a σ ls vs handler path image p below wait held ih =>
    intro L' hL'
    rcases List.mem_cons.mp hL' with rfl | hL'
    · exact prefix_stack
    · exact (ih L' hL').trans prefix_stack

/-- If the activation on top has no frames of its own, then it is that of a module. -/
theorem Tower.floor_of_frames (h : Tower R Q L Ls inherited) (hL' : L' ∈ Ls)
    (hframes : L.frames.size ≤ L'.frames.size) : floorOf L.windows = L.frames.size := by
  have hunder := h.under L' hL'
  cases h with
  | ground => cases hL'
  | @call L₀ Ls₀ _ a σ ls vs handler result f image p below =>
    have hle : L'.frames.size ≤ L₀.frames.size := by
      rcases List.mem_cons.mp hL' with rfl | hL'
      · exact Nat.le_refl _
      · simpa using (below.under L' hL').frames.length_le
    rw [Array.size_push] at hframes
    omega
  | module => rfl

namespace Runs

theorem liveIn (h : Runs R (t :: past) Ls) : ∀ L ∈ Ls, L.LiveIn t := by
  cases h with
  | mk tower stands held =>
    intro L hL
    rcases List.mem_cons.mp hL with rfl | hL
    · exact stands.carries.tops.liveIn
    · exact (tower.under L hL).liveIn stands.carries.tops.liveIn

theorem lower_prefix (h : Runs R (t :: past) Ls) :
    ∀ L ∈ Ls, L.lower.toList <+: t.stack.toList := by
  cases h with
  | mk tower stands held =>
    intro L hL
    rcases List.mem_cons.mp hL with rfl | hL
    · exact stands.stack ▸ prefix_stack
    · exact (tower.lower_prefix L hL).trans (stands.stack ▸ prefix_stack)

/-- The activation that a thread runs. -/
theorem exists_top (h : Runs R (t :: past) Ls) : ∃ L Ls', Ls = L :: Ls' ∧ L.Carries R t := by
  cases h with
  | mk tower stands held => exact ⟨_, _, rfl, stands.carries⟩

/-- An activation with the frames of the thread is the one that the thread runs, unless a module has
begun upon it. -/
theorem carries (h : Runs R (t :: past) Ls) (hL : L ∈ Ls) (hframes : L.frames = t.frames)
    (hfloor : t.floor < t.frames.size) : L.Carries R t := by
  obtain ⟨tower, stands, held⟩ := h
  rcases List.mem_cons.mp hL with rfl | hbelow
  · exact stands.carries
  · have htops := stands.carries.tops
    have hmodule := tower.floor_of_frames hbelow (Nat.le_of_eq (by rw [← htops.frames, hframes]))
    rw [← htops.windows, ← htops.frames, ← floor_eq] at hmodule
    omega

/-- A thread above another one runs none of its activations. -/
theorem not_suffix (h : Runs R (t :: past) Ls) (habove : t.Above x) {xs : List Thread}
    (hx : Runs R (x :: xs) Ls') : ¬ Ls' <:+ Ls := by
  intro hsuffix
  obtain ⟨L, Ls'', rfl, hcarries⟩ := hx.exists_top
  have hlive := h.liveIn L (hsuffix.subset List.mem_cons_self)
  have hframes := hlive.frames.length_le
  have hwindows := hlive.windows.length_le
  simp only [Array.length_toList] at hframes
  rw [← hcarries.tops.frames] at hframes
  rw [← hcarries.tops.windows] at hwindows
  rcases habove with habove | habove <;> omega

end Runs

/-- The activation that was begun when the thread came above `t` is there as long as it stays above
`t`, upon the activations of `t`. -/
theorem Tracked.within {t₁ : Thread} (h : Tracked R (us ++ t₁ :: t :: past) Ls)
    (habove : ∀ x ∈ us ++ [t₁], t.Above x) :
    ∃ L Ls', Runs R (t :: past) Ls' ∧ Runs R (t₁ :: t :: past) (L :: Ls') ∧ (L :: Ls') <:+ Ls := by
  induction us generalizing Ls with
  | nil =>
    cases h with
    | @next _ _ _ Ls' _ before runs levels =>
      have hnot := before.runs.not_suffix (habove t₁ List.mem_cons_self) runs
      obtain ⟨L, rfl⟩ := levels.resolve_left hnot
      exact ⟨L, Ls', before.runs, runs, List.suffix_refl _⟩
  | cons u us ih =>
    rw [List.cons_append] at h
    generalize hts : us ++ t₁ :: t :: past = ts at h ih
    cases h with
    | begin => simp at hts
    | next before runs levels =>
      obtain ⟨L, Ls', ht, ht₁, hsuffix⟩ := ih before fun x hx => habove x (List.mem_cons_of_mem _ hx)
      refine ⟨L, Ls', ht, ht₁, ?_⟩
      rcases levels with levels | ⟨L', rfl⟩
      · rcases Nat.lt_or_ge Ls.length (L :: Ls').length with hlt | hge
        · -- Then the activation would be over.
          have hback : Ls <:+ (L :: Ls') :=
            List.suffix_of_suffix_length_le levels hsuffix (Nat.le_of_lt hlt)
          rcases List.suffix_cons_iff.mp hback with rfl | hback
          · exact absurd hlt (Nat.lt_irrefl _)
          · exact absurd hback (ht.not_suffix (habove u List.mem_cons_self) runs)
        · exact List.suffix_of_suffix_length_le hsuffix levels hge
      · exact hsuffix.trans (List.suffix_cons ..)

/-! ## Coming above -/

/-- The two ways in which a thread comes above a state: it enters a function or begins an import. -/
inductive Rises (host : Host) (t t₁ : Thread) : Prop
  | enter {argc slot image result} (op : InstrAt t.image.chunk t.ip .call argc)
    (slot_eq : slot + argc + 1 = t.stack.size) (below : t₁.stack.take slot = t.stack.take slot)
    (control : t₁.control = { t.control with
      frames := t.frames.push ⟨t.image, t.ip + 2, t.base, t.handler, result⟩
      image
      base := slot + 1 })
  | load {path image} (op : OpAt t.image.chunk t.ip .importUnit) (stack : t.stack = t₁.stack.push path)
    (control : t₁.control =
      ⟨t.frames, ⟨path.text, t.frames.size, t₁.stack.size, t.image, t.ip + 1, t.base, t.handler⟩ ::
        t.windows, t.imports + 1, image, t₁.stack.size, none⟩)
    (unit : image.id = ⟨t.id, t.loaded⟩)

theorem Thread.Moves.rises {host : Host} {t₁ : Thread} (h : History host (t :: past))
    (hm : t.Moves host t₁) (habove : t.Above t₁) : Rises host t t₁ := by
  have hsame : ∀ {t' : Thread}, t'.frames.toList <+: t.frames.toList → t'.windows <:+ t.windows →
      ¬ t.Above t' := by
    intro t' hframes hwindows habove
    have hframes' := hframes.length_le
    have hwindows' := hwindows.length_le
    simp only [Array.length_toList] at hframes'
    rcases habove with habove | habove <;> omega
  cases hm.moved with
  | ok shift thread =>
    subst thread
    cases shift with
    | stay control | arm op stack control | disarm control =>
      simp only [Thread.control, Control.mk.injEq] at control
      obtain ⟨hf, hw, -⟩ := control
      exact absurd habove (hsame (hf ▸ List.prefix_refl _) (hw ▸ List.suffix_refl _))
    | enter op slot_eq room below control => exact .enter op slot_eq below control
    | leave frames floor ip height stack control =>
      simp only [Thread.control, Control.mk.injEq] at control
      obtain ⟨hf, hw, -⟩ := control
      refine absurd habove (hsame ?_ (hw ▸ List.suffix_refl _))
      rw [hf, frames]
      exact prefix_push ..
    | load op room stack control unit => exact .load op stack control unit
  | @closed s' v w outer shift windows thread =>
    subst thread
    cases shift with
    | finish floor control =>
      simp only [Thread.control, Control.mk.injEq] at control
      obtain ⟨hf, hw, -⟩ := control
      refine absurd habove (hsame ?_ ?_)
      · exact hf ▸ take_prefix_self ..
      · exact hw ▸ windows ▸ List.suffix_cons ..
  | caught shift raise =>
    obtain ⟨caught, hc⟩ := h.sound_state.recovered shift raise
    obtain ⟨-, hframes, hw, -⟩ := h.sound_state.failed shift
    refine absurd habove (hsame ?_ (hw ▸ hc.windows))
    rw [hc.frames]
    exact (take_prefix_self ..).trans hframes

end

end DotScript.Machine
