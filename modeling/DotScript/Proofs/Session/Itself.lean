import DotScript.Proofs.Correspondence.Pools

/-!
# Sessions that correspond to themselves

What a correspondence says of a session and itself holds of everything the session has: all its
functions are among those that are the same as themselves, and all its threads stand at such places.
Nothing that can happen in a session changes that, as long as the correspondence does not end.

* `Pool.Initial`, `Evolves`: new sessions, and what can come of them;
* `Pool.Initial.like`: a new session corresponds to itself;
* `Pool.Like.move`, `Pool.Like.step`: so does what comes of it next.
-/

namespace DotScript.Machine

open DotScript.Bytecode DotScript.Compile DotScript.Syntax

/-! ## New sessions -/

/-- A session that has run nothing: there are no objects, no spawned calls, and no functions among
the globals. -/
inductive Pool.Initial : Pool → Prop
  | mk {id globals w} (plain : ∀ e ∈ globals.entries, e.2.Plain) (heap : w.heap = {})
    (pending : w.pending = []) :
    Initial ⟨[⟨{ id := id, globals := globals }, [], .main none, .idle⟩], w⟩

/-- What can come of a new session. -/
inductive Evolves (host : Host) (code : Program → Chunk → Prop) : Pool → Prop
  | initial {P} (h : P.Initial) : Evolves host code P
  | next {P P'} (h : Evolves host code P) (hstep : P.Step host code P') : Evolves host code P'

theorem Evolves.reachable {host : Host} {code : Program → Chunk → Prop} {P : Pool}
    (h : Evolves host code P) : Reachable host code P := by
  induction h with
  | initial h =>
    cases h with
    | mk plain heap pending => exact .initial plain rfl rfl pending
  | next _ hstep ih => exact ih.next hstep

theorem plain_like {F : Function → Function → Prop} {v : Value} (h : v.Plain) : v.Like F v := by
  -- It is a value of the realm without functions and objects.
  let R : Realm := ⟨fun _ => False, fun _ => False, fun _ => False, fun _ => True, False, 0, 0⟩
  exact .of_in nofun nofun v (h.in (R := R) fun _ => trivial)

section
variable {C : Correspondence} {host : Host} {code : Program → Chunk → Prop} {P P' : Pool}

theorem Pool.Initial.like (h : P.Initial) (hnumbers : C.numbers = 0)
    (hfresh : ∀ c ∈ P.cells, C.fresh c.thread.id 0 ∧ C.lead c.thread.id = 0) : P.Like C P := by
  cases h with
  | @mk id globals w plain heap pending =>
    obtain ⟨hfresh, hlead⟩ := hfresh _ List.mem_cons_self
    have hthread : Thread.Like C { id := id, globals := globals } { id := id, globals := globals } :=
      { id := rfl
        globals := .refl _ fun e he => plain_like (plain e he)
        stack := .empty
        frames := .empty
        base := rfl
        handler := .none
        windows := .nil
        imports := rfl
        loaded := by
          dsimp only at hlead ⊢
          rw [hlead]
        spawned := rfl
        fresh := hfresh }
    refine ⟨.cons ⟨hthread, .main none none, .idle⟩ .nil, ?_⟩
    exact {
      heap := by
        simp only [heap]
        exact ⟨.empty, .empty⟩
      files := rfl
      printed := rfl
      reports := .refl _ fun line _ => .same line
      threads := by rw [hnumbers, Nat.add_zero]
      pending := by
        simp only [pending]
        exact .nil
      now := rfl
      questions := rfl }

/-! ## What happens in a session -/

section
variable (hS : C.Sound) (hhost : host.Respects C)
  (hmeets : ∀ {i a}, C.place i a i a → Meets C i a i a)
include hS hhost hmeets

/-- What threads do leads to a session that corresponds to itself, unless it goes on beyond the end of
the correspondence. -/
theorem Pool.Like.move (h : P.Like C P) (hmove : P.Move host P')
    (hstays : ∀ c ∈ P'.cells, ¬ c.thread.Leaves C c.thread) : P'.Like C P' := by
  obtain ⟨hcells, hworld⟩ := h
  obtain ⟨before, after, t, past, work, w, rfl, rfl⟩ | ⟨cells, w, before, task, after, rfl, hw, rfl⟩ :=
    hmove.cases
  · have hcell := List.forall₂_same.mp hcells
    obtain ⟨_, _, _, ⟨⟩, ht, hwork, hplace⟩ :=
      running_like (hcell _ (List.mem_append_right _ List.mem_cons_self))
    have hs : State.Like C ⟨t, w⟩ ⟨t, w⟩ := ⟨ht, hworld⟩
    have hgoes : ∀ s s', step host ⟨t, w⟩ = .running s → step host ⟨t, w⟩ = .running s' →
        ¬ s.thread.Leaves C s'.thread := by
      intro s s' hs hs'
      cases hs.symm.trans hs'
      have hnot := hstays _ (List.mem_append_right _ List.mem_cons_self)
      rwa [hs] at hnot
    obtain ⟨hnew, hworld'⟩ := outcome_cell_like (step_like hS hhost hs (hmeets hplace)) hgoes hwork
      (t :: past) (t :: past)
    refine ⟨forall₂_replace (List.forall₂_same.mpr fun c hc => ?_) hnew
      (List.forall₂_same.mpr fun c hc => ?_), hworld'⟩
    · exact hcell c (List.mem_append_left _ hc)
    · exact hcell c (List.mem_append_right _ (List.mem_cons_of_mem _ hc))
  · have hpending := List.forall₂_same.mp hworld.pending
    rw [hw] at hpending
    refine launched_like hS hhost hcells ?_ (hpending task (List.mem_append_right _ List.mem_cons_self))
    refine { hworld with pending := List.forall₂_same.mpr fun k hk => hpending k ?_ }
    rcases List.mem_append.mp hk with hk | hk
    · exact List.mem_append_left _ hk
    · exact List.mem_append_right _ (List.mem_cons_of_mem _ hk)

/-- So does whatever can happen. -/
theorem Pool.Like.step (h : P.Like C P) (hstep : P.Step host code P')
    (hstays : ∀ c ∈ P'.cells, ¬ c.thread.Leaves C c.thread) : P'.Like C P' := by
  cases hstep with
  | move hmove => exact h.move hS hhost hmeets hmove hstays
  | @begin t past work activity cells w p c hc hidle =>
    obtain ⟨hcells, hworld⟩ := h
    obtain ⟨hcell, hrest⟩ := List.forall₂_cons.mp hcells
    have hthread := hcell.thread
    have hloaded := hthread.loaded
    dsimp only at hloaded
    have hlead : C.lead t.id = 0 := by omega
    have hfresh : C.fresh t.id (t.loaded + 1) := by
      refine not_not.mp fun hnot => hstays _ List.mem_cons_self ⟨_, hthread.fresh, hnot, ?_, rfl⟩
      change t.loaded + 1 = t.loaded + 1 + C.lead t.id
      omega
    have hplace := hS.load hthread.fresh hfresh c
    rw [hlead, Nat.add_zero] at hplace
    have hstart : (t.start c).Like C (t.start c) :=
      { hthread with
        stack := .empty
        frames := .empty
        base := rfl
        handler := .none
        fresh := hfresh
        loaded := by
          change t.loaded + 1 = t.loaded + 1 + C.lead t.id
          omega }
    exact ⟨.cons ⟨hstart, .main _ _, .running hplace⟩ hrest, hworld⟩
  | @define t past work activity cells w name v hv hidle =>
    obtain ⟨hcells, hworld⟩ := h
    obtain ⟨hcell, hrest⟩ := List.forall₂_cons.mp hcells
    have hthread := hcell.thread
    have hvalue : v.Like C.function v := by
      rcases hv with hplain | ⟨other, hother⟩
      · exact plain_like hplain
      · have hget := hthread.globals.get? other
        dsimp only at hget
        rw [hother] at hget
        cases hget with
        | some hget => exact hget
    let t' : Thread := { t with globals := t.globals.insert name v }
    have hinsert : t'.Like C t' := { hthread with globals := hthread.globals.insert name hvalue }
    have hactivity : activity.Like C t' t' activity := by
      have hactivity := hcell.activity
      dsimp only at hactivity
      generalize activity = a at hactivity
      cases hactivity with
      | idle => exact .idle
      | running hplace => exact .running hplace
      | ended hr => exact .ended hr
    exact ⟨.cons ⟨hinsert, hcell.work, hactivity⟩ hrest, hworld⟩
  | outside hheap hpending =>
    obtain ⟨hcells, hworld⟩ := h
    have hthreads := hworld.threads
    have hnumbers : C.numbers = 0 := by
      dsimp only at hthreads
      omega
    exact ⟨hcells, {
      heap := by
        rw [hheap]
        exact hworld.heap
      files := rfl
      printed := rfl
      reports := .refl _ fun line _ => .same line
      threads := by rw [hnumbers, Nat.add_zero]
      pending := by
        rw [hpending]
        exact hworld.pending
      now := rfl
      questions := rfl }⟩

end

end

end DotScript.Machine
