import DotScript.Proofs.Natives.Keys
import DotScript.Session.Basic

/-!
# Keys in a session

Whatever programs run in a session, with the calls that they spawn, and whatever they give: no map
among the values has a key twice. Main statement: `runSource_keyed`, for sessions from
`new_keyed` on.
-/

namespace DotScript

open DotScript.Machine DotScript.Natives DotScript.Bytecode DotScript.Text DotScript.Files

namespace Machine

variable {host : Host} {w w' : World}

theorem interpret_keyed (hnatives : host.KeepsKeys) {fuel : Nat} {chunk : Chunk} {s s' : State}
    {r : Except RuntimeError Value} (h : s.Keyed)
    (hrun : interpret host fuel chunk s = some (r, s')) : s'.Keyed ∧ ∀ v, r = .ok v → v.Keyed := by
  simp only [interpret, Option.bind_eq_bind, Option.bind_eq_some_iff] at hrun
  obtain ⟨⟨r', s₁⟩, hrun, heq⟩ := hrun
  have hstart : State.Keyed { s with thread := s.thread.start chunk } :=
    ⟨⟨forall_mem_empty, h.thread.globals, forall_mem_empty⟩, h.world⟩
  obtain ⟨hs₁, hr'⟩ := run_keyed hnatives fuel hstart hrun
  cases r' with
  | ok v =>
    cases heq
    exact ⟨hs₁, hr'⟩
  | error e =>
    cases heq
    exact ⟨⟨⟨forall_mem_empty, hs₁.thread.globals, forall_mem_empty⟩, hs₁.world⟩,
      fun v hv => by cases hv⟩

/-! ## Spawned calls -/

theorem runJob_keyed (hnatives : host.KeepsKeys) {fuel : Nat} {job : Job}
    {r : Except RuntimeError Value} (hjob : job.Keyed) (hw : w.Keyed)
    (h : runJob host fuel job w = some (r, w')) : w'.Keyed := by
  cases job with
  | native n args =>
    cases h
    exact (hnatives n.builtin args w hjob hw).1
  | script t =>
    simp only [runJob, Option.map_eq_some_iff] at h
    obtain ⟨⟨r', s'⟩, hrun, heq⟩ := h
    cases heq
    have hstate : State.Keyed ⟨t, w⟩ := ⟨hjob, hw⟩
    exact (run_keyed hnatives fuel hstate hrun).1.world

theorem runTask_keyed (hnatives : host.KeepsKeys) {fuel : Nat} {task : Task}
    (htask : task.job.Keyed) (hw : w.Keyed) (h : runTask host fuel task w = some w') : w'.Keyed := by
  simp only [runTask, Option.bind_eq_bind, Option.bind_eq_some_iff] at h
  obtain ⟨⟨r, w₁⟩, hjob, h⟩ := h
  have hw₁ := runJob_keyed hnatives htask hw hjob
  cases r with
  | ok v =>
    cases h
    exact hw₁
  | error e =>
    cases h
    exact ⟨hw₁.heap, hw₁.pending⟩

theorem settle_keyed (hnatives : host.KeepsKeys) {fuel count : Nat} (hw : w.Keyed)
    (h : settle host fuel count w = some w') : w'.Keyed := by
  induction count generalizing w with
  | zero =>
    rw [settle] at h
    split at h
    · cases h
      exact hw
    · cases h
  | succ count ih =>
    rw [settle] at h
    split at h
    · cases h
      exact hw
    · next task rest hpending =>
      rw [Option.bind_eq_bind, Option.bind_eq_some_iff] at h
      obtain ⟨w₁, htask, h⟩ := h
      obtain ⟨hjob, hrest⟩ := List.forall_mem_cons.mp (hpending ▸ hw.pending)
      have hw₀ : World.Keyed { w with pending := rest } := ⟨hw.heap, hrest⟩
      exact ih (runTask_keyed hnatives hjob hw₀ htask) h

end Machine

namespace Session

theorem setGlobal_keyed {s : Session} (h : s.state.Keyed) (name : String) {v : Value}
    (hv : v.Keyed) : (s.setGlobal name v).state.Keyed :=
  ⟨⟨h.thread.stack, Table.forall_mem_insert h.thread.globals hv, h.thread.results⟩, h.world⟩

theorem defineAll_keyed {s : Session} (h : s.state.Keyed) (r : Registry) :
    (s.defineAll r).state.Keyed := by
  unfold defineAll
  induction r.natives generalizing s with
  | nil => exact h
  | cons n natives ih => exact ih (setGlobal_keyed h n.name (Value.keyed_atom rfl))

theorem new_keyed (settings : Settings) (files : FileTree) (o : Outside) :
    (new settings files o).state.Keyed := by
  have hheap : Heap.Keyed {} := by
    intro i name v hv
    simp only [Heap.field?] at hv
    cases hv
  have hempty : State.Keyed { thread := {}, world := { files, now := o.now } } :=
    ⟨⟨forall_mem_empty, List.forall_mem_nil _, forall_mem_empty⟩, hheap, List.forall_mem_nil _⟩
  exact defineAll_keyed hempty _

theorem settled_keyed {s s' : Session} {fuel : Nat} (hnatives : s.host.KeepsKeys)
    (hs : s.state.Keyed) (h : s.settled fuel = some s') : s'.host = s.host ∧ s'.state.Keyed := by
  simp only [settled, Option.bind_eq_bind, Option.bind_eq_some_iff] at h
  obtain ⟨w', hsettle, heq⟩ := h
  cases heq
  exact ⟨rfl, hs.thread, settle_keyed hnatives hs.world hsettle⟩

theorem interpretSource_keyed {s s' : Session} {fuel : Nat} {source : Source}
    {r : Except RunError Value} (hnatives : s.host.KeepsKeys) (hs : s.state.Keyed)
    (h : s.interpretSource fuel source = some (r, s')) :
    s'.host = s.host ∧ s'.state.Keyed ∧ ∀ v, r = .ok v → v.Keyed := by
  unfold interpretSource at h
  split at h
  · cases h
    exact ⟨rfl, hs, fun v hv => by cases hv⟩
  · simp only [interpretChunk, Option.bind_eq_bind, Option.map_eq_some_iff,
      Option.bind_eq_some_iff] at h
    obtain ⟨_, ⟨⟨r', s₁⟩, hrun, heq⟩, heq'⟩ := h
    cases heq
    cases heq'
    obtain ⟨hs₁, hr'⟩ := interpret_keyed hnatives hs hrun
    refine ⟨rfl, hs₁, fun v hv => ?_⟩
    cases r' with
    | ok u => exact hr' v (congrArg Except.ok (Except.ok.inj hv))
    | error e => cases hv

/-- Running a unit and the calls that it spawns leaves a session keyed, and gives a keyed value. -/
theorem runSource_keyed {s s' : Session} {fuel : Nat} {source : Source}
    {r : Except RunError Value} {o : Outside} (hcall : s.host.call = callForHost o) (hs : s.state.Keyed)
    (h : s.runSource fuel source = some (r, s')) :
    s'.host = s.host ∧ s'.state.Keyed ∧ ∀ v, r = .ok v → v.Keyed := by
  have hnatives := keepsKeys_of_callForHost hcall
  simp only [runSource, Option.bind_eq_bind, Option.bind_eq_some_iff] at h
  obtain ⟨⟨r', s₁⟩, hrun, s₂, hsettled, heq⟩ := h
  cases heq
  obtain ⟨hhost, hs₁, hr⟩ := interpretSource_keyed hnatives hs hrun
  obtain ⟨hhost', hs₂⟩ := settled_keyed (hhost ▸ hnatives) hs₁ hsettled
  exact ⟨hhost'.trans hhost, hs₂, hr⟩

end Session

end DotScript
