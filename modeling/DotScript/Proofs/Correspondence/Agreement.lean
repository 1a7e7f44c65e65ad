import DotScript.Proofs.Correspondence.Natives
import DotScript.Proofs.Correspondence.Relocation

/-!
# Runs that agree

Two chunks do the same, each run on a thread at rest, if their runs correspond: they end both or
neither, with the same result, output and globals, but for the functions in them.

* `State.Alike`, `Pool.Alike`: what can be seen of two sessions from outside, and their objects;
* `RunsAgree`, `SessionsAgree`: runs of chunks by themselves, and with the calls that they spawn;
* `Holds`: what a thread at rest can get at, so that it corresponds to itself, `Holds.start_like`.
-/

namespace DotScript.Machine

open DotScript.Bytecode DotScript.Compile

/-! ## What can be seen -/

section
variable (F : Function → Function → Prop)

/-- All that can be seen of a thread at rest and the world is the same, and so are the objects, but
for functions, which are related by `F`. -/
structure State.Alike (s s' : State) : Prop where
  globals : s.thread.globals.Related (Value.Like F) s'.thread.globals
  stack : Pairs (Value.Like F) s.thread.stack s'.thread.stack
  classes : Pairs (Table.Related F) s.world.heap.classes s'.world.heap.classes
  instances : Pairs (Table.Related (Value.Like F)) s.world.heap.instances s'.world.heap.instances
  files : s.world.files = s'.world.files
  printed : s.world.printed = s'.world.printed
  reports : s.world.reports = s'.world.reports

/-- Two threads are about the same. -/
inductive Activity.Alike : Activity → Activity → Prop
  | idle : Alike .idle .idle
  | running : Alike .running .running
  | ended {r r'} (h : ResultLike (Value.Like F) r r') : Alike (.ended r) (.ended r')

/-- All threads of two sessions are about the same, with the same globals, and so are the worlds. -/
structure Pool.Alike (P P' : Pool) : Prop where
  activities : List.Forall₂ (fun c c' => c.activity.Alike F c'.activity) P.cells P'.cells
  states : List.Forall₂
    (fun c c' : Cell => State.Alike F ⟨c.thread, P.world⟩ ⟨c'.thread, P'.world⟩) P.cells P'.cells

/-- Running `c` in the state `s` ends exactly if running `c'` in `s'` does, with the same result. -/
structure RunsAgree (host : Host) (c : Chunk) (s : State) (c' : Chunk) (s' : State) : Prop where
  run : ∀ r s₁, (∃ fuel, interpret host fuel c s = some (r, s₁)) →
    ∃ fuel r' s₁', interpret host fuel c' s' = some (r', s₁') ∧
      ResultLike (Value.Like F) r r' ∧ s₁.Alike F s₁'
  run_back : ∀ r' s₁', (∃ fuel, interpret host fuel c' s' = some (r', s₁')) →
    ∃ fuel r s₁, interpret host fuel c s = some (r, s₁) ∧
      ResultLike (Value.Like F) r r' ∧ s₁.Alike F s₁'

/-- A session that begins to run a chunk: the thread `t` is its only one. -/
def Pool.beginning (t : Thread) (c : Chunk) (w : World) : Pool :=
  ⟨[⟨t.start c, [], .main none, .running⟩], w⟩

/-- Whatever comes of running `c` and the calls that it spawns, in any order, comes of running `c'`,
and the other way round. -/
structure SessionsAgree (host : Host) (c : Chunk) (s : State) (c' : Chunk) (s' : State) : Prop where
  moves : ∀ n P, Pool.Moves host n (.beginning s.thread c s.world) P →
    ∃ m P', Pool.Moves host m (.beginning s'.thread c' s'.world) P' ∧ P.Alike F P'
  moves_back : ∀ n P', Pool.Moves host n (.beginning s'.thread c' s'.world) P' →
    ∃ m P, Pool.Moves host m (.beginning s.thread c s.world) P ∧ P.Alike F P'

end

/-! ## Runs that correspond -/

/-- A state in which a thread begins to run a chunk. -/
def State.start (s : State) (c : Chunk) : State := ⟨s.thread.start c, s.world⟩

theorem interpret_eq_some_iff {host : Host} {c : Chunk} {s s' : State}
    {r : Except RuntimeError Value} :
    (∃ fuel, interpret host fuel c s = some (r, s')) ↔
      ∃ s₁, Halts host (s.start c) r s₁ ∧ s' = ⟨leftBy r s₁.thread, s₁.world⟩ := by
  constructor
  · rintro ⟨fuel, h⟩
    obtain ⟨s₁, hrun, hs'⟩ := exists_run_of_interpret h
    exact ⟨s₁, ⟨fuel, hrun⟩, hs'⟩
  · rintro ⟨s₁, ⟨fuel, hrun⟩, rfl⟩
    refine ⟨fuel, ?_⟩
    replace hrun : run host fuel { s with thread := s.thread.start c } = some (r, s₁) := hrun
    rw [interpret, hrun]
    cases r <;> rfl

section
variable {C : Correspondence} {s s' : State} {c c' : Chunk}

theorem State.Like.alike (hC : C.numbers = 0) (h : s.Like C s') : s.Alike C.function s' where
  globals := h.thread.globals
  stack := h.thread.stack
  classes := h.world.heap.classes
  instances := h.world.heap.instances
  files := h.world.files
  printed := h.world.printed
  reports := h.world.reports.eq_of_eq fun _ _ hline => by
    cases hline with
    | same => rfl
    | failure n message => rw [hC, Nat.add_zero]

theorem alike_leftBy (hC : C.numbers = 0) {r r' : Except RuntimeError Value}
    (h : EndsLike C r r' s s') :
    State.Alike C.function ⟨leftBy r s.thread, s.world⟩ ⟨leftBy r' s'.thread, s'.world⟩ := by
  obtain ⟨hresult, hs⟩ := h
  obtain ⟨e, rfl, rfl⟩ | ⟨v, v', rfl, rfl, -⟩ := hresult.cases
  · exact State.Like.alike hC ⟨abandon_like hs.thread, hs.world⟩
  · exact hs.alike hC

theorem Pool.Like.alike (hC : C.numbers = 0) {P P' : Pool} (h : P.Like C P') :
    P.Alike C.function P' where
  activities := h.cells.imp fun c c' hc => by
    have hactivity := hc.activity
    generalize c.activity = a at hactivity
    generalize c'.activity = a' at hactivity
    cases hactivity with
    | idle => exact .idle
    | running => exact .running
    | ended h => exact .ended h
  states := h.cells.imp fun _ _ hc => State.Like.alike hC ⟨hc.thread, h.world⟩

variable {host : Host} (hS : C.Lasting) (hclosed : C.Closed) (hhost : host.Respects C)
  (hC : C.numbers = 0)
include hS hclosed hhost hC

/-- The run on the right may have come somewhere before it corresponds to that on the left. -/
theorem runsAgree_of_reaches {s₀ : State} (hreaches : Reaches host (s'.start c') s₀)
    (h : (s.start c).Like C s₀) (hplace : (s.start c).thread.AtPlace C s₀.thread) :
    RunsAgree C.function host c s c' s' := by
  refine ⟨fun r s₁ hrun => ?_, fun r' s₁' hrun => ?_⟩
  · obtain ⟨s₂, hhalts, rfl⟩ := interpret_eq_some_iff.mp hrun
    obtain ⟨r', s₂', hhalts', hend⟩ := halts_like hS hclosed hhost h hplace hhalts
    obtain ⟨fuel, hrun'⟩ := interpret_eq_some_iff.mpr ⟨s₂', hreaches.halts hhalts', rfl⟩
    exact ⟨fuel, r', _, hrun', hend.result, alike_leftBy hC hend⟩
  · obtain ⟨s₂', hhalts', rfl⟩ := interpret_eq_some_iff.mp hrun
    obtain ⟨r, s₂, hhalts, hend⟩ := halts_like_right hS hclosed hhost h hplace (hhalts'.after hreaches)
    obtain ⟨fuel, hrun'⟩ := interpret_eq_some_iff.mpr ⟨s₂, hhalts, rfl⟩
    exact ⟨fuel, r, _, hrun', hend.result, alike_leftBy hC hend⟩

variable (h : (s.start c).Like C (s'.start c'))
  (hplace : (s.start c).thread.AtPlace C (s'.start c').thread)
include h hplace

theorem runsAgree_of_like : RunsAgree C.function host c s c' s' :=
  runsAgree_of_reaches hS hclosed hhost hC (.refl _) h hplace

theorem sessionsAgree_of_like : SessionsAgree C.function host c s c' s' := by
  have hpool : (Pool.beginning s.thread c s.world).Like C (.beginning s'.thread c' s'.world) :=
    ⟨.cons ⟨h.thread, .main none none, .running hplace⟩ .nil, h.world⟩
  refine ⟨fun n P hmoves => ?_, fun n P' hmoves => ?_⟩
  · obtain ⟨m, P', hmoves', hlike⟩ := moves_like hS hclosed hhost hpool hmoves
    exact ⟨m, P', hmoves', hlike.alike hC⟩
  · obtain ⟨m, P, hmoves', hlike⟩ := moves_like_right hS hclosed hhost hpool hmoves
    exact ⟨m, P, hmoves', hlike.alike hC⟩

end

/-! ## Threads at rest -/

/-- Values that refer to functions with a property only. -/
def Realm.holding (Z : Function → Prop) : Realm :=
  ⟨fun _ => True, Z, Z, fun _ => True, True, 0, 0⟩

/-- All functions that a thread at rest can get at have a property, and no spawned call waits. -/
structure Holds (Z : Function → Prop) (s : State) : Prop where
  windows : s.thread.windows = []
  globals : s.thread.globals.In (.holding Z)
  methods : ∀ ms ∈ s.world.heap.classes, ∀ e ∈ ms.entries, Z e.2
  fields : ∀ fs ∈ s.world.heap.instances, fs.In (.holding Z)
  pending : s.world.pending = []

theorem holds_empty (Z : Function → Prop) : Holds Z ⟨{}, {}⟩ where
  windows := rfl
  globals := fun _ he => absurd he List.not_mem_nil
  methods := fun _ h => absurd h (Array.not_mem_empty _)
  fields := fun _ h => absurd h (Array.not_mem_empty _)
  pending := rfl

section
variable {Z : Function → Prop} {C : Correspondence} {s : State}

theorem related_of_in (hZ : ∀ f, Z f → C.function f f) {t : Table String Value}
    (h : t.In (.holding Z)) : t.Related (Value.Like C.function) t :=
  .refl t fun e he => Value.Like.of_in hZ hZ e.2 (h e he)

/-- A thread that begins to run corresponds to itself if all that it can get at does. -/
theorem Holds.start_like (h : Holds Z s) (hZ : ∀ f, Z f → C.function f f) (hC : C.numbers = 0)
    (hlead : C.lead s.thread.id = 0) (hfresh : C.fresh s.thread.id (s.thread.loaded + 1))
    (c c' : Chunk) : (s.start c).Like C (s.start c') where
  thread := {
    id := rfl
    globals := related_of_in hZ h.globals
    stack := .empty
    frames := .empty
    base := rfl
    handler := .none
    windows := by
      simp only [State.start, Thread.start, h.windows]
      exact .nil
    imports := rfl
    loaded := by
      simp only [State.start, Thread.start, hlead, Nat.add_zero]
    spawned := rfl
    fresh := hfresh }
  world := {
    heap := ⟨.refl _ fun ms hms => .refl ms fun e he => hZ _ (h.methods ms hms e he),
      .refl _ fun fs hfs => related_of_in hZ (h.fields fs hfs)⟩
    files := rfl
    printed := rfl
    reports := .refl _ fun line _ => .same line
    threads := by simp only [State.start, hC, Nat.add_zero]
    pending := by
      simp only [State.start, h.pending]
      exact .nil
    now := rfl
    questions := rfl }

end

end DotScript.Machine
