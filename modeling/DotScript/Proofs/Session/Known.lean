import Mathlib.Logic.Relation
import DotScript.Proofs.Correspondence.Relocation
import DotScript.Proofs.Machine.Loading
import DotScript.Proofs.Session.Itself

/-!
# Units that a session knows

All functions that a session has anywhere are of units that its threads have loaded: a unit that the
main thread loads next is new. To say so, a session corresponds to itself where nothing but the units
loaded so far counts as the same.

* `known`: the units that are loaded before the main thread has loaded so many;
* `Pool.Known`: a session corresponds to itself; `exists_known`: so do all that come of new ones;
* `State.Known`: the main thread of such a session.
-/

namespace DotScript.Machine

open DotScript.Bytecode DotScript.Compile DotScript.Syntax

/-! ## Known units -/

/-- The units that are there before the thread `id`, the main thread, has loaded more than `n`. -/
def known (id : ThreadId) (n : Nat) : Relocation where
  units u v := u = v ∧ (u.thread = id → u.serial < n)
  functions := []
  places _ _ _ _ := False
  fresh i k := (i = id ∧ k ≤ n) ∨ id.length < i.length
  lead _ := 0

section
variable {id : ThreadId} {n : Nat}

theorem known_valid (id : ThreadId) (n : Nat) : (known id n).Valid where
  unique := by
    rintro u v u' v' ⟨rfl, -⟩ ⟨rfl, -⟩
    exact Iff.rfl
  apart := nofun
  header := nofun
  distinct := .nil
  entry := nofun
  load := by
    rintro i k h hnext
    refine ⟨rfl, fun heq => ?_⟩
    change i = id at heq
    rcases hnext with ⟨-, hk⟩ | hlength
    · exact hk
    · rw [heq] at hlength
      exact absurd hlength (Nat.lt_irrefl _)
  child := by
    rintro i k h j
    refine ⟨.inr ?_, rfl⟩
    rcases h with ⟨rfl, -⟩ | hlength
    · exact Nat.lt_succ_self _
    · exact Nat.lt_succ_of_lt hlength

/-- Known functions are those of known units. -/
theorem known_same {f g : Function} (h : (known id n).Same f g) :
    f = g ∧ (f.image.id.thread = id → f.image.id.serial < n) := by
  rcases h with ⟨⟨hid, hknown⟩, hchunk, hname, harity, hentry⟩ | h
  · obtain ⟨name, arity, entry, ⟨i, c⟩⟩ := f
    obtain ⟨name', arity', entry', ⟨i', c'⟩⟩ := g
    cases hid
    cases hchunk
    cases hname
    cases harity
    cases hentry
    exact ⟨rfl, hknown⟩
  · exact nomatch (h : (f, g) ∈ [])

/-- The same instruction stands at the same place of a known unit. -/
theorem known_meets {i j : Image} {a b : Nat} (h : (known id n).correspondence.place i a j b) :
    Meets (known id n).correspondence i a j b := by
  obtain ⟨hid, hchunk, rfl⟩ | h := h
  · exact Relocation.meets_units hid hchunk a
  · exact False.elim h

/-- A spawned call has a longer name. -/
theorem lt_length_of_like {t t' : Thread}
    (h : (Job.script t).Like (known id n).correspondence (.script t')) :
    id.length < t'.id.length := by
  obtain ⟨⟩ := h
  rename_i fresh _ _ _
  rcases fresh with ⟨rfl, -⟩ | hlength
  · exact Nat.lt_succ_self _
  · exact Nat.lt_succ_of_lt hlength

/-! ## Threads of a session -/

/-- The main thread of a session has a name of its own: those of spawned calls are longer. -/
def Headed (id : ThreadId) (cells : List Cell) : Prop :=
  ∃ c cs, cells = c :: cs ∧ c.thread.id = id ∧ ∀ d ∈ cs, id.length < d.thread.id.length

/-- What has become of a thread. -/
def Cell.Later (c c' : Cell) : Prop := c.thread.Later c'.thread

/-- No thread of the name has loaded more than `n` units. -/
def LoadedBy (id : ThreadId) (n : Nat) (cells : List Cell) : Prop :=
  ∀ c ∈ cells, c.thread.id = id → c.thread.loaded ≤ n

variable {cells cells' more : List Cell}

theorem Headed.later (h : Headed id cells) (hlater : List.Forall₂ Cell.Later cells cells') :
    Headed id cells' := by
  obtain ⟨c, cs, rfl, hid, hrest⟩ := h
  cases hlater with
  | @cons _ c' _ cs' hc hcs =>
    refine ⟨c', cs', rfl, hc.id.trans hid, ?_⟩
    clear hc
    induction hcs with
    | nil => exact List.forall_mem_nil _
    | @cons d d' ds ds' hd _ ih =>
      intro e he
      rcases List.mem_cons.mp he with rfl | he
      · rw [hd.id]
        exact hrest d List.mem_cons_self
      · exact ih (fun x hx => hrest x (List.mem_cons_of_mem _ hx)) e he

theorem Headed.append (h : Headed id cells) (hmore : ∀ d ∈ more, id.length < d.thread.id.length) :
    Headed id (cells ++ more) := by
  obtain ⟨c, cs, rfl, hid, hrest⟩ := h
  refine ⟨c, cs ++ more, rfl, hid, fun d hd => ?_⟩
  exact (List.mem_append.mp hd).elim (hrest d) (hmore d)

/-- The main thread is the only one of its name. -/
theorem Headed.loadedBy {c : Cell} (h : Headed id (c :: cells)) :
    LoadedBy id c.thread.loaded (c :: cells) := by
  obtain ⟨_, _, ⟨⟩, -, hrest⟩ := h
  intro d hd hid
  rcases List.mem_cons.mp hd with rfl | hd
  · exact Nat.le_refl _
  · have hlength := hrest d hd
    rw [hid] at hlength
    exact absurd hlength (Nat.lt_irrefl _)

theorem LoadedBy.of_later (h : LoadedBy id n cells')
    (hlater : List.Forall₂ Cell.Later cells cells') : LoadedBy id n cells := by
  induction hlater with
  | nil => exact List.forall_mem_nil _
  | @cons c c' cs cs' hc _ ih =>
    intro d hd hid
    rcases List.mem_cons.mp hd with rfl | hd
    · exact Nat.le_trans hc.loaded (h c' List.mem_cons_self (hc.id.trans hid))
    · exact ih (fun x hx => h x (List.mem_cons_of_mem _ hx)) d hd hid

/-- One thread has gone on. -/
theorem later_replace {before after : List Cell} {c c' : Cell} (h : c.Later c') :
    List.Forall₂ Cell.Later (before ++ c :: after) (before ++ c' :: after) :=
  forall₂_replace (List.forall₂_same.mpr fun _ _ => .refl _) h
    (List.forall₂_same.mpr fun _ _ => .refl _)

end

/-! ## Known sessions -/

/-- A session knows its units: those that the main thread loads next are new. -/
structure Pool.Known (id : ThreadId) (P : Pool) : Prop where
  headed : Headed id P.cells
  like : ∀ n, LoadedBy id n P.cells → P.Like (known id n).correspondence P

section
variable {host : Host} {id : ThreadId} {n : Nat} {P P' : Pool}

/-- A unit that is loaded within the bound is known. -/
theorem not_leaves {t : Thread} (h : t.id = id → t.loaded ≤ n) :
    ¬ t.Leaves (known id n).correspondence t := by
  rintro ⟨k, hfresh, hnot, -, hloaded⟩
  rcases hfresh with ⟨hid, hk⟩ | hlength
  · have hle := h hid
    exact hnot (.inl ⟨hid, hloaded ▸ hle⟩)
  · exact hnot (.inr hlength)

theorem Outcome.later_cell (o : Outcome) {t : Thread} (h : t.Later o.thread) (past past' : List Thread)
    (work work' : Work) (activity : Activity) :
    Cell.Later ⟨t, past', work', activity⟩ (o.cell past work) := by
  cases o with
  | running s | finished v s => exact h
  | failed e s => exact ⟨h.id, h.loaded⟩

/-- Threads go on, and those of spawned calls are added. -/
theorem Pool.Step.later {code : Program → Chunk → Prop} (h : P.Step host code P') :
    ∃ cells more, P'.cells = cells ++ more ∧ List.Forall₂ Cell.Later P.cells cells ∧
      ∀ d ∈ more, ∃ task ∈ P.world.pending, task.job = .script d.thread := by
  have hsame : ∀ cells : List Cell, List.Forall₂ Cell.Later cells cells := fun cells =>
    List.forall₂_same.mpr fun _ _ => .refl _
  cases h with
  | move hmove =>
    obtain ⟨before, after, t, past, work, w, rfl, rfl⟩ | ⟨cells, w, before, task, after, rfl, hw, rfl⟩ :=
      hmove.cases
    · have hcell := (step host ⟨t, w⟩).later_cell (step_later host ⟨t, w⟩) (t :: past) past work work
        .running
      exact ⟨_, [], (List.append_nil _).symm, later_replace hcell, List.forall_mem_nil _⟩
    · obtain ⟨more, w', hjob, hmore⟩ :=
        Pool.launched_eq host { w with pending := before ++ after } task
      rw [hmore]
      refine ⟨cells, more, rfl, hsame cells, fun d hd => ⟨task, ?_, hjob d hd⟩⟩
      exact hw ▸ List.mem_append_right _ List.mem_cons_self
  | @begin t past work activity cells w p c hc hidle =>
    refine ⟨_, [], (List.append_nil _).symm, .cons ⟨rfl, Nat.le_succ _⟩ (hsame cells), ?_⟩
    exact List.forall_mem_nil _
  | @define t past work activity cells w name v hv hidle =>
    refine ⟨_, [], (List.append_nil _).symm, .cons ⟨rfl, Nat.le_refl _⟩ (hsame cells), ?_⟩
    exact List.forall_mem_nil _
  | @outside cells w w' hheap hpending =>
    exact ⟨cells, [], (List.append_nil _).symm, hsame cells, List.forall_mem_nil _⟩

theorem Pool.Initial.known (h : P.Initial) : ∃ id, P.Known id := by
  cases h with
  | @mk id globals w plain heap pending =>
    refine ⟨id, ⟨_, _, rfl, rfl, List.forall_mem_nil _⟩, fun n _ => ?_⟩
    refine Pool.Initial.like ⟨plain, heap, pending⟩ rfl fun c hc => ?_
    cases List.mem_singleton.mp hc
    exact ⟨.inl ⟨rfl, Nat.zero_le _⟩, rfl⟩

/-- A session knows its units, whatever happens. -/
theorem Pool.Known.step {code : Program → Chunk → Prop}
    (hhost : ∀ C : Correspondence, Interchangeable C.function → host.Respects C)
    (h : P.Known id) (hstep : P.Step host code P') : P'.Known id := by
  obtain ⟨cells, more, hcells, hlater, hmore⟩ := hstep.later
  have hlength : ∀ d ∈ more, id.length < d.thread.id.length := by
    intro d hd
    obtain ⟨task, htask, hjob⟩ := hmore d hd
    have hheaded := h.headed
    obtain ⟨c, cs, hP, -⟩ := hheaded
    have hlike := h.like c.thread.loaded (hP ▸ (hP ▸ h.headed).loadedBy)
    have hself := (List.forall₂_same.mp hlike.world.pending task htask).job
    rw [hjob] at hself
    exact lt_length_of_like hself
  refine ⟨hcells ▸ (h.headed.later hlater).append hlength, fun n hn => ?_⟩
  have hS := (known_valid id n).correspondence_sound
  have hbound : LoadedBy id n cells := fun c hc => hn c (hcells ▸ List.mem_append_left _ hc)
  exact (h.like n (hbound.of_later hlater)).step hS (hhost _ hS.functions) known_meets hstep
    fun c hc => not_leaves (hn c hc)

/-- In whatever comes of a new session, the units that the main thread loads next are new. -/
theorem exists_known {code : Program → Chunk → Prop}
    (hhost : ∀ C : Correspondence, Interchangeable C.function → host.Respects C)
    (h : Evolves host code P) : ∃ id, P.Known id := by
  induction h with
  | initial h => exact h.known
  | next _ hstep ih =>
    obtain ⟨id, hknown⟩ := ih
    exact ⟨id, hknown.step hhost hstep⟩

/-- A thread knows its units: those that it loads next are new to all that it can get at. -/
def State.Known (s : State) : Prop := s.Like (known s.thread.id s.thread.loaded).correspondence s

/-- The main thread of a session that knows its units does. -/
theorem Pool.Known.state {t : Thread} {past : List Thread} {work : Work} {activity : Activity}
    {cells : List Cell} {w : World} (h : Pool.Known id ⟨⟨t, past, work, activity⟩ :: cells, w⟩) :
    State.Known ⟨t, w⟩ := by
  have hheaded := h.headed
  obtain ⟨_, _, ⟨⟩, rfl, -⟩ := hheaded
  obtain ⟨hcells, hworld⟩ := h.like _ h.headed.loadedBy
  obtain ⟨hcell, -⟩ := List.forall₂_cons.mp hcells
  exact ⟨hcell.thread, hworld⟩

end

end DotScript.Machine
