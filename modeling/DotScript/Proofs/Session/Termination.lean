import DotScript.Proofs.Machine.Descent
import DotScript.Proofs.Session.Compiled

/-!
# Programs without loops end

The numbers of words ahead of the activations of a thread go down with each step, and there are no
more of them than the limits of calls and imports allow. Lists of bounded length cannot go down
forever, so each run of code without loops ends, however its limits are set and however often it
fails and catches its failures.

Main statement: `exists_interpret`.
-/

namespace DotScript.Machine

open DotScript.Bytecode DotScript.Compile DotScript.Syntax

/-- Lists of bounded length do not go down forever. -/
theorem acc_lower (n : Nat) (xs : List Nat) (hxs : xs.length ≤ n) :
    Acc (fun ys xs => ys.length ≤ n ∧ Lower ys xs) xs := by
  induction n generalizing xs with
  | zero =>
    rw [List.eq_nil_of_length_eq_zero (Nat.le_zero.mp hxs)]
    exact .intro _ fun ys hys => by cases hys.2
  | succ n ih =>
    have hcons : ∀ x xs, xs.length ≤ n →
        Acc (fun ys xs => ys.length ≤ n + 1 ∧ Lower ys xs) (x :: xs) := by
      intro x
      induction x using Nat.strongRecOn with
      | _ x ihx =>
        intro xs hxs
        have hacc := ih xs hxs
        clear hxs
        induction hacc with
        | intro xs _ ihxs =>
          refine .intro _ fun ys hys => ?_
          obtain ⟨hlength, hlower⟩ := hys
          cases hlower with
          | nil => exact .intro _ fun zs hzs => by cases hzs.2
          | rel hlt => exact ihx _ hlt _ (Nat.le_of_succ_le_succ hlength)
          | cons hlower => exact ihxs _ ⟨Nat.le_of_succ_le_succ hlength, hlower⟩
    cases xs with
    | nil => exact .intro _ fun ys hys => by cases hys.2
    | cons x xs => exact hcons x xs (Nat.le_of_succ_le_succ hxs)

section
variable {R : Realm} {host : Host} {t : Thread} {past : List Thread} {Ls : List Level} {w : World}

/-- There are as many activations as the limits allow at most. -/
theorem Thread.Sound.length_ahead_le (h : t.Sound host.limits past) :
    t.ahead.length ≤ host.limits.frames + host.limits.imports + 1 := by
  rw [t.length_ahead]
  have hframes := h.frames
  have himports := h.imports
  have hle := h.imports_le
  omega

/-- The run of code without loops ends. -/
theorem Runs.exists_run (hR : R.OfCode) (hinert : host.InertIn R) (hload : host.LoadsFrom R.program)
    (hfree : ∀ p, R.program p → ¬ Loops p) (hhistory : History host (t :: past))
    (h : Runs R (t :: past) Ls) (hw : w.In R) :
    ∃ fuel r s', run host fuel ⟨t, w⟩ = some (r, s') := by
  have hacc := acc_lower _ t.ahead hhistory.sound_state.length_ahead_le
  generalize hahead : t.ahead = xs at hacc
  induction hacc generalizing t past Ls w with
  | intro xs _ ih =>
    subst hahead
    have hnext := h.next hR hinert hload hw
    cases hstep : step host ⟨t, w⟩ with
    | finished v s' => exact ⟨1, .ok v, s', by rw [run, hstep]⟩
    | failed e s' => exact ⟨1, .error e, s', by rw [run, hstep]⟩
    | running s' =>
      have hlower := h.ahead_lt hR hinert hload hfree hw hstep
      rw [hstep] at hnext
      cases hnext with
      | running hruns hw' =>
        have hhistory' := hhistory.next ⟨w, s'.world, hstep⟩
        obtain ⟨fuel, r, s'', hrun⟩ :=
          ih _ ⟨hhistory'.sound_state.length_ahead_le, hlower⟩ hhistory' hruns hw' rfl
        exact ⟨fuel + 1, r, s'', by rw [run, hstep]; exact hrun⟩

end

/-- Programs without `while` end. Take any session of such programs, with modules of the same kind
and natives that bring no functions, bound methods, classes or instances: whatever has happened in
it, and whatever the limits are, the run of one more of these programs comes to a value or an error
after finitely many steps. -/
theorem exists_interpret (host : Host) (hinert : host.Inert)
    (hload : host.LoadsFrom fun p => p.loopFree = true) (P : Pool)
    (h : Reachable host (CompiledFrom fun p => p.loopFree = true) P) (t : Thread)
    (past : List Thread) (work : Work) (activity : Activity) (cells : List Cell)
    (hcells : P.cells = ⟨t, past, work, activity⟩ :: cells) (hidle : activity ≠ .running)
    (p : Program) (c : Chunk) (hc : CompiledFrom (fun p => p.loopFree = true) p c) :
    ∃ fuel r s', interpret host fuel c ⟨t, P.world⟩ = some (r, s') := by
  obtain ⟨heap, hgood⟩ := exists_good hinert hload h
  have hcell := hgood.cells _ (hcells ▸ List.mem_cons_self)
  obtain ⟨hglobals, hwindows, himports⟩ := hcell.rests hidle
  have hR := codeRealm_ofCode (fun p => p.loopFree = true) heap
  have hfree : ∀ p, p.loopFree = true → ¬ Loops p :=
    fun p hp ⟨x, cond, body, span, hocc⟩ => not_occurs_whileLoop hp hocc
  obtain ⟨fuel, r, s', hrun⟩ := Runs.exists_run hR (hinert _ trivial fun _ => trivial) hload hfree
    (.begin (.start hwindows himports c)) (Runs.start hR hc hglobals hwindows) hgood.world
  cases r with
  | ok v => exact ⟨fuel, .ok v, s', by simp only [interpret, hrun]; rfl⟩
  | error e => exact ⟨fuel, .error e, _, by simp only [interpret, hrun]; rfl⟩

/-- A program that calls itself without end, and once more wherever that has failed for want of
frames: `fun f: try: f() catch e: f() . . f()` -/
def callsTwice : Program where
  stmts :=
    [.function ⟨⟨"f", ⟨4, 5⟩⟩, [],
      ⟨[.tryCatch ⟨[.expr (.call (.var ⟨"f", ⟨12, 13⟩⟩) [] ⟨12, 15⟩)], ⟨12, 15⟩⟩ ⟨"e", ⟨22, 23⟩⟩
        ⟨[.expr (.call (.var ⟨"f", ⟨25, 26⟩⟩) [] ⟨25, 28⟩)], ⟨25, 30⟩⟩ ⟨7, 30⟩], ⟨7, 32⟩⟩, ⟨0, 32⟩⟩,
     .expr (.call (.var ⟨"f", ⟨33, 34⟩⟩) [] ⟨33, 36⟩)]
  span := ⟨0, 36⟩

/-- It ends. -/
theorem exists_interpret_callsTwice : ∃ c fuel r s', Compiled callsTwice c ∧
    interpret (Session.hostWith { frames := 3 } none) fuel c ⟨{}, {}⟩ = some (r, s') := by
  obtain ⟨c, ⟨-, hc⟩, -⟩ := exists_compiled callsTwice "main" (fun _ => true) (by decide +kernel)
  have hfree : CompiledFrom (fun p => p.loopFree = true) callsTwice c := ⟨by decide, hc⟩
  have hP : Reachable (Session.hostWith { frames := 3 } none)
      (CompiledFrom fun p => p.loopFree = true) ⟨[⟨{}, [], .main none, .idle⟩], {}⟩ :=
    .initial nofun rfl rfl rfl
  obtain ⟨fuel, r, s', hrun⟩ := exists_interpret (Session.hostWith { frames := 3 } none)
    (Natives.inert_of_callForHost rfl) nofun _ hP _ _ _ _ _ rfl nofun callsTwice c hfree
  exact ⟨c, fuel, r, s', ⟨trivial, hc⟩, hrun⟩

end DotScript.Machine
