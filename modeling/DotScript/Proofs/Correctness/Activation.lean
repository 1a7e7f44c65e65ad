import DotScript.Proofs.Machine.Instruction
import DotScript.Proofs.Machine.Runs
import DotScript.Proofs.Semantics.Evaluation

/-!
# Following an evaluation

While a piece of a program is evaluated, the machine is in one activation: a call, or the program
itself. What does not change in it is an `Activation`; the state of the machine is then computed
from the store, an address and the values that are not yet used.

`Follows` says what the machine does for each way in which an evaluation ends. It composes like the
evaluation itself: `Follows.bind` for one part after the other, `Follows.step` for an instruction.
-/

namespace DotScript.Correctness

open DotScript.Machine DotScript.Compile DotScript.Semantics DotScript.Bytecode

/-! ## Locals on the stack -/

/-- Locals on the stack, the oldest first. -/
def values (locals : List (String × Value)) : Array Value := (locals.map (·.2)).reverse.toArray

theorem size_values (locals : List (String × Value)) : (values locals).size = locals.length := by
  simp [values]

theorem values_cons (name : String) (v : Value) (locals : List (String × Value)) :
    values ((name, v) :: locals) = (values locals).push v := by
  simp [values]

theorem slotOf_eq_none {name : String} {locals : List (String × Value)}
    (h : slotOf name (locals.map (·.1)) = none) : Table.find? name locals = none := by
  have hsome := isSome_slotOf name locals
  rw [h] at hsome
  exact Option.isSome_eq_false_iff.mp hsome.symm |> Option.isNone_iff_eq_none.mp

/-- A local is found on the stack at its slot. -/
theorem slotOf_eq_some {name : String} {locals : List (String × Value)} {slot : Nat}
    (h : slotOf name (locals.map (·.1)) = some slot) :
    ∃ v, Table.find? name locals = some v ∧ (values locals)[slot]? = some v := by
  induction locals with
  | nil => cases h
  | cons l locals ih =>
    obtain ⟨n, v⟩ := l
    simp only [List.map_cons, slotOf, List.length_map] at h
    rw [values_cons]
    split at h
    · next heq =>
      cases h
      refine ⟨v, by simp only [Table.find?, if_pos heq], ?_⟩
      rw [← size_values, Array.getElem?_push_size]
    · next hne =>
      obtain ⟨u, hfind, hget⟩ := ih h
      refine ⟨u, by simp only [Table.find?, if_neg hne]; exact hfind, ?_⟩
      obtain ⟨hlt, -⟩ := Array.getElem?_eq_some_iff.mp hget
      rw [Array.getElem?_push_lt hlt, ← hget, Array.getElem?_eq_getElem hlt]

theorem setIfInBounds_push (xs : Array Value) (i : Nat) (x y : Value) :
    (xs.push x).setIfInBounds i y =
      if i = xs.size then xs.push y else (xs.setIfInBounds i y).push x := by
  apply Array.ext_getElem?
  intro j
  grind

/-- Writing a local writes its slot. -/
theorem values_put {name : String} {locals : List (String × Value)} {slot : Nat} (v : Value)
    (h : slotOf name (locals.map (·.1)) = some slot) :
    values (Table.put name v locals) = (values locals).setIfInBounds slot v ∧
      (Table.put name v locals).map (·.1) = locals.map (·.1) := by
  induction locals with
  | nil => cases h
  | cons l locals ih =>
    obtain ⟨n, u⟩ := l
    simp only [List.map_cons, slotOf, List.length_map] at h
    by_cases heq : n = name
    · simp only [heq, if_true, Option.some.injEq] at h
      simp only [Table.put, heq, if_true, values_cons, List.map_cons]
      subst h
      refine ⟨?_, trivial⟩
      rw [← size_values, setIfInBounds_push, if_pos rfl]
    · simp only [heq, if_false] at h
      obtain ⟨hvalues, hnames⟩ := ih h
      obtain ⟨_, -, hget⟩ := slotOf_eq_some h
      obtain ⟨hlt, -⟩ := Array.getElem?_eq_some_iff.mp hget
      simp only [Table.put, heq, if_false, values_cons, List.map_cons, hvalues, hnames]
      refine ⟨?_, trivial⟩
      rw [setIfInBounds_push, if_neg (Nat.ne_of_lt hlt)]

/-! ## Activations -/

/-- A call in progress or the program itself: the thread apart from what changes, the values below
its locals, and the handler that is in force when one is armed. -/
structure Activation where
  thread : Thread
  lower : Array Value
  handler : Option Handler

namespace Activation

/-- The state at an address with a store and values not yet used. -/
def state (x : Activation) (a : Nat) (σ : Store) (temps : Array Value) : State :=
  ⟨{ x.thread with
      ip := a
      stack := x.lower ++ values σ.locals ++ temps
      handler := if σ.armed then x.handler else none
      globals := σ.globals }, σ.world⟩

/-- The state in which a handler goes on. -/
def caught (x : Activation) (h : Handler) (e : RuntimeError) (σ : Store) : State :=
  ⟨(x.state 0 σ #[]).thread.enterHandler h e, σ.world⟩

/-- A state with a value to return on the stack. -/
def returning (x : Activation) (a : Nat) (st : Array Value) (handler : Option Handler) (v : Value)
    (σ : Store) : State :=
  ⟨{ x.thread with ip := a, stack := (x.lower ++ st).push v, handler, globals := σ.globals },
    σ.world⟩

/-- An activation of a thread in the code of an image, with at least `n` locals. -/
structure Sound (x : Activation) (id : ThreadId) (image : Image) (n : Nat) : Prop where
  id : x.thread.id = id
  image : x.thread.image = image
  base : x.thread.base = x.lower.size
  windows : x.thread.windows = []
  depth : ∀ h, x.handler = some h → h.depth ≤ x.thread.frames.size
  height : ∀ h, x.handler = some h → h.height ≤ x.lower.size + n

/-- A store with locals of given names, in which nothing is armed without a handler. -/
structure Fits (x : Activation) (ns : List String) (σ : Store) : Prop where
  names : σ.locals.map (·.1) = ns
  armed : σ.armed → x.handler.isSome

theorem Sound.mono {x : Activation} {id : ThreadId} {image : Image} {n m : Nat}
    (hx : x.Sound id image n) (h : n ≤ m) : x.Sound id image m :=
  { hx with height := fun hd hhd => Nat.le_trans (hx.height hd hhd) (by omega) }

theorem Fits.size_values {x : Activation} {ns : List String} {σ : Store} (h : x.Fits ns σ) :
    (values σ.locals).size = ns.length := by
  rw [Correctness.size_values, ← h.names, List.length_map]

end Activation

/-! ## States of an activation -/

section
variable {x : Activation} {id : ThreadId} {image : Image} {ns : List String} {a : Nat} {σ : Store}
  {temps : Array Value}

theorem stack_push (lower locals temps : Array Value) (v : Value) :
    lower ++ locals ++ temps.push v = (lower ++ locals ++ temps).push v := by
  simp

theorem take_append_of_le {α : Type} {xs : Array α} (ys : Array α) {n : Nat} (h : n ≤ xs.size) :
    (xs ++ ys).take n = xs.take n := by
  apply Array.toList_inj.mp
  simp only [Array.take_eq_extract, Array.toList_extract, Array.toList_append,
    List.extract_eq_take_drop, Nat.sub_zero, List.drop_zero]
  exact List.take_append_of_le_length (by simpa using h)

theorem take_push_append {α : Type} (xs ys : Array α) (v : α) :
    (xs.push v ++ ys).take xs.size = xs := by
  rw [← Array.append_singleton, Array.append_assoc, take_append_of_le _ (Nat.le_refl _),
    Array.take_eq_extract, Array.extract_size]

/-- Values not yet used do not reach a handler. -/
theorem enterHandler_state (hx : x.Sound id image ns.length) (hσ : x.Fits ns σ) {h : Handler}
    (hh : x.handler = some h) (e : RuntimeError) :
    (x.state a σ temps).thread.enterHandler h e = (x.state 0 σ #[]).thread.enterHandler h e := by
  have hheight : h.height ≤ (x.lower ++ values σ.locals).size := by
    rw [Array.size_append, hσ.size_values]
    exact hx.height h hh
  have htake : (x.lower ++ values σ.locals ++ temps).take h.height =
      (x.lower ++ values σ.locals ++ #[]).take h.height := by
    rw [take_append_of_le _ hheight, take_append_of_le _ hheight]
  simp only [Activation.state, Thread.enterHandler, htake]

end

/-! ## Following -/

section
variable (host : Host) (n : Nat) (x : Activation) (ns : List String) {α β : Type}

/-- What the machine does from a state while an evaluation runs that ends in a given way. A normal
end leads to the state `Q`; `n` is how many steps it can take when the bound is reached. Nothing is
said of a machine that overflows, or of an evaluation that is stuck. -/
def Follows (s : State) (Q : α → Store → State) (r : EStateM.Result Stop Store α) : Prop :=
  Calm host s →
    match r with
    | .ok v σ => x.Fits ns σ ∧ Reaches host s (Q v σ)
    | .error (.raised e) σ => x.Fits ns σ ∧ ∃ h, x.handler = some h ∧ Reaches host s (x.caught h e σ)
    | .error (.fatal e) σ =>
      ∃ s', Halts host s (.error e) s' ∧ s'.thread.globals = σ.globals ∧ s'.world = σ.world
    | .error (.returned v) σ =>
      ∃ a st handler, OpAt x.thread.image.chunk a .ret ∧
        Reaches host s (x.returning a st handler v σ)
    | .error .exhausted _ => ∃ s', Steps host n s s'
    | .error .stuck _ => True

end

namespace Follows

variable {host : Host} {n : Nat} {x : Activation} {ns : List String} {α β : Type}
  {s s' : State} {Q : α → Store → State} {R : β → Store → State}

theorem ok {v : α} {σ : Store} (hσ : x.Fits ns σ) (h : Q v σ = s) :
    Follows host n x ns s Q (.ok v σ) := by
  subst h
  exact fun _ => ⟨hσ, .refl _⟩

theorem calm {r : EStateM.Result Stop Store α}
    (h : Calm host s → Follows host n x ns s Q r) : Follows host n x ns s Q r :=
  fun hcalm => h hcalm hcalm

/-- What follows some steps of the machine. -/
theorem of_reaches {r : EStateM.Result Stop Store α} (h : Reaches host s s')
    (hr : Follows host n x ns s' Q r) : Follows host n x ns s Q r := by
  intro hcalm
  have hr := hr (hcalm.of_reaches h)
  match r, hr with
  | .ok v σ, ⟨hσ, hr⟩ => exact ⟨hσ, h.trans hr⟩
  | .error (.raised e) σ, ⟨hσ, hd, hhd, hr⟩ => exact ⟨hσ, hd, hhd, h.trans hr⟩
  | .error (.fatal e) σ, ⟨s', hr, hσ⟩ => exact ⟨s', h.halts hr, hσ⟩
  | .error (.returned v) σ, ⟨a, st, handler, hop, hr⟩ =>
    exact ⟨a, st, handler, hop, h.trans hr⟩
  | .error .exhausted σ, ⟨s', hr⟩ =>
    obtain ⟨m, h⟩ := h
    obtain ⟨s₁, hfirst, -⟩ := (h.trans hr).initial (Nat.le_add_left n m)
    exact ⟨s₁, hfirst⟩
  | .error .stuck σ, _ => trivial

theorem mono {m : Nat} {r : EStateM.Result Stop Store α} (hm : m ≤ n)
    (hr : Follows host n x ns s Q r) : Follows host m x ns s Q r := by
  intro hcalm
  have hr := hr hcalm
  match r, hr with
  | .ok v σ, hr => exact hr
  | .error (.raised e) σ, hr => exact hr
  | .error (.fatal e) σ, hr => exact hr
  | .error (.returned v) σ, hr => exact hr
  | .error .exhausted σ, ⟨s', hr⟩ =>
    obtain ⟨s₁, hfirst, -⟩ := hr.initial hm
    exact ⟨s₁, hfirst⟩
  | .error .stuck σ, _ => trivial

/-- What follows an evaluation that has ended normally. -/
theorem afterOk {v : α} {σ : Store} {r : EStateM.Result Stop Store β}
    (h : Follows host n x ns s Q (.ok v σ)) (hr : Follows host n x ns (Q v σ) R r) :
    Follows host n x ns s R r :=
  calm fun hcalm => of_reaches (h hcalm).2 hr

/-- One evaluation after the other. -/
theorem bind {e : Eval α} {f : α → Eval β} {σ : Store} (he : Follows host n x ns s Q (e σ))
    (hf : ∀ v σ', e σ = .ok v σ' → x.Fits ns σ' → Follows host n x ns (Q v σ') R (f v σ')) :
    Follows host n x ns s R ((e >>= f) σ) := by
  intro hcalm
  have he := he hcalm
  cases hr : e σ with
  | ok v σ' =>
    rw [hr] at he
    obtain ⟨hσ', hreach⟩ := he
    rw [bind_of_ok hr]
    exact of_reaches hreach (hf v σ' hr hσ') hcalm
  | error stop σ' =>
    rw [hr] at he
    rw [bind_of_error hr]
    cases stop <;> exact he

/-- An instruction, and what follows it. -/
theorem step {r : EStateM.Result Stop Store α} (h : instruction host s = .ok none s')
    (hr : Follows host n x ns s' Q r) : Follows host n x ns s Q r := by
  refine of_reaches (.step ?_) hr
  simp only [Machine.step, h]

/-- The bound counts the steps of the machine from below. -/
theorem step_succ {r : EStateM.Result Stop Store α} (h : instruction host s = .ok none s')
    (hr : Follows host n x ns s' Q r) : Follows host (n + 1) x ns s Q r := by
  have hstep : Machine.step host s = .running s' := by simp only [Machine.step, h]
  refine calm fun hcalm => ?_
  cases r with
  | ok v σ => exact step h hr
  | error stop σ =>
    cases stop with
    | exhausted =>
      obtain ⟨s₁, hsteps⟩ := hr (hcalm.of_reaches (.step hstep))
      exact fun _ => ⟨s₁, s', hstep, hsteps⟩
    | _ => exact step h hr

/-- An instruction after an evaluation. -/
theorem andThen {r : EStateM.Result Stop Store α} {Q' : α → Store → State}
    (hr : Follows host n x ns s Q r)
    (h : ∀ v σ, x.Fits ns σ → instruction host (Q v σ) = .ok none (Q' v σ)) :
    Follows host n x ns s Q' r := by
  intro hcalm
  have hr := hr hcalm
  cases r with
  | ok v σ =>
    obtain ⟨hσ, hreach⟩ := hr
    refine ⟨hσ, hreach.trans (.step ?_)⟩
    simp only [Machine.step, h v σ hσ]
  | error stop σ => cases stop <;> exact hr

/-- An instruction that fails. -/
theorem fail {id : ThreadId} {image : Image} {a : Nat} {σ : Store} {temps : Array Value}
    {e : RuntimeError} (hx : x.Sound id image ns.length) (hσ : x.Fits ns σ)
    (h : instruction host s = .error e (x.state a σ temps)) :
    Follows host n x ns s Q (Semantics.fail e σ) := by
  intro _
  have hwindows : (x.state a σ temps).thread.windows = [] := hx.windows
  cases harmed : σ.armed with
  | true =>
    obtain ⟨hd, hhd⟩ := Option.isSome_iff_exists.mp (hσ.armed harmed)
    have hraise : (x.state a σ temps).thread.raise [] e =
        .ok ((x.state a σ temps).thread.enterHandler hd e) := by
      simp only [Thread.raise, Activation.state, harmed, if_true, hhd]
    simp only [fail_apply, harmed, if_true]
    refine ⟨hσ, hd, hhd, .step ?_⟩
    simp only [Machine.step, h, hwindows, hraise, enterHandler_state hx hσ hhd]
    rfl
  | false =>
    have hraise : (x.state a σ temps).thread.raise [] e =
        .error (e, (x.state a σ temps).thread) := by
      simp only [Thread.raise, Activation.state, harmed]
      rfl
    simp only [fail_apply, harmed, Bool.false_eq_true, if_false]
    refine ⟨x.state a σ temps, ⟨1, ?_⟩, rfl, rfl⟩
    simp only [run, Machine.step, h, hwindows, hraise]

/-- An instruction that pushes the result of an operation. -/
theorem operated {id : ThreadId} {image : Image} {a : Nat} {σ : Store} {temps : Array Value}
    {r : Except RuntimeError Value} (hx : x.Sound id image ns.length) (hσ : x.Fits ns σ)
    (h : instruction host s =
      Machine.operated host r (x.state a σ temps).thread (x.state a σ temps).world) :
    Follows host n x ns s (fun v σ' => x.state a σ' (temps.push v)) (attempt r σ) := by
  cases r with
  | error e => exact fail hx hσ h
  | ok v =>
    refine calm fun hcalm => ?_
    simp only [Machine.operated, pushed] at h
    split at h
    · exact absurd h hcalm.here
    · refine step h (ok hσ ?_)
      simp only [Activation.state, stack_push]

end Follows

end DotScript.Correctness
