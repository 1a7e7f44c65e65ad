/-!
# Running computations that may fail

Building code, carrying out instructions and evaluating programs are all computations on a state
that may fail and keep the state then. A sequence runs its first part, and its second part only if
the first did not fail.
-/

namespace DotScript

section
variable {ε σ α β : Type} {x : EStateM ε σ α} {f : α → EStateM ε σ β} {s t : σ}

theorem bind_of_ok {a : α} (h : x s = .ok a t) : (x >>= f) s = f a t := by
  simp only [bind, EStateM.bind, h]

theorem bind_of_error {e : ε} (h : x s = .error e t) : (x >>= f) s = .error e t := by
  simp only [bind, EStateM.bind, h]

theorem discard_of_ok {a : α} (h : x s = .ok a t) :
    (discard x : EStateM ε σ PUnit) s = .ok () t := by
  change EStateM.map (Function.const α PUnit.unit) x s = .ok () t
  simp only [EStateM.map, h, Function.const]

theorem bind_apply (x : EStateM ε σ α) (f : α → EStateM ε σ β) (s : σ) :
    (x >>= f) s =
      match x s with
      | .ok a t => f a t
      | .error e t => .error e t := by
  cases h : x s with
  | ok a t => exact bind_of_ok h
  | error e t => exact bind_of_error h

theorem bind_eq_ok {b : β} :
    (x >>= f) s = .ok b t ↔ ∃ a r, x s = .ok a r ∧ f a r = .ok b t := by
  cases h : x s with
  | ok a r =>
    rw [bind_of_ok h]
    constructor
    · intro hf
      exact ⟨a, r, rfl, hf⟩
    · rintro ⟨_, _, ⟨⟩, hf⟩
      exact hf
  | error e r =>
    rw [bind_of_error h]
    constructor
    · rintro ⟨⟩
    · rintro ⟨_, _, ⟨⟩, _⟩

theorem pure_apply (a : α) (s : σ) : (pure a : EStateM ε σ α) s = .ok a s := rfl

theorem get_apply (s : σ) : (get : EStateM ε σ σ) s = .ok s s := rfl

theorem modify_apply (f : σ → σ) (s : σ) : (modify f : EStateM ε σ PUnit) s = .ok () (f s) := rfl

theorem throw_apply (e : ε) (s : σ) : (throw e : EStateM ε σ α) s = .error e s := rfl

end

end DotScript
