import DotScript.Proofs.Json.Documents
import DotScript.Proofs.Machine.Keys
import DotScript.Proofs.Natives.Inert

/-!
# Keys of what natives give

The only maps that natives make are the values of JSON objects, which have each key once,
`keyed_of_parseJson`. So natives keep the values of a machine keyed: `keepsKeys_of_callForHost`.
-/

namespace DotScript

namespace Natives

open DotScript.Machine

/-! ## Calls -/

theorem keyed_of_bind {α : Type} {x : Except NativeError α} {f : α → Except NativeError Value}
    (hf : ∀ a v, f a = .ok v → v.Keyed) (v : Value) (h : (x >>= f) = .ok v) : v.Keyed := by
  cases x with
  | ok a => exact hf a v h
  | error e => cases h

/-- A value that is neither a list nor a map is keyed. -/
theorem keyed_of_ok {u v : Value} (hu : u.isAtom = true)
    (h : (Except.ok u : Except NativeError Value) = .ok v) : v.Keyed := by
  cases h
  exact Value.keyed_atom hu

variable {o : Outside}

theorem keyed_of_parseJson {text : String} {v : Value} (h : parseJson o text = .ok v) : v.Keyed := by
  refine keyed_of_bind (fun j u hu => ?_) v h
  cases hu
  exact Json.keyed_toValue j

theorem keyed_of_splitText {text pattern : String} {v : Value}
    (h : splitText o text pattern = .ok v) : v.Keyed := by
  refine keyed_of_bind (fun m u hu => ?_) v h
  cases hu
  exact Value.keyed_list.mpr (List.forall_mem_map.mpr fun _ _ => Value.keyed_atom rfl)

theorem keyed_of_fetched {address : String} {n : Nat} {v : Value}
    (h : fetched o address n = .ok v) : v.Keyed := by
  unfold fetched at h
  split at h <;> exact keyed_of_ok rfl h

theorem keyed_of_write {name path text : String} {w : World}
    {op : Files.FileTree → String → String → Except Files.FileError Files.FileTree} {v : Value}
    (h : (write name op path text w).1 = .ok v) : v.Keyed := by
  unfold write at h
  split at h <;> cases h <;> exact Value.keyed_atom rfl

theorem keyed_of_readFile {files : Files.FileTree} {path : String} {v : Value}
    (h : readFile files path = .ok v) : v.Keyed := by
  unfold readFile at h
  split at h
  · cases h
    exact Value.keyed_atom rfl
  · cases h

theorem keyed_of_call {b : Builtin} {args : List Value} {w : World} {v : Value}
    (h : (call b args w o).1 = .ok v) : v.Keyed := by
  have hatom {α : Type} {x : Except NativeError α} {f : α → Value} (hf : ∀ a, (f a).isAtom = true)
      (h : (do return f (← x)) = .ok v) : v.Keyed :=
    keyed_of_bind (fun a _ => keyed_of_ok (hf a)) v h
  unfold call at h
  split at h
  case h_1 | h_8 => exact hatom (fun _ => rfl) h
  case h_2 | h_6 => exact keyed_of_bind (fun _ _ => keyed_of_ok rfl) v h
  case h_3 => exact keyed_of_ok rfl h
  case h_4 =>
    exact keyed_of_bind (fun _ => keyed_of_bind fun _ _ => keyed_of_splitText) v h
  case h_5 =>
    exact keyed_of_bind (fun _ => keyed_of_bind fun _ => keyed_of_bind fun _ _ => keyed_of_ok rfl) v h
  case h_7 => exact keyed_of_bind (fun _ _ => keyed_of_parseJson) v h
  case h_9 => exact keyed_of_readFile h
  case h_10 | h_11 => exact keyed_of_write h
  case h_12 => exact keyed_of_fetched h
  case h_13 => cases h

/-- The natives of the language give keyed values, and leave those of the machine alone. -/
theorem keepsKeys_of_callForHost {host : Host} (h : host.call = callForHost o) : host.KeepsKeys := by
  intro b args w _ hw
  let R : Realm := ⟨fun _ => True, fun _ => True, fun _ => True, fun _ => True, True, 0, 0⟩
  have hleft : Harmless R w (call b args w o) := harmless_call o b args w
  rw [h]
  constructor
  · show (call b args w o).2.Keyed
    exact ⟨hleft.heap ▸ hw.heap, hleft.pending ▸ hw.pending⟩
  · intro v hv
    simp only [callForHost] at hv
    cases hr : (call b args w o).1 with
    | ok u =>
      rw [hr] at hv
      cases hv
      exact keyed_of_call hr
    | error e =>
      rw [hr] at hv
      cases hv

end Natives

end DotScript
