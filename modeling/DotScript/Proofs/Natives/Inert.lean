import DotScript.Natives.Call
import DotScript.Proofs.Machine.Realm
import DotScript.Proofs.Machine.Spawning

/-!
# Natives bring no script values

Every native gives a value without functions, bound methods, classes, instances or natives, and
leaves the heap and the spawned calls alone. But for the clock, the files and the net it depends on its
arguments only. All of this holds whatever natives take from outside. Main statements:
`inert_of_callForHost`, `pureIn_of_callForHost` and `leavesCalls_of_callForHost`.
-/

namespace DotScript

/-- Whether a native has to do with its arguments only, and not with the clock, files and the net. -/
def Builtin.isPure : Builtin → Bool
  | clock | readFile | writeFile | appendFile | httpGet => false
  | _ => true

namespace Natives

open DotScript.Machine

section
variable {R : Realm}

/-! ## Results -/

mutual

theorem in_toValue : (j : Json) → j.toValue.In R
  | .null => Value.in_null
  | .bool b => Value.in_bool b
  | .int i => Value.in_number _
  | .float n => Value.in_number n
  | .str s => Value.in_str s
  | .array items => by
    simp only [Json.toValue]
    exact Value.in_list.mpr (in_toValues items)
  | .object ⟨fields⟩ => by
    simp only [Json.toValue]
    exact Value.in_map.mpr (Table.forall_mem_ofList (in_toEntries fields))

theorem in_toValues : (js : List Json) → ∀ v ∈ Json.toValues js, v.In R
  | [] => by simp [Json.toValues]
  | j :: js => by
    simp only [Json.toValues, List.forall_mem_cons]
    exact ⟨in_toValue j, in_toValues js⟩

theorem in_toEntries : (fs : List (String × Json)) → ∀ e ∈ Json.toEntries fs, e.2.In R
  | [] => by simp [Json.toEntries]
  | (k, j) :: fs => by
    simp only [Json.toEntries, List.forall_mem_cons]
    exact ⟨in_toValue j, in_toEntries fs⟩

end

/-! ## Calls -/

/-- A result of the realm, from a world with the same heap and spawned calls. -/
structure Harmless (R : Realm) (w : World) (r : Except NativeError Value × World) : Prop where
  result : ∀ v, r.1 = .ok v → v.In R
  heap : r.2.heap = w.heap
  pending : r.2.pending = w.pending

theorem harmless_write (name : String)
    (op : Files.FileTree → String → String → Except Files.FileError Files.FileTree)
    (path text : String) (w : World) : Harmless R w (write name op path text w) := by
  unfold write
  split
  · exact ⟨by rintro v ⟨⟩; exact Value.in_bool _, rfl, rfl⟩
  · exact ⟨by rintro v ⟨⟩; exact Value.in_bool _, rfl, rfl⟩

theorem harmless_pureResult {w : World} {result : Except NativeError Value}
    (h : ∀ v, result = .ok v → v.In R) : Harmless R w (pureResult w result) := ⟨h, rfl, rfl⟩

theorem harmless_ok {w : World} {v : Value} (h : v.In R) : Harmless R w (.ok v, w) :=
  ⟨by rintro u ⟨⟩; exact h, rfl, rfl⟩

/-- The result of steps that may fail is that of the last of them. -/
theorem in_of_bind {α : Type} {x : Except NativeError α} {f : α → Except NativeError Value}
    (hf : ∀ a v, f a = .ok v → v.In R) {v : Value} (h : (x >>= f) = .ok v) : v.In R := by
  cases x with
  | ok a => exact hf a v h
  | error e => cases h

theorem in_splitText {o : Outside} {text pattern : String} {v : Value}
    (h : splitText o text pattern = .ok v) : v.In R := by
  refine in_of_bind (fun m u hu => ?_) h
  cases hu
  refine Value.in_list.mpr fun u hu => ?_
  obtain ⟨piece, -, rfl⟩ := List.mem_map.mp hu
  exact Value.in_str _

theorem in_parseJson {o : Outside} {text : String} {v : Value} (h : parseJson o text = .ok v) :
    v.In R := by
  refine in_of_bind (fun j u hu => ?_) h
  cases hu
  exact in_toValue j

theorem in_stringifyJson {o : Outside} {u v : Value} (h : stringifyJson o u = .ok v) : v.In R := by
  refine in_of_bind (fun text u hu => ?_) h
  cases hu
  exact Value.in_str _

theorem in_readClock {o : Outside} {now : Number} {n : Nat} {v : Value}
    (h : readClock o now n = .ok v) : v.In R := by
  refine in_of_bind (fun x u hu => ?_) h
  cases hu
  exact Value.in_number _

theorem in_fetched {o : Outside} {address : String} {n : Nat} {v : Value}
    (h : fetched o address n = .ok v) : v.In R := by
  unfold fetched at h
  split at h <;> cases h
  · exact Value.in_str _
  · exact Value.in_null

theorem in_readFile {files : Files.FileTree} {path : String} {v : Value}
    (h : readFile files path = .ok v) : v.In R := by
  unfold readFile at h
  split at h
  · cases h
    exact Value.in_str _
  · cases h

theorem harmless_ask {w : World} {answer : Nat → Except NativeError Value}
    (h : ∀ n v, answer n = .ok v → v.In R) : Harmless R w (ask answer w) := ⟨h w.questions, rfl, rfl⟩

theorem harmless_call (o : Outside) (b : Builtin) (args : List Value) (w : World) :
    Harmless R w (call b args w o) := by
  unfold call
  split
  case h_1 => exact harmless_ask fun n v => in_readClock
  case h_2 ms =>
    refine harmless_pureResult fun v h => in_of_bind (fun _ u hu => ?_) h
    cases hu
    exact Value.in_null
  case h_3 => exact harmless_ok (Value.in_number _)
  case h_4 =>
    exact harmless_pureResult fun v h => in_of_bind
      (fun _ u hu => in_of_bind (fun _ _ => in_splitText) hu) h
  case h_5 =>
    refine harmless_pureResult fun v h => in_of_bind (fun _ u hu => in_of_bind
      (fun _ u hu => in_of_bind (fun _ u hu => ?_) hu) hu) h
    cases hu
    exact Value.in_str _
  case h_6 =>
    refine harmless_pureResult fun v h => in_of_bind (fun _ u hu => ?_) h
    cases hu
    exact Value.in_str _
  case h_7 =>
    exact harmless_pureResult fun v h => in_of_bind (fun _ _ => in_parseJson) h
  case h_8 => exact harmless_pureResult fun v h => in_stringifyJson h
  case h_9 => exact harmless_pureResult fun v h => in_readFile h
  case h_10 => exact harmless_write _ _ _ _ _
  case h_11 => exact harmless_write _ _ _ _ _
  case h_12 => exact harmless_ask fun n v => in_fetched
  case h_13 => exact ⟨nofun, rfl, rfl⟩

end

variable {host : Host} {o : Outside} (h : host.call = callForHost o)

include h in
theorem inertIn_of_callForHost (R : Realm) :
    host.InertIn R where
  result := by
    intro b args w v w' _ hcall _ _
    rw [h] at hcall
    have hresult := (harmless_call (R := R) o b args w).result
    simp only [callForHost, Prod.mk.injEq] at hcall
    obtain ⟨hv, -⟩ := hcall
    cases hr : (call b args w o).1 with
    | ok u =>
      rw [hr] at hv
      cases hv
      exact hresult _ hr
    | error e =>
      rw [hr] at hv
      cases hv
  heap := by
    intro b args w r w' _ hcall _ hw
    rw [h] at hcall
    have hheap := (harmless_call (R := R) o b args w).heap
    simp only [callForHost, Prod.mk.injEq] at hcall
    rw [← hcall.2, hheap]
    exact hw
  pending := by
    intro b args w r w' _ hcall
    rw [h] at hcall
    have hpending := (harmless_call (R := R) o b args w).pending
    simp only [callForHost, Prod.mk.injEq] at hcall
    rw [← hcall.2, hpending]

include h in
/-- Natives bring no functions, bound methods, classes or instances of their own. -/
theorem inert_of_callForHost : host.Inert := fun R _ _ => inertIn_of_callForHost h R

/-! ## Natives without clock, files and net -/

theorem call_of_isPure (o : Outside) {b : Builtin} (hb : b.isPure = true) (args : List Value)
    (w w' : World) : call b args w o = ((call b args w' o).1, w) := by
  unfold call
  split
  case h_1 | h_9 | h_10 | h_11 | h_12 => cases hb
  all_goals rfl

include h in
/-- Natives that have to do with their arguments only neither read nor change the world. -/
theorem pureIn_of_callForHost {R : Realm} (hR : ∀ b, R.native b → b.isPure = true) :
    host.PureIn R := by
  intro b hb args
  refine ⟨(call b args {} o).1.mapError NativeError.message, fun w => ?_, fun v hv _ => ?_⟩
  · rw [h, callForHost, call_of_isPure o (hR b hb) args w {}]
  · have hresult := (harmless_call (R := R) o b args {}).result
    cases hr : (call b args {} o).1 with
    | ok u =>
      rw [hr] at hv
      cases hv
      exact hresult _ hr
    | error e =>
      rw [hr] at hv
      cases hv

/-! ## Spawned calls and their reports -/

/-- What is reported when a file is not written is not taken for the failure of a spawned call. -/
theorem sameCalls_write {b : Builtin}
    {op : Files.FileTree → String → String → Except Files.FileError Files.FileTree}
    {path text : String} {w : World} (hb : b = .writeFile ∨ b = .appendFile) :
    w.SameCalls (write b.name op path text w).2 := by
  unfold write
  split
  · exact ⟨rfl, rfl, rfl⟩
  · refine ⟨rfl, rfl, ?_⟩
    rw [World.failures_report]
    have hother : ∀ rest, isFailure (b.name ++ ": unable to write " ++ path ++ ": " ++ rest) =
        false := by
      intro rest
      simp only [isFailure, String.toList_append]
      rcases hb with rfl | rfl <;> rfl
    simp [hother]

theorem sameCalls_call (o : Outside) (b : Builtin) (args : List Value) (w : World) :
    w.SameCalls (call b args w o).2 := by
  unfold call
  split
  case h_10 => exact sameCalls_write (.inl rfl)
  case h_11 => exact sameCalls_write (.inr rfl)
  case h_1 | h_12 => exact ⟨rfl, rfl, rfl⟩
  all_goals exact .refl w

include h in
/-- Natives neither spawn calls nor report the failures of spawned calls. -/
theorem leavesCalls_of_callForHost : host.LeavesCalls := by
  intro b args w
  rw [h]
  exact sameCalls_call o b args w

end Natives

end DotScript
