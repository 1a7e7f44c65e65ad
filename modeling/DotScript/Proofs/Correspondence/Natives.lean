import DotScript.Proofs.Correspondence.States
import DotScript.Proofs.Natives.Inert

/-!
# Natives in sessions that correspond

What a native gives back depends on the types and texts of its arguments, on the files, and on what it
takes from outside. None of these tells values apart that are alike but for their functions. Main
statement: `respects_of_callForHost`.
-/

namespace DotScript.Natives

open DotScript.Machine

section
variable {F : Function → Function → Prop} {v v' : Value} {vs vs' : List Value}

/-! ## Arguments -/

theorem length_eq_of_like (h : v.Like F v') : length v = length v' := by
  cases h with
  | list h => exact (itemsLike_iff.mp h).length_eq
  | map h => exact (entriesLike_iff.mp h).size
  | _ => rfl

theorem stringArg_eq_of_like (n : Nat) (h : v.Like F v') : stringArg n v = stringArg n v' := by
  have htype := h.typeName_eq
  cases h <;> simp only [stringArg, htype]

theorem numberArg_eq_of_like (n : Nat) (h : v.Like F v') : numberArg n v = numberArg n v' := by
  have htype := h.typeName_eq
  cases h <;> simp only [numberArg, htype]

mutual

theorem ofValue_eq_of_like (hF : Interchangeable F) : {v v' : Value} → v.Like F v' →
    Json.ofValue v = Json.ofValue v'
  | _, _, .null | _, _, .bool _ | _, _, .number _ | _, _, .str _ | _, _, .classRef _
  | _, _, .inst _ | _, _, .native _ => rfl
  | _, _, .list h => by simp only [Json.ofValue, ofItems_eq_of_like hF h]
  | _, _, .map h => by simp only [Json.ofValue, ofEntries_eq_of_like hF h]
  | _, _, .function h => by simp only [Json.ofValue, (Value.Like.function h).text_eq hF]
  | _, _, .bound i h => by simp only [Json.ofValue, (Value.Like.bound i h).text_eq hF]

theorem ofItems_eq_of_like (hF : Interchangeable F) : {vs vs' : List Value} → ItemsLike F vs vs' →
    Json.ofItems vs = Json.ofItems vs'
  | _, _, .nil => rfl
  | _, _, .cons h hs => by
    simp only [Json.ofItems, ofValue_eq_of_like hF h, ofItems_eq_of_like hF hs]

theorem ofEntries_eq_of_like (hF : Interchangeable F) : {es es' : List (MapKey × Value)} →
    EntriesLike F es es' → Json.ofEntries es = Json.ofEntries es'
  | _, _, .nil => rfl
  | _, _, .cons k h hs => by
    simp only [Json.ofEntries, ofValue_eq_of_like hF h, ofEntries_eq_of_like hF hs]

end

/-! ## Calls -/

variable {C : Correspondence} {w w' : World}

theorem report_like (h : w.Like C w') (line : String) : (w.report line).Like C (w'.report line) :=
  { h with reports := h.reports.push (.same line) }

theorem write_like (h : w.Like C w') (name : String)
    (op : Files.FileTree → String → String → Except Files.FileError Files.FileTree)
    (path text : String) :
    (write name op path text w).1 = (write name op path text w').1 ∧
      (write name op path text w).2.Like C (write name op path text w').2 := by
  simp only [write, h.files]
  split
  · exact ⟨rfl, { h with files := rfl }⟩
  · exact ⟨rfl, report_like h _⟩

theorem ask_like (h : w.Like C w') (answer : Nat → Except NativeError Value) :
    (ask answer w).1 = (ask answer w').1 ∧ (ask answer w).2.Like C (ask answer w').2 :=
  ⟨congrArg answer h.questions, { h with questions := congrArg (· + 1) h.questions }⟩

variable {o : Outside}

theorem call_of_length_ne {b : Builtin} (h : vs.length ≠ b.arity) (w : World) :
    call b vs w o = (.error (.count b.arity vs.length), w) := by
  unfold call
  split
  case h_13 => rfl
  all_goals exact absurd rfl h

/-- A native gives the same result for arguments that are alike. -/
theorem call_like (hF : Interchangeable C.function) (b : Builtin)
    (hvs : ItemsLike C.function vs vs') (hw : w.Like C w') :
    (call b vs w o).1 = (call b vs' w' o).1 ∧ (call b vs w o).2.Like C (call b vs' w' o).2 := by
  by_cases harity : vs.length = b.arity
  · cases b <;> rcases hvs with _ | ⟨hv, _ | ⟨hu, _ | ⟨hx, _ | _⟩⟩⟩ <;> cases harity
    · simp only [call, hw.now]
      exact ask_like hw _
    · exact ⟨by simp only [call, pureResult, numberArg_eq_of_like 1 hv], hw⟩
    · exact ⟨by simp only [call, length_eq_of_like hv], hw⟩
    · exact ⟨by simp only [call, pureResult, stringArg_eq_of_like 1 hv,
        stringArg_eq_of_like 2 hu], hw⟩
    · exact ⟨by simp only [call, pureResult, stringArg_eq_of_like 1 hv, stringArg_eq_of_like 2 hu,
        stringArg_eq_of_like 3 hx], hw⟩
    · exact ⟨by simp only [call, pureResult, stringArg_eq_of_like 1 hv], hw⟩
    · exact ⟨by simp only [call, pureResult, stringArg_eq_of_like 1 hv], hw⟩
    · exact ⟨by simp only [call, pureResult, stringifyJson, ofValue_eq_of_like hF hv], hw⟩
    · exact ⟨by simp only [call, pureResult, hv.text_eq hF, hw.files], hw⟩
    · simp only [call, hv.text_eq hF, hu.text_eq hF]
      exact write_like hw _ _ _ _
    · simp only [call, hv.text_eq hF, hu.text_eq hF]
      exact write_like hw _ _ _ _
    · simp only [call, hv.text_eq hF]
      exact ask_like hw _
  · have harity' : vs'.length ≠ b.arity := (itemsLike_iff.mp hvs).length_eq ▸ harity
    rw [call_of_length_ne harity, call_of_length_ne harity', (itemsLike_iff.mp hvs).length_eq]
    exact ⟨rfl, hw⟩

/-- Natives do the same in sessions that correspond. -/
theorem respects_of_callForHost (hF : Interchangeable C.function) {host : Host}
    (h : host.call = callForHost o) : host.Respects C := by
  intro b vs vs' w w' hvs hw
  obtain ⟨hresult, hworld⟩ := call_like hF b hvs hw
  rw [h]
  refine ⟨?_, hworld⟩
  simp only [callForHost, ← hresult]
  rcases hr : (call b vs w o).1 with e | v
  · rfl
  · -- The result holds no functions, for it is one of any realm.
    let R : Realm := ⟨fun _ => False, fun _ => False, fun _ => False, fun _ => True, False, 0, 0⟩
    exact .of_in (fun _ => False.elim) (fun _ => False.elim) v ((harmless_call (R := R) o b vs w).result v hr)

end

end DotScript.Natives
