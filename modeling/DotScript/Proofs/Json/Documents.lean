import DotScript.Json.Basic
import DotScript.Proofs.Values.Keyed

/-!
# Documents and values

A document and its value have the same shape, list by list. No value of a document has a key twice,
`keyed_toValue`.
-/

namespace DotScript.Json

theorem ofItems_eq_map (vs : List Value) : ofItems vs = vs.map ofValue := by
  induction vs with
  | nil => rfl
  | cons v vs ih => rw [ofItems, ih, List.map_cons]

theorem ofEntries_eq_map (es : List (MapKey × Value)) :
    ofEntries es = es.map fun e => (e.1.text, ofValue e.2) := by
  induction es with
  | nil => rfl
  | cons e es ih => rw [ofEntries, ih, List.map_cons]

theorem toValues_eq_map (js : List Json) : toValues js = js.map toValue := by
  induction js with
  | nil => rfl
  | cons j js ih => rw [toValues, ih, List.map_cons]

theorem toEntries_eq_map (fs : List (String × Json)) :
    toEntries fs = fs.map fun f => (.str f.1, toValue f.2) := by
  induction fs with
  | nil => rfl
  | cons f fs ih => rw [toEntries, ih, List.map_cons]

/-! ## Keys -/

mutual

theorem keyed_toValue : (j : Json) → j.toValue.Keyed
  | null => Value.keyed_atom rfl
  | bool _ => Value.keyed_atom rfl
  | int _ => Value.keyed_atom rfl
  | float _ => Value.keyed_atom rfl
  | str _ => Value.keyed_atom rfl
  | array items => by
    rw [toValue]
    exact Value.keyed_list.mpr (keyed_toValues items)
  | object ⟨fields⟩ => by
    rw [toValue]
    exact Value.keyed_map.mpr
      ⟨Table.distinct_ofList _, Table.forall_mem_ofList (keyed_toEntries fields)⟩

theorem keyed_toValues : (js : List Json) → ∀ v ∈ toValues js, v.Keyed
  | [] => List.forall_mem_nil _
  | j :: js => by
    rw [toValues]
    exact List.forall_mem_cons.mpr ⟨keyed_toValue j, keyed_toValues js⟩

theorem keyed_toEntries : (fs : List (String × Json)) → ∀ e ∈ toEntries fs, e.2.Keyed
  | [] => List.forall_mem_nil _
  | (k, j) :: fs => by
    rw [toEntries]
    exact List.forall_mem_cons.mpr ⟨keyed_toValue j, keyed_toEntries fs⟩

end

end DotScript.Json
