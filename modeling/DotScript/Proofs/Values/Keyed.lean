import DotScript.Proofs.Machine.Realm
import DotScript.Proofs.Values.Tables

/-!
# Values by their parts

A value is an atom, a list of values or a map to values; what holds of each if it holds of its items
holds of all values, `Value.byParts`. A value is `Keyed` if no map that is part of it has a key twice.
-/

namespace DotScript

namespace Value

/-- Whether a value is neither a list nor a map. -/
def isAtom : Value → Bool
  | list _ | map _ => false
  | _ => true

/-- Induction on the parts of a value. -/
@[elab_as_elim]
theorem byParts {P : Value → Prop} (v : Value) (atom : ∀ v : Value, v.isAtom = true → P v)
    (list : ∀ items : List Value, (∀ v ∈ items, P v) → P (.list items))
    (map : ∀ t : Table MapKey Value, (∀ e ∈ t.entries, P e.2) → P (.map t)) : P v := by
  match v with
  | .list items => exact list items fun v hv => byParts v atom list map
  | .map ⟨entries⟩ => exact map ⟨entries⟩ fun e he => byParts e.2 atom list map
  | null | bool _ | number _ | str _ | function _ | bound _ _ | classRef _ | inst _ | native _ =>
    exact atom _ rfl
termination_by sizeOf v
decreasing_by
  · have := List.sizeOf_lt_of_mem hv
    simp only [Value.list.sizeOf_spec]
    omega
  · obtain ⟨k, v⟩ := e
    have := List.sizeOf_lt_of_mem he
    simp only [Value.map.sizeOf_spec, Table.mk.sizeOf_spec, Prod.mk.sizeOf_spec] at this ⊢
    omega

/-! ## Parts -/

theorem part_atom {x v : Value} (hv : v.isAtom = true) : Part x v ↔ x = v := by
  constructor
  · rintro (_ | _ | _)
    · rfl
    · cases hv
    · cases hv
  · rintro rfl
    exact .self x

theorem part_list {x : Value} {items : List Value} :
    Part x (.list items) ↔ x = .list items ∨ ∃ v ∈ items, Part x v := by
  constructor
  · rintro (_ | ⟨hv, h⟩ | _)
    · exact .inl rfl
    · exact .inr ⟨_, hv, h⟩
  · rintro (rfl | ⟨v, hv, h⟩)
    · exact .self _
    · exact .item hv h

theorem part_map {x : Value} {t : Table MapKey Value} :
    Part x (.map t) ↔ x = .map t ∨ ∃ e ∈ t.entries, Part x e.2 := by
  constructor
  · rintro (_ | _ | ⟨hv, h⟩)
    · exact .inl rfl
    · exact .inr ⟨_, hv, h⟩
  · rintro (rfl | ⟨e, he, h⟩)
    · exact .self _
    · exact .entry he h

/-! ## Keys -/

/-- No map in a value has two entries under one key. -/
def Keyed (v : Value) : Prop := ∀ t, Part (.map t) v → t.Distinct

theorem keyed_atom {v : Value} (hv : v.isAtom = true) : v.Keyed := by
  rintro t ht
  obtain rfl := (part_atom hv).mp ht
  cases hv

theorem keyed_list {items : List Value} : (list items).Keyed ↔ ∀ v ∈ items, v.Keyed := by
  constructor
  · exact fun h v hv t ht => h t (.item hv ht)
  · intro h t ht
    obtain ⟨v, hv, ht⟩ := (part_list.mp ht).resolve_left Value.noConfusion
    exact h v hv t ht

theorem keyed_map {t : Table MapKey Value} :
    (map t).Keyed ↔ t.Distinct ∧ ∀ e ∈ t.entries, e.2.Keyed := by
  constructor
  · exact fun h => ⟨h t (.self _), fun e he s hs => h s (.entry he hs)⟩
  · rintro ⟨ht, h⟩ s hs
    rcases part_map.mp hs with heq | ⟨e, he, hs⟩
    · exact Value.map.inj heq ▸ ht
    · exact h e he s hs

end Value

end DotScript
