import DotScript.Table
import Mathlib.Data.List.Induction
import Mathlib.Data.List.Nodup

/-!
# Keys of tables

A table that is made by storing has each key once: `Table.Distinct`. Then looking up a key finds its
one entry, `get?_eq_some_iff`. What a table of pairs holds is read off the pairs: its keys are those
of the pairs, in the order in which they first come, `keys_ofList`, each with the value that comes
with it last, `get?_ofList_last`.
-/

namespace DotScript.Table

variable {κ α : Type} {k : κ} {v : α} {es : List (κ × α)}

/-- No key has two entries. -/
def Distinct (t : Table κ α) : Prop := t.keys.Nodup

theorem distinct_empty : (⟨[]⟩ : Table κ α).Distinct := List.nodup_nil

variable [DecidableEq κ] {t : Table κ α}

/-! ## Looking up -/

theorem mem_of_find? (h : find? k es = some v) : (k, v) ∈ es := by
  induction es with
  | nil => cases h
  | cons e es ih =>
    obtain ⟨k', v'⟩ := e
    simp only [find?] at h
    split at h
    · next hk =>
      obtain rfl := Option.some.inj h
      exact hk ▸ List.mem_cons_self
    · exact List.mem_cons_of_mem _ (ih h)

theorem find?_of_mem (hdistinct : (es.map (·.1)).Nodup) (h : (k, v) ∈ es) :
    find? k es = some v := by
  induction es with
  | nil => exact absurd h List.not_mem_nil
  | cons e es ih =>
    obtain ⟨k', v'⟩ := e
    rw [List.map_cons, List.nodup_cons] at hdistinct
    rcases List.mem_cons.mp h with heq | h
    · obtain ⟨rfl, rfl⟩ := Prod.mk.inj heq
      rw [find?, if_pos rfl]
    · have hne : k' ≠ k := by
        rintro rfl
        exact hdistinct.1 (List.mem_map.mpr ⟨_, h, rfl⟩)
      rw [find?, if_neg hne, ih hdistinct.2 h]

theorem find?_eq_none_iff : find? k es = none ↔ k ∉ es.map (·.1) := by
  induction es with
  | nil => exact iff_of_true rfl List.not_mem_nil
  | cons e es ih =>
    obtain ⟨k', v'⟩ := e
    simp only [find?, List.map_cons, List.mem_cons, not_or]
    split
    · next hk => exact iff_of_false (Option.some_ne_none _) fun h => h.1 hk.symm
    · next hk => exact ih.trans ⟨fun h => ⟨fun heq => hk heq.symm, h⟩, fun h => h.2⟩

theorem get?_eq_some_iff (h : t.Distinct) : t.get? k = some v ↔ (k, v) ∈ t.entries :=
  ⟨mem_of_find?, find?_of_mem h⟩

theorem get?_eq_none_iff : t.get? k = none ↔ k ∉ t.keys := find?_eq_none_iff

theorem exists_get?_iff : (∃ v, t.get? k = some v) ↔ k ∈ t.keys := by
  rw [← Option.ne_none_iff_exists', Ne, get?_eq_none_iff, not_not]

/-! ## Storing -/

theorem map_fst_put (k : κ) (v : α) (es : List (κ × α)) : (put k v es).map (·.1) =
    if k ∈ es.map (·.1) then es.map (·.1) else es.map (·.1) ++ [k] := by
  induction es with
  | nil => rfl
  | cons e es ih =>
    obtain ⟨k', v'⟩ := e
    by_cases hk : k' = k
    · simp [put, hk]
    · have hk' : k ≠ k' := fun h => hk h.symm
      simp only [put, if_neg hk, List.map_cons, ih, List.mem_cons, hk', false_or]
      split <;> rfl

theorem keys_insert (t : Table κ α) (k : κ) (v : α) :
    (t.insert k v).keys = if k ∈ t.keys then t.keys else t.keys ++ [k] := map_fst_put k v t.entries

theorem Distinct.insert (h : t.Distinct) (k : κ) (v : α) : (t.insert k v).Distinct := by
  rw [Distinct, keys_insert]
  split
  · exact h
  · next hk => exact List.nodup_append.mpr ⟨h, List.nodup_singleton k, by
      rintro a ha b hb rfl
      exact hk (List.mem_singleton.mp hb ▸ ha)⟩

theorem forall_mem_insert {p : α → Prop} (h : ∀ e ∈ t.entries, p e.2) (hv : p v) :
    ∀ e ∈ (t.insert k v).entries, p e.2 := by
  obtain ⟨es⟩ := t
  simp only [insert] at h ⊢
  induction es with
  | nil => simpa [put] using hv
  | cons e es ih =>
    obtain ⟨he, hes⟩ := List.forall_mem_cons.mp h
    rw [put]
    split
    · exact List.forall_mem_cons.mpr ⟨hv, hes⟩
    · exact List.forall_mem_cons.mpr ⟨he, ih hes⟩

/-- A new key comes last. -/
theorem put_of_not_mem (h : k ∉ es.map (·.1)) : put k v es = es ++ [(k, v)] := by
  induction es with
  | nil => rfl
  | cons e es ih =>
    rw [List.map_cons, List.mem_cons, not_or] at h
    rw [put, if_neg fun heq => h.1 heq.symm, ih h.2, List.cons_append]

/-! ## Tables of pairs -/

theorem ofList_append (es : List (κ × α)) (k : κ) (v : α) :
    ofList (es ++ [(k, v)]) = (ofList es).insert k v := by
  rw [ofList, List.foldl_append]
  rfl

theorem forall_mem_ofList {p : α → Prop} (h : ∀ e ∈ es, p e.2) : ∀ e ∈ (ofList es).entries, p e.2 := by
  induction es using List.reverseRecOn with
  | nil => exact List.forall_mem_nil _
  | append_singleton es e ih =>
    rw [ofList_append]
    exact forall_mem_insert (ih fun e he => h e (List.mem_append_left _ he))
      (h e (List.mem_append_right _ (List.mem_singleton_self e)))

/-- The keys come in the order of their first pairs. -/
theorem keys_ofList (es : List (κ × α)) : (ofList es).keys = (es.map (·.1)).eraseDups := by
  induction es using List.reverseRecOn with
  | nil => rfl
  | append_singleton es e ih =>
    rw [ofList_append, keys_insert, ih, List.map_append, List.eraseDups_append]
    simp only [List.mem_eraseDups]
    split
    · next h => simp [List.removeAll, h]
    · next h => simp [List.removeAll, h, List.eraseDups_cons]

theorem distinct_ofList (es : List (κ × α)) : (ofList es).Distinct := by
  induction es using List.reverseRecOn with
  | nil => exact distinct_empty
  | append_singleton es e ih =>
    rw [ofList_append]
    exact ih.insert e.1 e.2

/-- Of the pairs with a key the last one counts. -/
theorem get?_ofList_last {es es' : List (κ × α)} (h : k ∉ es'.map (·.1)) :
    (ofList (es ++ (k, v) :: es')).get? k = some v := by
  induction es' using List.reverseRecOn with
  | nil => rw [ofList_append, get?_insert, if_pos rfl]
  | append_singleton es' e ih =>
    rw [List.map_append, List.mem_append, not_or] at h
    have he : e.1 ≠ k := fun heq => h.2 (heq ▸ List.mem_singleton_self _)
    rw [← List.cons_append, ← List.append_assoc, ofList_append, get?_insert, if_neg he, ih h.1]

/-- Pairs with keys that differ are a table as they stand. -/
theorem entries_ofList (h : (es.map (·.1)).Nodup) : (ofList es).entries = es := by
  induction es using List.reverseRecOn with
  | nil => rfl
  | append_singleton es e ih =>
    rw [List.map_append, List.nodup_append] at h
    obtain ⟨hes, -, hnew⟩ := h
    have he : e.1 ∉ es.map (·.1) := fun hmem => hnew _ hmem _ (List.mem_singleton_self _) rfl
    rw [ofList_append, insert, ih hes, put_of_not_mem he]

end DotScript.Table
