/-!
# First parts of arrays

The stack and the frames of a thread grow and shrink at their end only, so what matters is which
first parts stay.
-/

namespace DotScript

section
variable {α : Type} {xs ys : Array α} {n m i : Nat}

theorem pop_eq_take (xs : Array α) : xs.pop = xs.take (xs.size - 1) := by
  apply Array.ext'
  simp [List.dropLast_eq_take]

theorem forall_mem_empty {p : α → Prop} : ∀ x ∈ (#[] : Array α), p x :=
  fun x h => absurd h (Array.not_mem_empty x)

theorem mem_of_mem_extract {x : α} (h : x ∈ xs.extract n m) : x ∈ xs := by
  rw [← Array.mem_toList_iff, Array.toList_extract, List.extract_eq_take_drop] at h
  exact Array.mem_toList_iff.mp (List.mem_of_mem_drop (List.mem_of_mem_take h))

theorem getElem?_take (xs : Array α) (h : i < n) : (xs.take n)[i]? = xs[i]? := by
  rw [← Array.getElem?_toList, ← Array.getElem?_toList]
  simp [List.getElem?_take_of_lt h]

theorem take_take (xs : Array α) (h : n ≤ m) : (xs.take m).take n = xs.take n := by
  simp [Nat.min_eq_left h]

theorem take_push (xs : Array α) (x : α) (h : n ≤ xs.size) : (xs.push x).take n = xs.take n := by
  apply Array.toList_inj.mp
  simp [h]

theorem prefix_push (xs : Array α) (x : α) : xs.toList <+: (xs.push x).toList := by
  simp

theorem take_prefix_self (xs : Array α) (n : Nat) : (xs.take n).toList <+: xs.toList := by
  simp only [Array.take_eq_extract, Array.toList_extract, List.extract_eq_take_drop, Nat.sub_zero,
    List.drop_zero]
  exact List.take_prefix n xs.toList

/-- A first part of a first part. -/
theorem prefix_take (h : xs.toList <+: ys.toList) (hn : n ≤ xs.size) : ys.take n = xs.take n := by
  obtain ⟨zs, hzs⟩ := h
  apply Array.toList_inj.mp
  simp only [Array.take_eq_extract, Array.toList_extract, List.extract_eq_take_drop, Nat.sub_zero,
    List.drop_zero, ← hzs]
  exact List.take_append_of_le_length (by simpa using hn)

theorem prefix_take_size (h : xs.toList <+: ys.toList) : ys.take xs.size = xs := by
  rw [prefix_take h (Nat.le_refl _)]
  simp

/-- An array has less than `n` items, or it can be cut before the last `n` of them. -/
theorem lt_or_exists_append (xs : Array α) (n : Nat) :
    xs.size < n ∨ ∃ (ys : Array α) (zs : List α), xs = ys ++ zs.toArray ∧ zs.length = n := by
  rcases Nat.lt_or_ge xs.size n with hlt | hge
  · exact .inl hlt
  · refine .inr ⟨xs.take (xs.size - n), (xs.drop (xs.size - n)).toList, ?_, ?_⟩
    · apply Array.toList_inj.mp
      have hrest : (xs.toList.drop (xs.size - n)).take (xs.size - (xs.size - n)) =
          xs.toList.drop (xs.size - n) := List.take_of_length_le (by simp)
      simp only [Array.toList_append, Array.toList_extract, Array.take_eq_extract,
        Array.drop_eq_extract, List.extract_eq_take_drop, Nat.sub_zero, List.drop_zero, hrest,
        List.take_append_drop]
    · simp
      omega

end

end DotScript
