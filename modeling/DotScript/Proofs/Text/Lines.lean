import Mathlib.Data.List.DropRight
import Mathlib.Data.List.Induction
import DotScript.TestFile.Sections

/-!
# Lines and trimming

A text without carriage returns is made up of its lines: they can be read back from the text that they
are joined to, `lines_joinLines`, and joined again they give the text, `joinLines_lines`. Trimming takes
white space from both ends and nothing else.
-/

namespace DotScript.Text

open DotScript.TestFile

/-! ## Lines -/

section
variable {line xs ys : List Char}

theorem endedLine_of_not_mem (h : '\r' ∉ line) : endedLine line = line.reverse := by
  unfold endedLine
  split
  · exact absurd List.mem_cons_self h
  · rfl

/-- The line that a line feed ends. -/
theorem linesFrom_append_cons (hxs : '\n' ∉ xs) (line ys : List Char) :
    linesFrom line (xs ++ '\n' :: ys) = endedLine (xs.reverse ++ line) :: linesFrom [] ys := by
  induction xs generalizing line with
  | nil => simp [linesFrom]
  | cons c xs ih =>
    rw [List.mem_cons, not_or] at hxs
    have hc : ¬ (c == '\n') = true := by simpa using Ne.symm hxs.1
    rw [List.cons_append, linesFrom, if_neg hc, ih hxs.2, List.reverse_cons, List.append_assoc,
      List.singleton_append]

/-- The last line needs no line feed if there is something in it. -/
theorem linesFrom_concat (hline : '\r' ∉ line) (hxs : '\r' ∉ xs)
    (hlast : ∀ c ∈ (line.reverse ++ xs).getLast?, c ≠ '\n') (hne : line.reverse ++ xs ≠ []) :
    linesFrom line (xs ++ ['\n']) = linesFrom line xs := by
  induction xs generalizing line with
  | nil =>
    have hempty : line.isEmpty = false := by
      cases line with
      | nil => exact absurd rfl hne
      | cons => rfl
    simp [linesFrom, endedLine_of_not_mem hline, hempty]
  | cons c xs ih =>
    rw [List.mem_cons, not_or] at hxs
    rw [List.cons_append, linesFrom, linesFrom]
    split
    · next hc =>
      cases xs with
      | nil => exact absurd (by simpa using hc) (hlast c (by simp))
      | cons d xs =>
        rw [ih List.not_mem_nil hxs.2 (by simpa using hlast) (by simp)]
    · refine ih ?_ hxs.2 (by simpa using hlast) (by simp)
      rw [List.mem_cons, not_or]
      exact ⟨hxs.1, hline⟩

/-- Lines with their line feeds make up the text. -/
theorem flatMap_linesFrom (hline : '\r' ∉ line) (hxs : '\r' ∉ xs) :
    (linesFrom line (xs ++ ['\n'])).flatMap (· ++ ['\n']) = line.reverse ++ (xs ++ ['\n']) := by
  induction xs generalizing line with
  | nil => simp [linesFrom, endedLine_of_not_mem hline]
  | cons c xs ih =>
    rw [List.mem_cons, not_or] at hxs
    rw [List.cons_append, linesFrom]
    split
    · next hc =>
      obtain rfl : c = '\n' := by simpa using hc
      simp [endedLine_of_not_mem hline, ih List.not_mem_nil hxs.2]
    · have hcons : '\r' ∉ c :: line := by
        rw [List.mem_cons, not_or]
        exact ⟨hxs.1, hline⟩
      simp [ih hcons hxs.2]

theorem not_mem_of_mem_linesFrom (hline : '\r' ∉ line) (hxs : '\r' ∉ xs) (hopen : '\n' ∉ line)
    {l : List Char} (h : l ∈ linesFrom line xs) : '\n' ∉ l ∧ '\r' ∉ l := by
  induction xs generalizing line with
  | nil =>
    rw [linesFrom] at h
    split at h
    · cases h
    · rw [List.mem_singleton.mp h]
      simpa using ⟨hopen, hline⟩
  | cons c xs ih =>
    rw [List.mem_cons, not_or] at hxs
    rw [linesFrom] at h
    split at h
    · rw [endedLine_of_not_mem hline] at h
      rcases List.mem_cons.mp h with rfl | h
      · simpa using ⟨hopen, hline⟩
      · exact ih List.not_mem_nil hxs.2 List.not_mem_nil h
    · next hc =>
      refine ih ?_ hxs.2 ?_ h
      · rw [List.mem_cons, not_or]
        exact ⟨hxs.1, hline⟩
      · rw [List.mem_cons, not_or]
        exact ⟨fun heq => hc (by simp [← heq]), hopen⟩

end

theorem joinLines_cons (l : String) (ls : List String) :
    joinLines (l :: ls) = l ++ "\n" ++ joinLines ls := by
  simp [joinLines, String.join_cons]

theorem toList_joinLines (ls : List String) :
    (joinLines ls).toList = (ls.map String.toList).flatMap (· ++ ['\n']) := by
  induction ls with
  | nil => rfl
  | cons l ls ih => simp [joinLines_cons, ih]

theorem joinLines_append (ls ls' : List String) :
    joinLines (ls ++ ls') = joinLines ls ++ joinLines ls' := by
  rw [← String.toList_inj]
  simp [toList_joinLines]

/-- A line without line breaks. -/
structure IsLine (l : String) : Prop where
  lineFeed : '\n' ∉ l.toList
  carriageReturn : '\r' ∉ l.toList

section
variable {s t : String} {ls : List String}

theorem isLine_of_mem_lines (hs : '\r' ∉ s.toList) {l : String} (h : l ∈ lines s) : IsLine l := by
  obtain ⟨cs, hcs, rfl⟩ := List.mem_map.mp h
  obtain ⟨hlf, hcr⟩ := not_mem_of_mem_linesFrom List.not_mem_nil hs List.not_mem_nil hcs
  exact ⟨by simpa using hlf, by simpa using hcr⟩

/-- Lines can be read back from what they are joined to. -/
theorem lines_joinLines_append (h : ∀ l ∈ ls, IsLine l) (t : String) :
    lines (joinLines ls ++ t) = ls ++ lines t := by
  induction ls with
  | nil => simp [joinLines]
  | cons l ls ih =>
    obtain ⟨hl, hls⟩ := List.forall_mem_cons.mp h
    have hended : endedLine l.toList.reverse = l.toList := by
      rw [endedLine_of_not_mem (by simpa using hl.carriageReturn), List.reverse_reverse]
    have hchars :
        (joinLines (l :: ls) ++ t).toList = l.toList ++ '\n' :: (joinLines ls ++ t).toList := by
      simp [joinLines_cons]
    rw [lines, hchars, linesFrom_append_cons hl.lineFeed, List.append_nil, hended, List.map_cons,
      String.ofList_toList, List.cons_append, ← ih hls, lines]

theorem lines_joinLines (h : ∀ l ∈ ls, IsLine l) : lines (joinLines ls) = ls := by
  simpa [lines, linesFrom] using lines_joinLines_append h ""

/-- The last line needs no line feed. -/
theorem lines_concat (hs : '\r' ∉ s.toList) (hlast : ∀ c ∈ s.toList.getLast?, c ≠ '\n')
    (hne : s ≠ "") : lines (s ++ "\n") = lines s := by
  have hne' : s.toList ≠ [] := by simpa using hne
  rw [lines, lines, String.toList_append]
  exact congrArg _ (linesFrom_concat List.not_mem_nil hs hlast hne')

/-- Lines make up the text. -/
theorem joinLines_lines (hs : '\r' ∉ s.toList) : joinLines (lines (s ++ "\n")) = s ++ "\n" := by
  rw [← String.toList_inj, toList_joinLines, lines, List.map_map, String.toList_append]
  have hid : String.toList ∘ String.ofList = id := by
    funext cs
    simp
  rw [hid, List.map_id]
  exact flatMap_linesFrom List.not_mem_nil hs

/-- A text whose last line has no line feed gets one. -/
theorem joinLines_lines_cases (hs : '\r' ∉ s.toList) :
    joinLines (lines s) = s ∨ joinLines (lines s) = s ++ "\n" := by
  by_cases hne : s = ""
  · subst hne
    exact .inl rfl
  by_cases hlast : s.toList.getLast? = some '\n'
  · obtain ⟨cs, hcs⟩ := List.getLast?_eq_some_iff.mp hlast
    obtain rfl : s = String.ofList cs ++ "\n" := by
      rw [← String.toList_inj, hcs]
      simp
    refine .inl (joinLines_lines ?_)
    simpa using hs
  · refine .inr ?_
    rw [← lines_concat hs (fun c hc heq => hlast (heq ▸ hc)) hne]
    exact joinLines_lines hs

/-! ## Trimming -/

theorem trimChars_eq (cs : List Char) :
    trimChars cs = (cs.dropWhile isBlank).rdropWhile isBlank := rfl

/-- What begins and ends with something visible is not changed. -/
theorem trimChars_of_visible {cs : List Char} (hhead : ∀ c ∈ cs.head?, isBlank c = false)
    (hlast : ∀ c ∈ cs.getLast?, isBlank c = false) : trimChars cs = cs := by
  have hdrop : cs.dropWhile isBlank = cs := by
    rw [List.dropWhile_eq_self_iff]
    intro hpos
    rw [hhead cs[0] (by rw [List.head?_eq_getElem?]; exact List.getElem?_eq_getElem hpos)]
    exact Bool.false_ne_true
  rw [trimChars_eq, hdrop, List.rdropWhile_eq_self_iff]
  intro hne
  rw [hlast _ (List.getLast?_eq_getLast_of_ne_nil hne)]
  exact Bool.false_ne_true

/-- What is left begins and ends with something visible. -/
theorem trimChars_trimChars (cs : List Char) : trimChars (trimChars cs) = trimChars cs := by
  have hprefix := List.rdropWhile_prefix isBlank (cs.dropWhile isBlank)
  refine trimChars_of_visible (fun c hc => ?_) (fun c hc => ?_)
  · rw [trimChars_eq] at hc
    obtain ⟨rest, hrest⟩ := List.head?_eq_some_iff.mp hc
    rw [hrest] at hprefix
    obtain ⟨more, hmore⟩ := hprefix
    have hfirst := List.head?_dropWhile_not isBlank cs
    rw [← hmore] at hfirst
    exact hfirst
  · rw [trimChars_eq] at hc
    obtain ⟨before, hbefore⟩ := List.getLast?_eq_some_iff.mp hc
    have hne : (cs.dropWhile isBlank).rdropWhile isBlank ≠ [] := by simp [hbefore]
    have hnot := List.rdropWhile_last_not isBlank _ hne
    simpa [hbefore] using hnot

theorem trimChars_concat (cs : List Char) {c : Char} (hc : isBlank c) :
    trimChars (cs ++ [c]) = trimChars cs := by
  rw [trimChars_eq, trimChars_eq, List.dropWhile_append]
  split
  · next hempty =>
    rw [List.isEmpty_iff.mp hempty]
    simp [hc]
  · exact List.rdropWhile_concat_pos _ _ _ hc

theorem trim_trim (s : String) : trim (trim s) = trim s := by
  simp [trim, trimChars_trimChars]

theorem trim_concat (s : String) : trim (s ++ "\n") = trim s := by
  rw [trim, String.toList_append]
  exact congrArg _ (trimChars_concat s.toList (by decide))

/-- Lines of which the first begins and the last ends with something visible. -/
structure Framed (ls : List String) : Prop where
  first : ∀ l ∈ ls.head?, ∃ c ∈ l.toList.head?, isBlank c = false
  last : ∀ l ∈ ls.getLast?, ∃ c ∈ l.toList.getLast?, isBlank c = false

/-- Trimming such lines takes the last line feed only. -/
theorem lines_trim_joinLines (h : ∀ l ∈ ls, IsLine l) (hframed : Framed ls) :
    lines (trim (joinLines ls)) = ls := by
  rcases List.eq_nil_or_concat' ls with rfl | ⟨init, l, rfl⟩
  · rfl
  obtain ⟨d, hd, hdvisible⟩ := hframed.last l (by simp)
  obtain ⟨before, hl⟩ := List.getLast?_eq_some_iff.mp hd
  have hbody : joinLines (init ++ [l]) = joinLines init ++ l ++ "\n" := by
    simp [joinLines, String.append_assoc]
  have hlast : (joinLines init ++ l).toList.getLast? = some d := by
    simp [hl]
  have hhead : ∀ c ∈ (joinLines init ++ l).toList.head?, isBlank c = false := by
    obtain ⟨c, hc, hvisible⟩ := hframed.first _ (List.head?_eq_some_head (by simp))
    obtain ⟨rest, hrest⟩ := List.head?_eq_some_iff.mp hc
    have heq : (joinLines init ++ l).toList.head? = some c := by
      cases init with
      | nil => simpa [joinLines] using hc
      | cons a init =>
        have hrest : a.toList = c :: rest := hrest
        simp [joinLines_cons, hrest]
    intro e he
    rw [heq] at he
    cases he
    exact hvisible
  have htrim : trim (joinLines (init ++ [l])) = joinLines init ++ l := by
    rw [hbody, trim_concat, trim, trimChars_of_visible hhead, String.ofList_toList]
    rintro c hc
    rw [hlast] at hc
    cases hc
    exact hdvisible
  have hreturn : '\r' ∉ (joinLines init ++ l).toList := by
    simp only [String.toList_append, toList_joinLines, List.mem_append, List.mem_flatMap,
      List.mem_map, not_or, not_exists, not_and]
    refine ⟨?_, (h l (by simp)).carriageReturn⟩
    rintro _ ⟨a, ha, rfl⟩
    simpa using (h a (by simp [ha])).carriageReturn
  have hline := h l (by simp)
  rw [htrim, ← lines_concat hreturn, ← hbody, lines_joinLines h]
  · rintro c hc rfl
    rw [hlast] at hc
    cases hc
    exact hline.lineFeed (by simp [hl])
  · intro hempty
    rw [hempty] at hlast
    cases hlast

end

end DotScript.Text
