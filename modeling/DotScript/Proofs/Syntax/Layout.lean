import DotScript.Proofs.Syntax.Lexing

/-!
# What stands between tokens

White space and comments. A comment runs to the end of its line, so that a token can only stand
behind the line break; behind the last token the end of the text ends a comment, too. What
`skipBlanks` leaves out is such a layout, `layout_of_skipBlanks`, and it leaves out all of one,
`skipBlanks_layout`.
-/

namespace DotScript.Syntax

open DotScript.Text

/-- White space and comments; `atEnd` says that the text ends behind them. -/
inductive Layout (atEnd : Bool) : List Char → Prop
  | nil : Layout atEnd []
  | blank {c cs} (hc : isBlank c = true) (h : Layout atEnd cs) : Layout atEnd (c :: cs)
  /-- A comment with the line break that ends it. -/
  | comment {body cs} (hbody : '\n' ∉ body) (h : Layout atEnd cs) :
    Layout atEnd ('#' :: (body ++ '\n' :: cs))
  /-- A comment that the end of the text ends. -/
  | last {body} (hend : atEnd = true) (hbody : '\n' ∉ body) : Layout atEnd ('#' :: body)

/-! ## Layouts are left out -/

theorem skipBlanks_comment {body : List Char} (h : '\n' ∉ body) (pos : Nat) (cs : List Char) :
    skipBlanks true pos (body ++ '\n' :: cs) = skipBlanks false (pos + byteLength body + 1) cs := by
  induction body generalizing pos with
  | nil => rfl
  | cons c body ih =>
    obtain ⟨hc, hbody⟩ := List.ne_and_not_mem_of_not_mem_cons h
    have hopen : (c != '\n') = true := bne_iff_ne.mpr (Ne.symm hc)
    simp only [List.cons_append, skipBlanks, if_true, hopen, byteLength, ih hbody, Nat.add_assoc]

theorem skipBlanks_open {body : List Char} (h : '\n' ∉ body) (pos : Nat) :
    skipBlanks true pos body = (pos + byteLength body, []) := by
  induction body generalizing pos with
  | nil => rfl
  | cons c body ih =>
    obtain ⟨hc, hbody⟩ := List.ne_and_not_mem_of_not_mem_cons h
    have hopen : (c != '\n') = true := bne_iff_ne.mpr (Ne.symm hc)
    simp only [skipBlanks, if_true, hopen, byteLength, ih hbody, Nat.add_assoc]

theorem skipBlanks_layout {atEnd : Bool} {gap cs : List Char} (h : Layout atEnd gap)
    (hend : atEnd = true → cs = []) (pos : Nat) :
    skipBlanks false pos (gap ++ cs) = skipBlanks false (pos + byteLength gap) cs := by
  induction h generalizing pos with
  | nil => rfl
  | @blank c gap hc _ ih =>
    have hhash : c ≠ '#' := by
      rintro rfl
      exact absurd hc (by decide)
    simp [skipBlanks, hc, hhash, ih, byteLength, Nat.add_assoc]
  | @comment body gap hbody _ ih =>
    have hline : '\n'.utf8Size = 1 := rfl
    have hcomment := skipBlanks_comment hbody (pos + '#'.utf8Size) (gap ++ cs)
    simp only [List.cons_append, List.append_assoc, skipBlanks, Bool.false_eq_true, if_false,
      beq_self_eq_true, if_true, hcomment, ih, byteLength, byteLength_append, hline, Nat.add_assoc]
  | @last body hlast hbody =>
    obtain rfl := hend hlast
    have hopen := skipBlanks_open hbody (pos + '#'.utf8Size)
    simp only [List.append_nil, skipBlanks, Bool.false_eq_true, if_false, beq_self_eq_true, if_true,
      hopen, byteLength, Nat.add_assoc]

/-! ## Only layouts are left out -/

/-- A character that does not end its line makes a comment longer. -/
theorem Layout.longer {atEnd : Bool} {gap : List Char} {c : Char} (h : Layout atEnd ('#' :: gap))
    (hc : c ≠ '\n') : Layout atEnd ('#' :: c :: gap) := by
  cases h with
  | blank hblank _ => exact absurd hblank (by decide)
  | @comment body _ hbody h =>
    have hlonger : '\n' ∉ c :: body := List.not_mem_cons_of_ne_of_not_mem (Ne.symm hc) hbody
    exact .comment hlonger h
  | last hend hbody => exact .last hend (List.not_mem_cons_of_ne_of_not_mem (Ne.symm hc) hbody)

theorem exists_gap (inComment : Bool) (pos : Nat) (cs : List Char) :
    ∃ gap, cs = gap ++ (skipBlanks inComment pos cs).2 ∧
      Layout (skipBlanks inComment pos cs).2.isEmpty (if inComment then '#' :: gap else gap) := by
  fun_induction skipBlanks inComment pos cs with
  | case1 inComment pos =>
    refine ⟨[], rfl, ?_⟩
    cases inComment with
    | true => exact .last rfl List.not_mem_nil
    | false => exact .nil
  | case2 pos c cs ih =>
    obtain ⟨gap, hgap, hlayout⟩ := ih
    refine ⟨c :: gap, by rw [List.cons_append, ← hgap], ?_⟩
    by_cases hc : c = '\n'
    · subst hc
      have hempty : '\n' ∉ ([] : List Char) := List.not_mem_nil
      exact .comment hempty hlayout
    · rw [if_pos (bne_iff_ne.mpr hc)] at hlayout
      exact hlayout.longer hc
  | case3 inComment pos c cs hin hhash ih =>
    obtain rfl : c = '#' := beq_iff_eq.mp hhash
    obtain ⟨gap, hgap, hlayout⟩ := ih
    refine ⟨'#' :: gap, by rw [List.cons_append, ← hgap], ?_⟩
    rw [if_neg hin]
    exact hlayout
  | case4 inComment pos c cs hin hhash hblank ih =>
    obtain ⟨gap, hgap, hlayout⟩ := ih
    refine ⟨c :: gap, by rw [List.cons_append, ← hgap], ?_⟩
    rw [if_neg hin]
    exact .blank hblank hlayout
  | case5 inComment pos c cs hin hhash hblank =>
    refine ⟨[], rfl, ?_⟩
    rw [if_neg hin]
    exact .nil

/-- What stands before the next token, or behind the last one. -/
theorem layout_of_skipBlanks (pos : Nat) (cs : List Char) :
    ∃ gap, cs = gap ++ (skipBlanks false pos cs).2 ∧
      (skipBlanks false pos cs).1 = pos + byteLength gap ∧
      Layout (skipBlanks false pos cs).2.isEmpty gap := by
  obtain ⟨gap, hgap, hlayout⟩ := exists_gap false pos cs
  have hfst := skipBlanks_fst false pos cs
  have hlength := congrArg byteLength hgap
  rw [byteLength_append] at hlength
  exact ⟨gap, hgap, by omega, hlayout⟩

end DotScript.Syntax
