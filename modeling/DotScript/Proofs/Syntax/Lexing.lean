import DotScript.Syntax.Lexer

/-!
# Tokens of a text with more text behind it

A blank or a comment ends every token but a string literal that is still open. Text behind a line break therefore
leaves the tokens before it as they are, and the two texts can be read one after the other:
`tokensFrom_append`.
-/

namespace DotScript.Syntax

open DotScript.Text

/-- Whether a character belongs to a token where one may begin: it is no blank and begins no
comment. -/
def isVisible (c : Char) : Bool := !isBlank c && c != '#'

/-- The code points of blanks, and that of the sign that begins a comment. -/
def separatorCodes : List Nat :=
  [9, 10, 11, 12, 13, 0x20, 0x23, 0x85, 0xA0, 0x1680, 0x2000, 0x2001, 0x2002, 0x2003, 0x2004,
    0x2005, 0x2006, 0x2007, 0x2008, 0x2009, 0x200A, 0x2028, 0x2029, 0x202F, 0x205F, 0x3000]

/-- What holds of no separator. -/
theorem not_of_separatorCodes {p : Char → Bool} (hp : ∀ n ∈ separatorCodes, p (Char.ofNat n) = false)
    {x : Char} (h : isVisible x = false) : p x = false := by
  have hmem : x.toNat ∈ separatorCodes := by
    simp only [isVisible, Bool.and_eq_false_iff, Bool.not_eq_false', bne_eq_false_iff_eq] at h
    rcases h with h | rfl
    · simp only [isBlank, Bool.or_eq_true, Bool.and_eq_true, decide_eq_true_eq, beq_iff_eq] at h
      simp only [separatorCodes, List.mem_cons, List.not_mem_nil, or_false]
      omega
    · decide
  have hx := hp x.toNat hmem
  rwa [Char.ofNat_toNat] at hx

section
variable {x : Char} (h : isVisible x = false)
include h

theorem not_continuesWord : continuesWord x = false := not_of_separatorCodes (by decide +kernel) h

theorem not_startsWord : startsWord x = false := by
  have hword := not_continuesWord h
  simp only [continuesWord, isAlphanumeric, Bool.or_eq_false_iff] at hword
  rw [startsWord, hword.1.1, hword.2]
  rfl

theorem not_isDigit : x.isDigit = false := not_of_separatorCodes (by decide +kernel) h

/-- A separator is not the same as a character that is none. -/
theorem ne_of_isVisible {y : Char} (hy : isVisible y = true) : x ≠ y := by
  rintro rfl
  exact absurd (h.symm.trans hy) (by decide)

end

section
variable {α : Type} {p : α → Bool} {x : α}

theorem takeWhile_append_cons (h : p x = false) (xs ys : List α) :
    (xs ++ x :: ys).takeWhile p = xs.takeWhile p := by
  induction xs with
  | nil => simp [h]
  | cons y xs ih => simp only [List.cons_append, List.takeWhile_cons, ih]

theorem dropWhile_append_cons (h : p x = false) (xs ys : List α) :
    (xs ++ x :: ys).dropWhile p = xs.dropWhile p ++ x :: ys := by
  induction xs with
  | nil => simp [h]
  | cons y xs ih =>
    simp only [List.cons_append, List.dropWhile_cons, ih]
    split <;> rfl

end

/-- A lexeme with more text behind it. -/
def Lexeme.before (l : Lexeme) (more : List Char) : Lexeme := { l with rest := l.rest ++ more }

section
variable {x : Char} (hx : isVisible x = false) (more : List Char)
include hx

theorem word_append (c : Char) (cs : List Char) :
    word c (cs ++ x :: more) = (word c cs).before (x :: more) := by
  simp only [word, Lexeme.before, takeWhile_append_cons (not_continuesWord hx),
    dropWhile_append_cons (not_continuesWord hx)]

theorem fraction_append_cons (cs : List Char) :
    fraction (cs ++ x :: more) = (fraction cs).map fun r => (r.1, r.2 ++ x :: more) := by
  have hdot : x ≠ '.' := ne_of_isVisible hx (by decide)
  match cs with
  | [] =>
    simp only [List.nil_append, fraction]
    split
    · next h => exact absurd (List.cons.inj h).1 hdot
    · rfl
  | [c] =>
    by_cases hc : c = '.'
    · subst hc
      simp only [List.cons_append, List.nil_append, fraction, (not_isDigit hx), Option.map_none]
      rfl
    · simp [fraction, hc]
  | c :: d :: cs =>
    by_cases hc : c = '.'
    · subst hc
      simp only [List.cons_append, fraction, takeWhile_append_cons (not_isDigit hx),
        dropWhile_append_cons (not_isDigit hx)]
      split <;> rfl
    · simp [fraction, hc]

theorem numeral_append (c : Char) (cs : List Char) :
    numeral c (cs ++ x :: more) = (numeral c cs).before (x :: more) := by
  simp only [numeral, takeWhile_append_cons (not_isDigit hx), dropWhile_append_cons (not_isDigit hx),
    fraction_append_cons hx]
  cases fraction (cs.dropWhile Char.isDigit) with
  | none => rfl
  | some r => rfl

omit hx in
/-- A string literal that a quote closes is not affected by what follows. -/
theorem stringBody_append_of_closed {cs contents : List Char}
    (h : (stringBody cs).1 = some contents) :
    stringBody (cs ++ more) =
      (some contents, (stringBody cs).2.1, (stringBody cs).2.2 ++ more) := by
  fun_induction stringBody cs generalizing contents with
  | case1 => simp at h
  | case2 c hc =>
    simp only [Option.some.injEq] at h
    subst h
    cases more <;> simp [stringBody, hc]
  | case3 c hc => simp at h
  | case4 c d cs hc =>
    simp only [Option.some.injEq] at h
    subst h
    simp [stringBody, hc]
  | case5 c d cs hc hback contents' text rest heq ih =>
    simp only [Option.map_eq_some_iff] at h
    obtain ⟨inner, hinner, rfl⟩ := h
    have hrest := ih (by rw [heq, hinner])
    simp only [heq] at hrest
    simp [stringBody, hc, hback, hrest]
  | case6 c d cs hc hback contents' text rest heq ih =>
    simp only [Option.map_eq_some_iff] at h
    obtain ⟨inner, hinner, rfl⟩ := h
    have hrest := ih (by rw [heq, hinner])
    simp only [heq, List.cons_append] at hrest
    simp [stringBody, hc, hback, hrest]

omit hx in
theorem stringLiteral_append {c : Char} {cs : List Char}
    (h : (stringLiteral c cs).kind ≠ .unterminated) :
    stringLiteral c (cs ++ more) = (stringLiteral c cs).before more := by
  cases hbody : (stringBody cs).1 with
  | none => exact absurd (by simp only [stringLiteral, hbody]) h
  | some contents =>
    simp only [stringLiteral, stringBody_append_of_closed more hbody, hbody, Lexeme.before]

theorem withEquals_append_cons (joined single : Symbol) (c : Char) (cs : List Char) :
    withEquals joined single c (cs ++ x :: more) =
      (withEquals joined single c cs).before (x :: more) := by
  have heq : x ≠ '=' := ne_of_isVisible hx (by decide)
  cases cs with
  | nil => simp [withEquals, heq, Lexeme.before]
  | cons d cs =>
    by_cases hd : d = '='
    · subst hd
      rfl
    · simp [withEquals, hd, Lexeme.before]

end

theorem closesBlock_append_newline (cs more : List Char) :
    closesBlock (cs ++ '\n' :: more) = closesBlock cs := by
  induction cs with
  | nil => rfl
  | cons c cs ih => simp only [List.cons_append, closesBlock, ih]

/-- A separator ends a token. A dot looks beyond a space, but not beyond a line break. -/
theorem lexeme_append_cons {x c : Char} {cs : List Char} (hx : isVisible x = false) (more : List Char)
    (hopen : (lexeme c cs).kind ≠ .unterminated) (hdot : c ≠ '.' ∨ x = '\n') :
    lexeme c (cs ++ x :: more) = (lexeme c cs).before (x :: more) := by
  have hread := readBy_lexeme c
  generalize lexeme c = read at hread hopen ⊢
  cases hread with
  | word => exact word_append hx more c cs
  | numeral => exact numeral_append hx more c cs
  | stringLiteral => exact stringLiteral_append (x :: more) hopen
  | withEquals => exact withEquals_append_cons hx more ..
  | dot hc =>
    obtain rfl := hdot.resolve_left (not_not_intro hc)
    simp only [closesBlock_append_newline, Lexeme.before]
  | single => rfl

/-! ## The whole text -/

theorem byteLength_append (cs ds : List Char) :
    byteLength (cs ++ ds) = byteLength cs + byteLength ds := by
  induction cs with
  | nil => simp [byteLength]
  | cons c cs ih => simp only [List.cons_append, byteLength, ih, Nat.add_assoc]

/-- Blanks up to the end of a text are followed by the blanks of the next line. -/
theorem skipBlanks_append_of_nil {inComment : Bool} {pos : Nat} {cs : List Char} (more : List Char)
    (h : (skipBlanks inComment pos cs).2 = []) :
    skipBlanks inComment pos (cs ++ '\n' :: more) =
      skipBlanks false (pos + byteLength cs) ('\n' :: more) := by
  fun_induction skipBlanks inComment pos cs with
  | case1 inComment pos =>
    simp only [List.nil_append, skipBlanks, byteLength, Nat.add_zero]
    cases inComment <;> rfl
  | case2 pos c cs ih =>
    simp only [List.cons_append, skipBlanks, byteLength, if_true, ih h, Nat.add_assoc]
  | case3 inComment pos c cs hin hhash ih =>
    simp only [List.cons_append, skipBlanks, byteLength, hin, hhash, if_true, ih h, Nat.add_assoc,
      Bool.false_eq_true, if_false]
  | case4 inComment pos c cs hin hhash hblank ih =>
    simp only [List.cons_append, skipBlanks, byteLength, hin, hhash, hblank, if_true, ih h,
      Nat.add_assoc, Bool.false_eq_true, if_false]
  | case5 inComment pos c cs hin hhash hblank => simp at h

/-- Blanks before a token are the same with more text behind it. -/
theorem skipBlanks_append_of_cons {inComment : Bool} {pos : Nat} {cs : List Char} {c : Char}
    {rest : List Char} (more : List Char) (h : (skipBlanks inComment pos cs).2 = c :: rest) :
    skipBlanks inComment pos (cs ++ more) =
      ((skipBlanks inComment pos cs).1, c :: rest ++ more) := by
  fun_induction skipBlanks inComment pos cs with
  | case1 => simp at h
  | case2 pos c cs ih => simp only [List.cons_append, skipBlanks, if_true, ih h]
  | case3 inComment pos c cs hin hhash ih =>
    simp only [List.cons_append, skipBlanks, hin, hhash, if_true, ih h, Bool.false_eq_true, if_false]
  | case4 inComment pos c cs hin hhash hblank ih =>
    simp only [List.cons_append, skipBlanks, hin, hhash, hblank, if_true, ih h, Bool.false_eq_true,
      if_false]
  | case5 inComment pos c cs hin hhash hblank =>
    simp only [List.cons.injEq] at h
    obtain ⟨rfl, rfl⟩ := h
    simp only [List.cons_append, skipBlanks, hin, hhash, hblank, Bool.false_eq_true, if_false]

theorem skipBlanks_fst (inComment : Bool) (pos : Nat) (cs : List Char) :
    (skipBlanks inComment pos cs).1 + byteLength (skipBlanks inComment pos cs).2 =
      pos + byteLength cs := by
  fun_induction skipBlanks inComment pos cs with
  | case1 => rfl
  | case2 pos c cs ih => simp only [ih, byteLength, Nat.add_assoc]
  | case3 inComment pos c cs hin hhash ih => simp only [ih, byteLength, Nat.add_assoc]
  | case4 inComment pos c cs hin hhash hblank ih => simp only [ih, byteLength, Nat.add_assoc]
  | case5 => rfl

theorem tokensFrom_eq_of_nil {pos : Nat} {cs : List Char} (h : (skipBlanks false pos cs).2 = []) :
    tokensFrom pos cs = [⟨.endOfFile, .point (skipBlanks false pos cs).1⟩] := by
  rw [tokensFrom]
  split
  · rfl
  · next heq => simp [h] at heq

theorem tokensFrom_eq_of_cons {pos : Nat} {cs rest : List Char} {c : Char}
    (h : (skipBlanks false pos cs).2 = c :: rest) :
    tokensFrom pos cs =
      ⟨(lexeme c rest).kind, .ofOffsets (skipBlanks false pos cs).1
          ((skipBlanks false pos cs).1 + byteLength (lexeme c rest).text)⟩ ::
        tokensFrom ((skipBlanks false pos cs).1 + byteLength (lexeme c rest).text)
          (lexeme c rest).rest := by
  rw [tokensFrom]
  split
  · next heq => simp [h] at heq
  · next c' rest' heq =>
    rw [h] at heq
    obtain ⟨rfl, rfl⟩ := List.cons.inj heq
    rfl

/-- The tokens of a text are those behind its leading blanks. -/
theorem tokensFrom_congr {pos pos' : Nat} {cs cs' : List Char}
    (h : skipBlanks false pos cs = skipBlanks false pos' cs') :
    tokensFrom pos cs = tokensFrom pos' cs' := by
  cases hskip : (skipBlanks false pos cs).2 with
  | nil =>
    have hskip' : (skipBlanks false pos' cs').2 = [] := h ▸ hskip
    rw [tokensFrom_eq_of_nil hskip, tokensFrom_eq_of_nil hskip', h]
  | cons c rest =>
    have hskip' : (skipBlanks false pos' cs').2 = c :: rest := h ▸ hskip
    rw [tokensFrom_eq_of_cons hskip, tokensFrom_eq_of_cons hskip', h]

theorem tokensFrom_ne_nil (pos : Nat) (cs : List Char) : tokensFrom pos cs ≠ [] := by
  rw [tokensFrom]
  split <;> exact List.cons_ne_nil _ _

/-- Text behind a line break leaves the tokens before it as they are. -/
theorem tokensFrom_append {pos : Nat} {cs : List Char} (more : List Char)
    (hclosed : ∀ t ∈ tokensFrom pos cs, t.kind ≠ .unterminated) :
    tokensFrom pos (cs ++ '\n' :: more) =
      (tokensFrom pos cs).dropLast ++ tokensFrom (pos + byteLength cs) ('\n' :: more) := by
  fun_induction tokensFrom pos cs with
  | case1 pos cs start h =>
    exact tokensFrom_congr (skipBlanks_append_of_nil more h)
  | case2 pos cs start c rest h l stop ih =>
    have hkind : l.kind ≠ .unterminated := hclosed _ List.mem_cons_self
    have hlexeme : lexeme c (rest ++ '\n' :: more) = l.before ('\n' :: more) :=
      lexeme_append_cons (by decide) more hkind (.inr rfl)
    have hskip := skipBlanks_append_of_cons ('\n' :: more) h
    have hlength : stop + byteLength l.rest = pos + byteLength cs := by
      have htext := congrArg byteLength (lexeme_append c rest)
      have hstart := skipBlanks_fst false pos cs
      simp only [byteLength_append] at htext
      simp only [h] at hstart
      change start + byteLength l.text + byteLength l.rest = pos + byteLength cs
      change start + _ = _ at hstart
      rw [Nat.add_assoc, htext, hstart]
    have hcons : (skipBlanks false pos (cs ++ '\n' :: more)).2 = c :: (rest ++ '\n' :: more) := by
      rw [hskip]
      rfl
    rw [tokensFrom_eq_of_cons hcons]
    simp only [hskip, hlexeme, Lexeme.before]
    rw [ih fun t ht => hclosed t (List.mem_cons_of_mem _ ht), hlength,
      List.dropLast_cons_of_ne_nil (tokensFrom_ne_nil _ _), List.cons_append]

end DotScript.Syntax
