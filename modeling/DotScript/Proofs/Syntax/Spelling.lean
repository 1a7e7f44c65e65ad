import DotScript.Proofs.Number.Literal
import DotScript.Proofs.Syntax.Writing
import DotScript.Syntax.Parser.Cursor

/-!
# Tokens as text

`spelled` writes tokens with a space between them, a dot that closes a block with a line break behind
it. Reading the text gives the tokens back, `map_kind_tokensFrom_spelled`, if each of them can be read
from a text at all and no property dot is the last.
-/

namespace DotScript.Syntax

open DotScript.Text

/-- Whether some text is read as the token. -/
def TokenKind.lexable : TokenKind → Bool
  | .ident name => isName name
  | .number n => n.lexable
  | .str _ | .keyword _ | .symbol _ => true
  | .endOfFile | .invalid _ | .unterminated => false

/-- A character inside a string literal. -/
def escape (c : Char) : List Char :=
  if c == '"' || c == '\\' then ['\\', c]
  else if c == '\n' then ['\\', 'n']
  else if c == '\t' then ['\\', 't']
  else [c]

/-- The text of a token. -/
def TokenKind.spelling : TokenKind → List Char
  | .ident name => name.toList
  | .number n =>
    match n.literal with
    | (whole, []) => whole
    | (whole, fraction) => whole ++ '.' :: fraction
  | .str s => '"' :: (s.toList.flatMap escape ++ ['"'])
  | .keyword k => k.text.toList
  | .symbol .blockDot => ['.', '\n']
  | .symbol s => s.text.toList
  | .endOfFile | .unterminated => []
  | .invalid c => [c]

/-- Tokens with a space between them. -/
def spelledChars : List TokenKind → List Char
  | [] => []
  | [k] => k.spelling
  | k :: ks => k.spelling ++ ' ' :: spelledChars ks

def spelled (ks : List TokenKind) : String := String.ofList (spelledChars ks)

/-! ## The text of one token -/

theorem isDigit_of_mem_padded {n k : Nat} {c : Char} (h : c ∈ Number.padded n k) :
    c.isDigit = true := by
  rcases List.mem_append.1 h with h | h
  · rw [List.eq_of_mem_replicate h]
    decide
  · exact Nat.isDigit_of_mem_toDigits (by decide) (by decide) h

/-- The text of a number is made of digits. -/
theorem isDigit_literal (n : Number) :
    n.literal.1 ≠ [] ∧ (∀ c ∈ n.literal.1, c.isDigit = true) ∧
      ∀ c ∈ n.literal.2, c.isDigit = true := by
  have hdigits : ∀ k, ∀ c ∈ Nat.toDigits 10 k, c.isDigit = true := fun k c h =>
    Nat.isDigit_of_mem_toDigits (by decide) (by decide) h
  unfold Number.literal
  generalize Number.overflow = overflow
  split
  · exact ⟨Nat.toDigits_ne_nil, hdigits _, fun c h => absurd h List.not_mem_nil⟩
  · simp only
    split
    · exact ⟨Nat.toDigits_ne_nil, hdigits _, fun c h => absurd h List.not_mem_nil⟩
    · exact ⟨Nat.toDigits_ne_nil, hdigits _, fun c h => isDigit_of_mem_padded h⟩

theorem spellsChar_escape (c : Char) : SpellsChar c (escape c) := by
  unfold escape
  split
  · next hc =>
    rw [Bool.or_eq_true, beq_iff_eq, beq_iff_eq] at hc
    exact .escaped hc
  · next hc =>
    rw [Bool.or_eq_true, beq_iff_eq, beq_iff_eq, not_or] at hc
    split
    · next hline =>
      obtain rfl := beq_iff_eq.mp hline
      exact .lineBreak
    split
    · next htab =>
      obtain rfl := beq_iff_eq.mp htab
      exact .tab
    · exact .plain hc.1 hc.2

theorem spellsChars_escape (s : List Char) : SpellsChars s (s.flatMap escape) := by
  induction s with
  | nil => exact .nil
  | cons c s ih => exact .cons (spellsChar_escape c) ih

/-- The text of a token is one way to write it. A dot that closes a block has its line break there,
too. -/
theorem spells_spelling {k : TokenKind} (hk : k.lexable = true) (hblock : k ≠ .symbol .blockDot) :
    Spells k k.spelling := by
  cases k with
  | ident name => exact .ident hk
  | number n =>
    obtain ⟨hne, hwhole, hfraction⟩ := isDigit_literal n
    have hvalue := Number.ofDigits_literal hk
    cases hliteral : n.literal with
    | mk whole fraction =>
      rw [hliteral] at hne hwhole hfraction hvalue
      dsimp only at hvalue
      rw [← hvalue] at hliteral ⊢
      cases fraction with
      | nil =>
        simp only [TokenKind.spelling, hliteral]
        exact .whole hne hwhole
      | cons d ds =>
        simp only [TokenKind.spelling, hliteral]
        exact .fraction hne (List.cons_ne_nil _ _) (List.forall_mem_append.mpr ⟨hwhole, hfraction⟩)
  | str s => exact .str (spellsChars_escape s.toList)
  | keyword k => exact .keyword k
  | symbol s =>
    have hs : s ≠ .blockDot := fun h => hblock (h ▸ rfl)
    have hspells : Spells (.symbol s) s.text.toList := .symbol hs
    cases s <;> first | exact hspells | exact absurd rfl hs
  | endOfFile | invalid | unterminated => exact absurd hk Bool.false_ne_true

/-- The text of a token begins with a character that is neither a blank nor begins a comment. -/
theorem exists_spelling {k : TokenKind} (hk : k.lexable = true) :
    ∃ c cs, k.spelling = c :: cs ∧ isVisible c = true := by
  by_cases hdot : k = .symbol .dot
  · subst hdot
    exact ⟨'.', [], rfl, by decide⟩
  by_cases hblock : k = .symbol .blockDot
  · subst hblock
    exact ⟨'.', ['\n'], rfl, by decide⟩
  · obtain ⟨c, cs, hspelling, hvisible, -⟩ := lexeme_spells (spells_spelling hk hblock) hdot hblock
    exact ⟨c, cs, hspelling, hvisible⟩

/-! ## The text of all tokens -/

theorem endsLine_of_isVisible {c : Char} (h : isVisible c = true) (cs : List Char) :
    endsLine (' ' :: c :: cs) = false := by
  have hne : ∀ d, isVisible d = false → (c == d) = false := fun d hd =>
    beq_eq_false_iff_ne.mpr (ne_of_isVisible hd h).symm
  simp [endsLine, hne ' ' (by decide), hne '\t' (by decide), hne '\r' (by decide),
    hne '\n' (by decide), hne '#' (by decide)]

/-- A token with a space behind it, or at the end. A property dot needs something visible behind the
space. -/
theorem written_spelling {k : TokenKind} {ks : List TokenKind} {gap rest : List Char}
    (hk : k.lexable = true) (h : Written ks rest)
    (hgap : ks = [] ∧ gap = [] ∨ gap = [' '])
    (hdot : k = .symbol .dot → endsLine (gap ++ rest) = false) :
    Written (k :: ks) (k.spelling ++ (gap ++ rest)) := by
  have hlayout : Layout ks.isEmpty gap := by
    rcases hgap with ⟨-, rfl⟩ | rfl
    · exact .nil
    · exact .blank (by decide) .nil
  by_cases hblock : k = .symbol .blockDot
  · subst hblock
    have hline : Layout ks.isEmpty ('\n' :: gap) := .blank (by decide) hlayout
    have hdot : DotFits (.symbol .blockDot) ('\n' :: gap ++ rest) := ⟨nofun, fun _ => rfl⟩
    change Written _ (['.'] ++ ('\n' :: gap ++ rest))
    exact .cons .blockDot hline (fun _ => List.cons_ne_nil _ _) hdot h
  · refine .cons (spells_spelling hk hblock) hlayout (fun hne => ?_)
      ⟨hdot, fun heq => absurd heq hblock⟩ h
    rcases hgap with ⟨hnil, -⟩ | rfl
    · exact absurd hnil hne
    · exact List.cons_ne_nil _ _

theorem written_spelledChars {ks : List TokenKind} (hks : ∀ k ∈ ks, k.lexable = true)
    (hdot : ks.getLast? ≠ some (.symbol .dot)) : Written ks (spelledChars ks) := by
  induction ks with
  | nil => exact .nil
  | cons k ks ih =>
    obtain ⟨hk, hks'⟩ := List.forall_mem_cons.mp hks
    cases ks with
    | nil =>
      have hlast : k ≠ .symbol .dot := fun h => hdot (congrArg some h)
      have hwritten := written_spelling hk .nil (.inl ⟨rfl, rfl⟩) fun h => absurd h hlast
      rwa [List.append_nil, List.append_nil] at hwritten
    | cons k' ks =>
      rw [List.getLast?_cons_cons] at hdot
      obtain ⟨c, cs, hspelling, hvisible⟩ := exists_spelling (hks' k' List.mem_cons_self)
      have hnext : ∃ cs', spelledChars (k' :: ks) = c :: cs' := by
        cases ks with
        | nil => exact ⟨cs, hspelling⟩
        | cons k'' ks =>
          refine ⟨cs ++ ' ' :: spelledChars (k'' :: ks), ?_⟩
          rw [spelledChars, hspelling, List.cons_append]
          exact List.cons_ne_nil _ _
      obtain ⟨cs', hcs'⟩ := hnext
      have hwritten := written_spelling hk (ih hks' hdot) (.inr rfl) fun _ => by
        rw [hcs']
        exact endsLine_of_isVisible hvisible cs'
      rw [spelledChars]
      · exact hwritten
      · exact List.cons_ne_nil _ _

/-- Reading the text of some tokens gives the tokens. -/
theorem map_kind_tokensFrom_spelled {ks : List TokenKind} (hks : ∀ k ∈ ks, k.lexable = true)
    (hdot : ks.getLast? ≠ some (.symbol .dot)) (pos : Nat) :
    (tokensFrom pos (spelledChars ks)).map Token.kind = ks ++ [.endOfFile] :=
  map_kind_tokensFrom_written (written_spelledChars hks hdot) pos

/-! ## What is read -/

theorem stringBody_rest_of_open {cs : List Char} (h : (stringBody cs).1 = none) :
    (stringBody cs).2.2 = [] := by
  fun_induction stringBody cs with
  | case1 | case2 | case3 | case4 => simp_all
  | case5 c d cs hc hback contents text rest heq ih =>
    rw [heq] at ih
    exact ih (Option.map_eq_none_iff.1 h)
  | case6 c d cs hc hback contents text rest heq ih =>
    rw [heq] at ih
    exact ih (Option.map_eq_none_iff.1 h)

/-- A kind that a text can have a token of. -/
def TokenKind.Occurs (k : TokenKind) : Prop :=
  k.lexable = true ∨ (∃ c, k = .invalid c) ∨ k = .unterminated

theorem TokenKind.Occurs.ne_endOfFile {k : TokenKind} (h : k.Occurs) : k ≠ .endOfFile := by
  rintro rfl
  rcases h with h | ⟨c, h⟩ | h <;> cases h

theorem word_lexable {c : Char} (h : startsWord c = true) (cs : List Char) :
    (word c cs).kind.lexable = true := by
  unfold word
  simp only
  cases hk : Keyword.ofText? (String.ofList (c :: cs.takeWhile continuesWord)) with
  | some k => rfl
  | none =>
    simp only [TokenKind.lexable, isName, String.toList_ofList, h, hk, Bool.true_and,
      Bool.and_eq_true, Option.isNone_none, and_true, List.all_eq_true]
    exact fun x hx => List.mem_takeWhile_imp hx

theorem numeral_lexable (c : Char) (cs : List Char) : (numeral c cs).kind.lexable = true := by
  unfold numeral
  simp only
  split <;> exact Number.lexable_ofDigits ..

theorem withEquals_lexable (joined single : Symbol) (c : Char) (cs : List Char) :
    (withEquals joined single c cs).kind.lexable = true := by
  unfold withEquals
  split <;> rfl

/-- A token can be read again, or is a character that begins none, or a string literal that goes on
to the end of the text. -/
theorem lexeme_occurs (c : Char) (cs : List Char) :
    (lexeme c cs).kind.lexable = true ∨ (∃ d, (lexeme c cs).kind = .invalid d) ∨
      ((lexeme c cs).kind = .unterminated ∧ (lexeme c cs).rest = []) := by
  have hread := readBy_lexeme c
  generalize lexeme c = read at hread ⊢
  cases hread with
  | word hword => exact .inl (word_lexable hword cs)
  | numeral => exact .inl (numeral_lexable c cs)
  | stringLiteral =>
    unfold stringLiteral
    cases hbody : (stringBody cs).1 with
    | none => exact .inr (.inr ⟨by simp [hbody], stringBody_rest_of_open hbody⟩)
    | some contents => exact .inl (by simp [hbody, TokenKind.lexable])
  | withEquals => exact .inl (withEquals_lexable ..)
  | dot => exact .inl rfl
  | single =>
    show (single c).lexable = true ∨ _
    unfold single
    split
    case h_13 => exact .inr (.inl ⟨c, rfl⟩)
    all_goals exact .inl rfl

/-- The tokens of a text are its proper tokens and the end of file. An open string literal can only
be the last of the proper ones. -/
theorem exists_tokensFrom (pos : Nat) (cs : List Char) :
    ∃ ts eof, tokensFrom pos cs = ts ++ [⟨.endOfFile, eof⟩] ∧ (∀ t ∈ ts, t.kind.Occurs) ∧
      (ts.getLast?.map Token.kind ≠ some .unterminated → ∀ t ∈ ts, t.kind ≠ .unterminated) := by
  fun_induction tokensFrom pos cs with
  | case1 pos cs start h =>
    exact ⟨[], _, rfl, fun _ h => absurd h List.not_mem_nil, fun _ _ h => absurd h List.not_mem_nil⟩
  | case2 pos cs start c rest h l stop ih =>
    obtain ⟨ts, eof, htokens, hts, hopen⟩ := ih
    refine ⟨⟨l.kind, .ofOffsets start stop⟩ :: ts, eof, by rw [htokens]; rfl, ?_, ?_⟩
    · intro t ht
      rcases List.mem_cons.1 ht with rfl | ht
      · exact (lexeme_occurs c rest).imp_right (Or.imp_right And.left)
      · exact hts t ht
    · intro hlast
      have hkind : l.kind ≠ .unterminated := by
        intro hl
        have hrest : l.rest = [] := by
          rcases lexeme_occurs c rest with h | ⟨d, h⟩ | h
          · rw [show (lexeme c rest).kind = _ from hl] at h
            exact absurd h Bool.false_ne_true
          · exact TokenKind.noConfusion (hl.symm.trans h)
          · exact h.2
        rw [hrest, tokensFrom_eq_of_nil rfl] at htokens
        have hnil : ts = [] := by
          cases ts with
          | nil => rfl
          | cons t ts => simp at htokens
        subst hnil
        exact hlast (congrArg some hl)
      have hlast' : ts.getLast?.map Token.kind ≠ some .unterminated := by
        cases ts with
        | nil => simp
        | cons t ts => rwa [List.getLast?_cons_cons] at hlast
      intro t ht
      rcases List.mem_cons.1 ht with rfl | ht
      · exact hkind
      · exact hopen hlast' t ht

theorem ofTokens_append (ts : List Token) (t : Token) :
    Cursor.ofTokens (ts ++ [t]) = ⟨ts, t.span⟩ := by
  induction ts with
  | nil => rfl
  | cons t' ts ih =>
    have hne : ts ++ [t] ≠ [] := by simp
    rw [List.cons_append, Cursor.ofTokens, ih]
    exact hne

end DotScript.Syntax
