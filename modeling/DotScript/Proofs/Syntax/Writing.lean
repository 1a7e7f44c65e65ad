import DotScript.Proofs.Syntax.Layout
import Mathlib.Data.List.TakeWhile

/-!
# Ways to write tokens

`Spells` lists the ways to write one token, `Written` those to write some tokens with layout behind
each of them. What is read does not depend on the way: `map_kind_tokensFrom_written`. Only a dot means
one thing or the other by the layout behind it, `endsLine`.
-/

namespace DotScript.Syntax

open DotScript.Text

/-- Whether a text is a name and no reserved word. -/
def isName (name : String) : Bool :=
  match name.toList with
  | [] => false
  | c :: cs => startsWord c && cs.all continuesWord && (Keyword.ofText? name).isNone

/-- The ways to write a character inside a string literal. -/
inductive SpellsChar : Char → List Char → Prop
  | escaped {c} (hc : c = '"' ∨ c = '\\') : SpellsChar c ['\\', c]
  | plain {c} (hquote : c ≠ '"') (hback : c ≠ '\\') : SpellsChar c [c]
  | lineBreak : SpellsChar '\n' ['\\', 'n']
  | tab : SpellsChar '\t' ['\\', 't']

/-- The ways to write the inside of a string literal. -/
inductive SpellsChars : List Char → List Char → Prop
  | nil : SpellsChars [] []
  | cons {c cs text body} (hc : SpellsChar c text) (h : SpellsChars cs body) :
    SpellsChars (c :: cs) (text ++ body)

/-- The ways to write a token. -/
inductive Spells : TokenKind → List Char → Prop
  | ident {name} (h : isName name = true) : Spells (.ident name) name.toList
  | keyword (k : Keyword) : Spells (.keyword k) k.text.toList
  | whole {digits} (hne : digits ≠ []) (h : ∀ c ∈ digits, c.isDigit = true) :
    Spells (.number (.ofDigits digits [])) digits
  | fraction {whole digits} (hwhole : whole ≠ []) (hdigits : digits ≠ [])
    (h : ∀ c ∈ whole ++ digits, c.isDigit = true) :
    Spells (.number (.ofDigits whole digits)) (whole ++ '.' :: digits)
  | str {s : String} {body} (h : SpellsChars s.toList body) : Spells (.str s) ('"' :: (body ++ ['"']))
  | symbol {s : Symbol} (hblock : s ≠ .blockDot) : Spells (.symbol s) s.text.toList
  | blockDot : Spells (.symbol .blockDot) ['.']

/-- Whether a line ends, or a comment begins, behind the spaces and tabs. -/
def endsLine (cs : List Char) : Bool :=
  match cs.dropWhile fun c => c == ' ' || c == '\t' with
  | [] => true
  | c :: _ => c == '\r' || c == '\n' || c == '#'

/-- Behind a property dot the line goes on, and behind a dot that closes a block it does not. -/
def DotFits (k : TokenKind) (rest : List Char) : Prop :=
  (k = .symbol .dot → endsLine rest = false) ∧ (k = .symbol .blockDot → endsLine rest = true)

/-- The ways to write some tokens, with layout between them and behind the last one. -/
inductive Written : List TokenKind → List Char → Prop
  | nil : Written [] []
  | cons {k ks text gap rest} (hk : Spells k text) (hgap : Layout ks.isEmpty gap)
    (hapart : ks ≠ [] → gap ≠ []) (hdot : DotFits k (gap ++ rest)) (h : Written ks rest) :
    Written (k :: ks) (text ++ (gap ++ rest))

/-! ## The first character of a token -/

theorem isVisible_of_startsWord {c : Char} (h : startsWord c = true) : isVisible c = true := by
  cases hc : isVisible c with
  | true => rfl
  | false => exact absurd (h.symm.trans (not_startsWord hc)) (by decide)

theorem not_startsWord_of_isDigit {c : Char} (h : c.isDigit = true) :
    startsWord c = false ∧ isVisible c = true := by
  have hcode : ∀ n < 58, 48 ≤ n →
      startsWord (Char.ofNat n) = false ∧ isVisible (Char.ofNat n) = true := by decide
  simp only [Char.isDigit, Bool.and_eq_true, decide_eq_true_eq, UInt32.le_iff_toNat_le] at h
  have hdigit := hcode c.toNat (Nat.lt_succ_of_le h.2) h.1
  rwa [Char.ofNat_toNat] at hdigit

theorem skipBlanks_of_isVisible {c : Char} (h : isVisible c = true) (pos : Nat) (cs : List Char) :
    skipBlanks false pos (c :: cs) = (pos, c :: cs) := by
  simp only [isVisible, Bool.and_eq_true, Bool.not_eq_true', bne_iff_ne] at h
  simp [skipBlanks, h.1, h.2]

theorem closesBlock_eq (cs : List Char) : closesBlock cs = endsLine cs := by
  induction cs with
  | nil => rfl
  | cons c cs ih =>
    simp only [closesBlock, endsLine, List.dropWhile_cons]
    split
    · exact ih
    · rfl

/-! ## Reading one token -/

theorem word_of_isName {name : String} {c : Char} {cs : List Char} (h : isName name = true)
    (hchars : name.toList = c :: cs) : lexeme c cs = ⟨.ident name, c :: cs, []⟩ := by
  simp only [isName, hchars, Bool.and_eq_true, Option.isNone_iff_eq_none] at h
  obtain ⟨⟨hstart, hall⟩, hkeyword⟩ := h
  have htake : cs.takeWhile continuesWord = cs :=
    List.takeWhile_eq_self_iff.2 (List.all_eq_true.1 hall)
  have hdrop : cs.dropWhile continuesWord = [] :=
    List.dropWhile_eq_nil_iff.2 (List.all_eq_true.1 hall)
  have hname : String.ofList (c :: cs) = name := by rw [← hchars, String.ofList_toList]
  simp only [lexeme, if_pos hstart, word, htake, hdrop, hname, hkeyword]

theorem numeral_of_digits {c : Char} {cs : List Char} (hc : c.isDigit = true)
    (hcs : ∀ d ∈ cs, d.isDigit = true) :
    lexeme c cs = ⟨.number (.ofDigits (c :: cs) []), c :: cs, []⟩ := by
  have htake : cs.takeWhile Char.isDigit = cs := List.takeWhile_eq_self_iff.2 hcs
  have hdrop : cs.dropWhile Char.isDigit = [] := List.dropWhile_eq_nil_iff.2 hcs
  simp [lexeme, (not_startsWord_of_isDigit hc).1, hc, numeral, htake, hdrop, fraction]

theorem numeral_of_fraction {c d : Char} {cs ds : List Char} (hc : c.isDigit = true)
    (hcs : ∀ x ∈ cs, x.isDigit = true) (hd : d.isDigit = true) (hds : ∀ x ∈ ds, x.isDigit = true) :
    lexeme c (cs ++ '.' :: d :: ds) =
      ⟨.number (.ofDigits (c :: cs) (d :: ds)), c :: cs ++ '.' :: d :: ds, []⟩ := by
  have hdot : Char.isDigit '.' = false := by decide
  have htake : cs.takeWhile Char.isDigit = cs := List.takeWhile_eq_self_iff.2 hcs
  have hdrop : cs.dropWhile Char.isDigit = [] := List.dropWhile_eq_nil_iff.2 hcs
  have htake' : ds.takeWhile Char.isDigit = ds := List.takeWhile_eq_self_iff.2 hds
  have hdrop' : ds.dropWhile Char.isDigit = [] := List.dropWhile_eq_nil_iff.2 hds
  simp [lexeme, (not_startsWord_of_isDigit hc).1, hc, numeral, takeWhile_append_cons hdot,
    dropWhile_append_cons hdot, htake, hdrop, fraction, hd, htake', hdrop']

theorem stringBody_cons {c : Char} {text cs : List Char} (hc : SpellsChar c text) (h : cs ≠ []) :
    stringBody (text ++ cs) =
      ((stringBody cs).1.map (c :: ·), text ++ (stringBody cs).2.1, (stringBody cs).2.2) := by
  obtain ⟨d, ds, rfl⟩ := List.exists_cons_of_ne_nil h
  cases hc with
  | escaped hc => rcases hc with rfl | rfl <;> rfl
  | plain hquote hback => simp [hquote, hback, stringBody]
  | lineBreak | tab => rfl

theorem stringBody_spelled {s body : List Char} (h : SpellsChars s body) :
    stringBody (body ++ ['"']) = (some s, body ++ ['"'], []) := by
  induction h with
  | nil => rfl
  | cons hc _ ih =>
    rw [List.append_assoc, stringBody_cons hc (by simp), ih]
    rfl

theorem lexeme_keyword (k : Keyword) :
    ∃ c cs, k.text.toList = c :: cs ∧ isVisible c = true ∧ c ≠ '.' ∧
      lexeme c cs = ⟨.keyword k, c :: cs, []⟩ := by
  cases k <;> exact ⟨_, _, rfl, by decide, by decide, by rfl⟩

theorem lexeme_symbol {s : Symbol} (hdot : s ≠ .dot) (hblock : s ≠ .blockDot) :
    ∃ c cs, s.text.toList = c :: cs ∧ isVisible c = true ∧ c ≠ '.' ∧
      lexeme c cs = ⟨.symbol s, c :: cs, []⟩ := by
  cases s
  case dot => exact absurd rfl hdot
  case blockDot => exact absurd rfl hblock
  all_goals exact ⟨_, _, rfl, by decide, by decide, by rfl⟩

/-- In whatever way a token is written, a dot apart, it is read as that token. -/
theorem lexeme_spells {k : TokenKind} {text : List Char} (h : Spells k text)
    (hdot : k ≠ .symbol .dot) (hblock : k ≠ .symbol .blockDot) :
    ∃ c cs, text = c :: cs ∧ isVisible c = true ∧ c ≠ '.' ∧ lexeme c cs = ⟨k, c :: cs, []⟩ := by
  have hdigit : ∀ c : Char, c.isDigit = true → c ≠ '.' := by
    rintro c hc rfl
    exact absurd hc (by decide)
  have hword : ∀ c : Char, startsWord c = true → c ≠ '.' := by
    rintro c hc rfl
    exact absurd hc (by decide)
  cases h with
  | @ident name hname =>
    cases hchars : name.toList with
    | nil => simp [isName, hchars] at hname
    | cons c cs =>
      have hstart : startsWord c = true := by
        simp only [isName, hchars, Bool.and_eq_true] at hname
        exact hname.1.1
      exact ⟨c, cs, rfl, isVisible_of_startsWord hstart, hword c hstart,
        word_of_isName hname hchars⟩
  | keyword k => exact lexeme_keyword k
  | whole hne hdigits =>
    obtain ⟨c, cs, rfl⟩ := List.exists_cons_of_ne_nil hne
    obtain ⟨hc, hcs⟩ := List.forall_mem_cons.mp hdigits
    exact ⟨c, cs, rfl, (not_startsWord_of_isDigit hc).2, hdigit c hc, numeral_of_digits hc hcs⟩
  | fraction hwhole hfraction hdigits =>
    obtain ⟨c, cs, rfl⟩ := List.exists_cons_of_ne_nil hwhole
    obtain ⟨d, ds, rfl⟩ := List.exists_cons_of_ne_nil hfraction
    obtain ⟨hwhole, hfraction⟩ := List.forall_mem_append.mp hdigits
    obtain ⟨hc, hcs⟩ := List.forall_mem_cons.mp hwhole
    obtain ⟨hd, hds⟩ := List.forall_mem_cons.mp hfraction
    exact ⟨c, cs ++ '.' :: d :: ds, rfl, (not_startsWord_of_isDigit hc).2, hdigit c hc,
      numeral_of_fraction hc hcs hd hds⟩
  | @str s body hbody =>
    refine ⟨'"', body ++ ['"'], rfl, by decide, by decide, ?_⟩
    have hread := stringBody_spelled hbody
    show stringLiteral '"' _ = _
    simp only [stringLiteral, hread, String.ofList_toList]
  | symbol _ => exact lexeme_symbol (fun h => hdot (h ▸ rfl)) fun h => hblock (h ▸ rfl)
  | blockDot => exact absurd rfl hblock

/-! ## Reading all tokens -/

theorem tokensFrom_of_isVisible {c : Char} (h : isVisible c = true) (pos : Nat) (cs : List Char) :
    ∃ t, t.kind = (lexeme c cs).kind ∧
      tokensFrom pos (c :: cs) =
        t :: tokensFrom (pos + byteLength (lexeme c cs).text) (lexeme c cs).rest := by
  have hskip := skipBlanks_of_isVisible h pos cs
  have hcons : (skipBlanks false pos (c :: cs)).2 = c :: cs := by rw [hskip]
  have htokens := tokensFrom_eq_of_cons hcons
  rw [hskip] at htokens
  exact ⟨_, rfl, htokens⟩

theorem tokensFrom_layout {atEnd : Bool} {gap cs : List Char} (h : Layout atEnd gap)
    (hend : atEnd = true → cs = []) (pos : Nat) :
    tokensFrom pos (gap ++ cs) = tokensFrom (pos + byteLength gap) cs :=
  tokensFrom_congr (skipBlanks_layout h hend pos)

/-- A layout begins with a blank or a comment. -/
theorem Layout.not_isVisible {atEnd : Bool} {c : Char} {cs : List Char}
    (h : Layout atEnd (c :: cs)) : isVisible c = false := by
  cases h with
  | blank hc _ => simp [isVisible, hc]
  | comment _ _ | last _ _ => decide

theorem lexeme_dot (cs : List Char) :
    lexeme '.' cs = ⟨.symbol (if closesBlock cs then .blockDot else .dot), ['.'], cs⟩ := by
  rfl

/-- A token is read off a text, if the text behind it can be told from it. -/
theorem tokensFrom_spells {k : TokenKind} {text rest : List Char} (h : Spells k text)
    (hrest : rest = [] ∨ ∃ x more, rest = x :: more ∧ isVisible x = false) (hdot : DotFits k rest)
    (pos : Nat) :
    ∃ t, t.kind = k ∧ tokensFrom pos (text ++ rest) = t :: tokensFrom (pos + byteLength text) rest := by
  by_cases hk : k = .symbol .dot ∨ k = .symbol .blockDot
  · have hkind : (lexeme '.' rest).kind = k := by
      rw [lexeme_dot, closesBlock_eq]
      rcases hk with rfl | rfl
      · rw [hdot.1 rfl]
        rfl
      · rw [hdot.2 rfl]
        rfl
    have htext : text = ['.'] := by
      rcases hk with rfl | rfl
      · cases h
        rfl
      · cases h with
        | symbol hblock => exact absurd rfl hblock
        | blockDot => rfl
    subst htext
    obtain ⟨t, htkind, ht⟩ := tokensFrom_of_isVisible (c := '.') (by decide) pos rest
    exact ⟨t, htkind.trans hkind, ht⟩
  · obtain ⟨hk, hk'⟩ := not_or.mp hk
    obtain ⟨c, cs, rfl, hvisible, hne, hread⟩ := lexeme_spells h hk hk'
    have hread' : lexeme c (cs ++ rest) = ⟨k, c :: cs, rest⟩ := by
      rcases hrest with rfl | ⟨x, more, rfl, hx⟩
      · rw [List.append_nil, hread]
      · have hopen : (lexeme c cs).kind ≠ .unterminated := by
          rw [hread]
          rintro rfl
          cases h
        rw [lexeme_append_cons hx more hopen (.inl hne), hread]
        rfl
    obtain ⟨t, htkind, ht⟩ := tokensFrom_of_isVisible hvisible pos (cs ++ rest)
    rw [hread'] at htkind ht
    exact ⟨t, htkind, ht⟩

theorem map_kind_tokensFrom_written {ks : List TokenKind} {cs : List Char} (h : Written ks cs)
    (pos : Nat) : (tokensFrom pos cs).map Token.kind = ks ++ [.endOfFile] := by
  induction h generalizing pos with
  | nil =>
    rw [tokensFrom_eq_of_nil rfl]
    rfl
  | @cons k ks text gap rest hk hgap hapart hdot h ih =>
    have hlast : ks.isEmpty = true → rest = [] := by
      intro hempty
      obtain rfl := List.isEmpty_iff.mp hempty
      cases h
      rfl
    have hrest : gap ++ rest = [] ∨ ∃ x more, gap ++ rest = x :: more ∧ isVisible x = false := by
      cases gap with
      | nil =>
        obtain rfl : ks = [] := not_imp_not.mp hapart rfl
        cases h
        exact .inl rfl
      | cons x gap => exact .inr ⟨x, gap ++ rest, rfl, hgap.not_isVisible⟩
    obtain ⟨t, htkind, ht⟩ := tokensFrom_spells hk hrest hdot pos
    rw [ht, tokensFrom_layout hgap hlast, List.map_cons, htkind, ih]
    rfl

/-- The kinds of the tokens of a text, with what they carry, do not depend on the way the tokens are
written nor on the layout around them. -/
theorem map_kind_tokens_written {ks : List TokenKind} {lead cs : List Char}
    (hlead : Layout ks.isEmpty lead) (h : Written ks cs) :
    (tokens (String.ofList (lead ++ cs))).map Token.kind = ks ++ [.endOfFile] := by
  have hlast : ks.isEmpty = true → cs = [] := by
    intro hempty
    obtain rfl := List.isEmpty_iff.mp hempty
    cases h
    rfl
  rw [tokens, String.toList_ofList, tokensFrom_layout hlead hlast, map_kind_tokensFrom_written h]

/-- A property dot on its line, and a dot that a comment makes the end of a block. -/
theorem map_kind_tokens_written_dots : ∃ lead cs ks, Layout ks.isEmpty lead ∧ Written ks cs ∧
    lead ++ cs = "\n p .\tx . # end".toList ∧
    (tokens (String.ofList (lead ++ cs))).map Token.kind = ks ++ [.endOfFile] := by
  have hspace {atEnd : Bool} : Layout atEnd [' '] := .blank (by decide) .nil
  have htab : Layout false ['\t'] := .blank (by decide) .nil
  have hlead : Layout false ['\n', ' '] := .blank (by decide) hspace
  have hend : Layout true [' ', '#', ' ', 'e', 'n', 'd'] :=
    .blank (by decide) (.last rfl (by decide))
  have hp : Spells (.ident "p") ['p'] := .ident (by decide +kernel)
  have hx : Spells (.ident "x") ['x'] := .ident (by decide +kernel)
  have hdot : Spells (.symbol .dot) ['.'] := .symbol nofun
  have hwritten : Written [.ident "p", .symbol .dot, .ident "x", .symbol .blockDot] _ :=
    .cons hp hspace nofun ⟨nofun, nofun⟩ <|
    .cons hdot htab nofun ⟨fun _ => rfl, nofun⟩ <|
    .cons hx hspace nofun ⟨nofun, nofun⟩ <|
    .cons .blockDot hend nofun ⟨nofun, fun _ => rfl⟩ .nil
  exact ⟨_, _, [.ident "p", .symbol .dot, .ident "x", .symbol .blockDot], hlead, hwritten, rfl,
    map_kind_tokens_written hlead hwritten⟩

end DotScript.Syntax
