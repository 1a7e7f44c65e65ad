import DotScript.Proofs.Syntax.Reading

/-!
# Tokens without parentheses

`plain ks` are the tokens `ks` with all parentheses dropped and bare keys of maps replaced by the
strings they stand for. Whether a name is a bare key depends on what stands around it, so the
brackets that are open are kept along the way: `plainFrom`.

`Spelt opened fresh ws c d` says that the tokens from `c` to `d` are plainly `ws`.
-/

namespace DotScript.Syntax

/-- Whether a key of a map may follow an open bracket, or a comma inside it. -/
def expectsKey (opened : List Symbol) : Bool := opened.head? == some .lBrace

/-- The brackets that are open behind a token, and whether a key may follow it. -/
def afterToken (opened : List Symbol) : TokenKind → List Symbol × Bool
  | .symbol .lParen => (.lParen :: opened, false)
  | .symbol .lBracket => (.lBracket :: opened, false)
  | .symbol .lBrace => (.lBrace :: opened, true)
  | .symbol .rParen | .symbol .rBracket | .symbol .rBrace => (opened.tail, false)
  | .symbol .comma => (opened, expectsKey opened)
  | _ => (opened, false)

/-- A name as the string that it stands for as a key. -/
def TokenKind.quoted : TokenKind → TokenKind
  | .ident name => .str name
  | k => k

/-- The tokens with every bare key replaced by its string. -/
def quoteKeys (opened : List Symbol) (fresh : Bool) : List TokenKind → List TokenKind
  | [] => []
  | k :: ks =>
    (if fresh && ks.head? == some (.symbol .colon) then k.quoted else k) ::
      quoteKeys (afterToken opened k).1 (afterToken opened k).2 ks

def isParen (k : TokenKind) : Bool := k == .symbol .lParen || k == .symbol .rParen

/-- Tokens behind some open brackets, without the parentheses and with bare keys as strings. -/
def plainFrom (opened : List Symbol) (fresh : Bool) (ks : List TokenKind) : List TokenKind :=
  (quoteKeys opened fresh ks).filter fun k => !isParen k

/-- The tokens without the parentheses and with bare keys as strings. -/
def plain (ks : List TokenKind) : List TokenKind := plainFrom [] false ks

theorem length_quoteKeys (ks : List TokenKind) : ∀ (opened : List Symbol) (fresh : Bool),
    (quoteKeys opened fresh ks).length = ks.length := by
  induction ks with
  | nil => exact fun _ _ => rfl
  | cons k ks ih => exact fun _ _ => congrArg (· + 1) (ih _ _)

theorem length_plain_le (ks : List TokenKind) : (plain ks).length ≤ ks.length :=
  Nat.le_trans (List.length_filter_le _ _) (Nat.le_of_eq (length_quoteKeys ks [] false))

/-! ## Token by token -/

section
variable {opened : List Symbol} {fresh : Bool} {k : TokenKind} {ks : List TokenKind} {name : String}

/-- A token that is no bare key. -/
theorem plainFrom_cons (h : fresh = false ∨ k.quoted = k) : plainFrom opened fresh (k :: ks) =
    (if isParen k then [] else [k]) ++ plainFrom (afterToken opened k).1 (afterToken opened k).2 ks := by
  have hsame : (if fresh && ks.head? == some (.symbol .colon) then k.quoted else k) = k := by
    rcases h with rfl | h
    · rfl
    · rw [h, ite_self]
  rw [plainFrom, quoteKeys, hsame, List.filter_cons]
  cases isParen k <;> rfl

theorem plainFrom_comma : plainFrom opened fresh (.symbol .comma :: ks) =
    .symbol .comma :: plainFrom opened (expectsKey opened) ks :=
  plainFrom_cons (.inr rfl)

theorem plainFrom_ident :
    plainFrom opened false (.ident name :: ks) = .ident name :: plainFrom opened false ks :=
  plainFrom_cons (.inl rfl)

theorem plainFrom_bareKey :
    plainFrom opened true (.ident name :: .symbol .colon :: ks) =
      .str name :: plainFrom opened false (.symbol .colon :: ks) := rfl

/-- What is no bare key is the same wherever it stands. -/
theorem plainFrom_fresh
    (h : ∀ name rest, ks = .ident name :: rest → rest.head? ≠ some (.symbol .colon)) :
    plainFrom opened fresh ks = plainFrom opened false ks := by
  cases ks with
  | nil => rfl
  | cons k ks =>
    have hsame : (if fresh && ks.head? == some (.symbol .colon) then k.quoted else k) = k := by
      cases k with
      | ident name =>
        have hcolon := h name ks rfl
        rw [if_neg]
        rw [Bool.and_eq_true, beq_iff_eq]
        exact fun h => hcolon h.2
      | _ => exact ite_self _
    rw [plainFrom, quoteKeys, hsame]
    rfl

/-- Whether a token stands for itself and opens, closes and separates nothing. -/
def isInert : TokenKind → Bool
  | .ident _ | .endOfFile => false
  | .symbol s =>
    !(s == .lParen || s == .rParen || s == .lBracket || s == .rBracket || s == .lBrace ||
      s == .rBrace || s == .comma)
  | _ => true

theorem plainFrom_inert (hk : isInert k = true) :
    plainFrom opened fresh (k :: ks) = k :: plainFrom opened false ks := by
  have hquoted : k.quoted = k := by
    cases k with
    | ident name => exact absurd hk Bool.false_ne_true
    | _ => rfl
  have hafter : afterToken opened k = (opened, false) ∧ isParen k = false := by
    cases k with
    | symbol s => cases s <;> first | exact ⟨rfl, rfl⟩ | exact absurd hk (by decide)
    | _ => exact ⟨rfl, rfl⟩
  rw [plainFrom_cons (.inr hquoted), hafter.1, hafter.2]
  rfl

end

theorem quoteKeys_endOfFile (ks : List TokenKind) : ∀ (opened : List Symbol) (fresh : Bool),
    quoteKeys opened fresh (ks ++ [.endOfFile]) = quoteKeys opened fresh ks ++ [.endOfFile] := by
  induction ks with
  | nil =>
    intro opened fresh
    cases fresh <;> rfl
  | cons k ks ih =>
    intro opened fresh
    have hhead : ((ks ++ [TokenKind.endOfFile]).head? == some (.symbol .colon)) =
        (ks.head? == some (.symbol .colon)) := by
      cases ks <;> rfl
    rw [List.cons_append, quoteKeys, quoteKeys, hhead, ih, List.cons_append]

theorem plain_endOfFile (ks : List TokenKind) : plain (ks ++ [.endOfFile]) = plain ks ++ [.endOfFile] := by
  rw [plain, plainFrom, quoteKeys_endOfFile, List.filter_append]
  rfl

/-! ## Between two cursors -/

namespace Cursor

variable {c d : Cursor}

theorem kinds_eq (h : c.kind ≠ .endOfFile) : c.kinds = c.kind :: c.advance.kinds := by
  rw [kinds, rest_eq h]
  rfl

/-- The tokens ahead can all stand in a text. -/
def Proper (c : Cursor) : Prop := ∀ t ∈ c.rest, t.kind.Occurs

theorem Proper.of_suffix (h : c.Proper) (hd : d.rest <:+ c.rest) : d.Proper :=
  fun t ht => h t (hd.mem ht)

theorem advance_suffix (c : Cursor) : c.advance.rest <:+ c.rest := List.tail_suffix _

theorem Proper.advance (h : c.Proper) : c.advance.Proper := h.of_suffix c.advance_suffix

theorem Proper.occurs (h : c.Proper) (hk : c.kind ≠ .endOfFile) : c.kind.Occurs := by
  unfold kind current at hk ⊢
  cases hrest : c.rest with
  | nil =>
    rw [hrest] at hk
    exact absurd rfl hk
  | cons t ts => exact h t (hrest ▸ List.mem_cons_self)

theorem Proper.lexable (h : c.Proper) (hk : c.kind ≠ .endOfFile)
    (hinvalid : ∀ ch, c.kind ≠ .invalid ch) (hopen : c.kind ≠ .unterminated) :
    c.kind.lexable = true := by
  rcases h.occurs hk with h | ⟨ch, h⟩ | h
  · exact h
  · exact absurd h (hinvalid ch)
  · exact absurd h hopen

theorem Proper.isName (h : c.Proper) {name : String} (hk : c.kind = .ident name) :
    isName name = true := by
  have hlexable := h.lexable (by simp [hk]) (by simp [hk]) (by simp [hk])
  rwa [hk] at hlexable

end Cursor

namespace Parser

/-- The tokens from one cursor to another are some plain tokens. -/
structure Spelt (opened : List Symbol) (fresh : Bool) (ws : List TokenKind) (c d : Cursor) :
    Prop where
  plain : plainFrom opened fresh c.kinds = ws ++ plainFrom opened false d.kinds
  suffix : d.rest <:+ c.rest

namespace Spelt

variable {opened : List Symbol} {fresh : Bool} {ws vs : List TokenKind} {c d d' : Cursor}

theorem trans (h : Spelt opened fresh ws c d) (h' : Spelt opened false vs d d') :
    Spelt opened fresh (ws ++ vs) c d' :=
  ⟨by rw [h.plain, h'.plain, List.append_assoc], h'.suffix.trans h.suffix⟩

theorem cons {k : TokenKind} (h : Spelt opened fresh [k] c d) (h' : Spelt opened false vs d d') :
    Spelt opened fresh (k :: vs) c d' := h.trans h'

theorem refl : Spelt opened false [] c c := ⟨rfl, List.suffix_rfl⟩

/-- What is no name is no bare key. -/
theorem of_ne_ident (hc : ∀ name, c.kind ≠ .ident name) (h : Spelt opened false ws c d) :
    Spelt opened fresh ws c d := by
  refine ⟨?_, h.suffix⟩
  rw [plainFrom_fresh, h.plain]
  intro name rest hkinds
  exact absurd (Cursor.kind_of_kinds hkinds) (hc name)

theorem token {k : TokenKind} (hc : c.kind = k) (hk : isInert k = true) :
    Spelt opened fresh [k] c c.advance := by
  refine ⟨?_, c.advance_suffix⟩
  have hend : c.kind ≠ .endOfFile := by
    rintro hend
    rw [← hc, hend] at hk
    cases hk
  rw [Cursor.kinds_eq hend, hc, plainFrom_inert hk]
  rfl

theorem ident {name : String} (h : c.kind = .ident name) :
    Spelt opened false [.ident name] c c.advance := by
  refine ⟨?_, c.advance_suffix⟩
  rw [Cursor.kinds_eq (by rw [h]; exact TokenKind.noConfusion), h, plainFrom_ident]
  rfl

theorem comma (hc : c.kind = .symbol .comma)
    (h : Spelt opened (expectsKey opened) ws c.advance d) :
    Spelt opened fresh (.symbol .comma :: ws) c d := by
  refine ⟨?_, h.suffix.trans c.advance_suffix⟩
  rw [Cursor.kinds_eq (by rw [hc]; exact TokenKind.noConfusion), hc, plainFrom_comma, h.plain]
  rfl

/-- What stands between brackets, and the brackets unless they are parentheses. -/
theorem enclosed {left right : Symbol}
    (hleft : afterToken opened (.symbol left) = (left :: opened, left == .lBrace))
    (hright : afterToken (left :: opened) (.symbol right) = (opened, false))
    (hc : c.kind = .symbol left) (h : Spelt (left :: opened) (left == .lBrace) ws c.advance d)
    (hd : d.kind = .symbol right) :
    Spelt opened fresh ((if isParen (.symbol left) then [] else [.symbol left]) ++ ws ++
      (if isParen (.symbol right) then [] else [.symbol right])) c d.advance := by
  refine ⟨?_, (d.advance_suffix.trans h.suffix).trans c.advance_suffix⟩
  have hc' := Cursor.kinds_eq (show c.kind ≠ .endOfFile by rw [hc]; exact TokenKind.noConfusion)
  have hd' := Cursor.kinds_eq (show d.kind ≠ .endOfFile by rw [hd]; exact TokenKind.noConfusion)
  rw [hc', hc, plainFrom_cons (.inr rfl), hleft, h.plain, hd', hd, plainFrom_cons (.inr rfl), hright,
    List.append_assoc, List.append_assoc]

end Spelt

end Parser

end DotScript.Syntax
