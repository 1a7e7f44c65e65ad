import DotScript.Proofs.Syntax.Rounds
import DotScript.Proofs.Syntax.Spans

/-!
# Progress of the parser

What the parser reads are tokens before the end of file, at least one for every expression and for
every round of a loop but the last: `Cursor.Reaches`. So a bound on nesting and on loops that is
above the number of tokens left does not run out, and neither a larger bound nor what stands behind
the end of file makes any difference. All this is said at once, of two answers, by `Settles`; this
module proves it of expressions, `settles_expr`.
-/

namespace DotScript.Syntax

open DotScript.Text

/-! ## From one cursor to another -/

namespace Cursor

/-- From a cursor to another one at least `n` tokens are read, and none of them is the end of file. -/
structure Reaches (c : Cursor) (n : Nat) (d : Cursor) : Prop where
  read : ∃ ts, c.rest = ts ++ d.rest ∧ n ≤ ts.length ∧ ∀ t ∈ ts, t.kind ≠ .endOfFile
  eof : d.eof = c.eof

namespace Reaches

variable {c d d' : Cursor} {m n : Nat}

theorem refl (c : Cursor) : c.Reaches 0 c :=
  ⟨⟨[], rfl, Nat.le_refl 0, fun _ h => absurd h List.not_mem_nil⟩, rfl⟩

theorem trans (h : c.Reaches m d) (h' : d.Reaches n d') : c.Reaches (m + n) d' := by
  obtain ⟨ts, hts, hm, hread⟩ := h.read
  obtain ⟨us, hus, hn, hread'⟩ := h'.read
  refine ⟨⟨ts ++ us, ?_, ?_, ?_⟩, h'.eof.trans h.eof⟩
  · rw [hts, hus, List.append_assoc]
  · rw [List.length_append]
    exact Nat.add_le_add hm hn
  · exact List.forall_mem_append.2 ⟨hread, hread'⟩

theorem mono (h : c.Reaches n d) (hm : m ≤ n) : c.Reaches m d := by
  obtain ⟨ts, hts, hn, hread⟩ := h.read
  exact ⟨⟨ts, hts, hm.trans hn, hread⟩, h.eof⟩

theorem length (h : c.Reaches n d) : d.rest.length + n ≤ c.rest.length := by
  obtain ⟨ts, hts, hn, -⟩ := h.read
  rw [hts, List.length_append]
  omega

theorem advance (h : c.kind ≠ .endOfFile) : c.Reaches 1 c.advance :=
  ⟨⟨[c.current], rest_eq h, Nat.le_refl 1, List.forall_mem_singleton.2 h⟩, rfl⟩

end Reaches

/-- A change of cursors that nobody can see who does not look behind the end of file. -/
structure Prolongs (w : Cursor → Cursor) : Prop where
  current : ∀ c, (w c).current = c.current
  advance : ∀ c, c.kind ≠ .endOfFile → (w c).advance = w c.advance

theorem prolongs_id : Prolongs id := ⟨fun _ => rfl, fun _ _ => rfl⟩

/-- The tokens of a cursor with the end of file, more tokens behind it, and an end of file behind
these. -/
def followedBy (beyond : List Token) (eof : Span) (c : Cursor) : Cursor := ⟨c.tokens ++ beyond, eof⟩

theorem prolongs_followedBy (beyond : List Token) (eof : Span) : Prolongs (followedBy beyond eof) where
  current c := by
    obtain ⟨ts, hts⟩ := c.exists_tokens_eq
    rw [followedBy, hts]
    rfl
  advance c h := by
    have htokens : c.tokens = c.current :: c.advance.tokens := by
      rw [tokens, rest_eq h]
      rfl
    rw [followedBy, htokens]
    rfl

namespace Prolongs

variable {w : Cursor → Cursor} (h : Prolongs w) (c : Cursor)
include h

theorem kind : (w c).kind = c.kind := congrArg Token.kind (h.current c)

theorem span : (w c).span = c.span := congrArg Token.span (h.current c)

theorem isAt (s : Symbol) : (w c).isAt s = c.isAt s := congrArg (· == _) (h.kind c)

theorem atKeyword (k : Keyword) : (w c).atKeyword k = c.atKeyword k := congrArg (· == _) (h.kind c)

theorem atEnd : (w c).atEnd = c.atEnd := congrArg (· == _) (h.kind c)

theorem unexpected (what : String) : (w c).unexpected what = c.unexpected what := by
  rw [Cursor.unexpected, Cursor.unexpected, h.kind, h.span]

end Prolongs

theorem unexpected_cause_ne (c : Cursor) (what : String) :
    (c.unexpected what).cause ≠ .exhausted := by
  unfold unexpected
  generalize c.kind = k
  cases k <;> exact ParseCause.noConfusion

theorem ne_endOfFile_of_isAt {c : Cursor} {s : Symbol} (h : c.isAt s = true) :
    c.kind ≠ .endOfFile := by
  have hk : c.kind = .symbol s := eq_of_beq h
  exact hk.trans_ne nofun

end Cursor

open Cursor (Prolongs)

namespace Parser

/-! ## Two answers -/

/-- Two answers at a cursor, the second one under a larger bound and with cursors that are
prolonged. They are the same, unless the first one says that its bound, which is not `enough`, has
run out; and a success has read at least `n` tokens. -/
inductive Settles {α : Type} (w : Cursor → Cursor) (enough : Prop) (c : Cursor) (n : Nat) :
    Except ParseError (α × Cursor) → Except ParseError (α × Cursor) → Prop
  | ok {v : α} {d : Cursor} (hd : c.Reaches n d) : Settles w enough c n (.ok (v, d)) (.ok (v, w d))
  | error {e : ParseError} (he : e.cause ≠ .exhausted) : Settles w enough c n (.error e) (.error e)
  | exhausted {e : ParseError} {r' : Except ParseError (α × Cursor)} (he : e.cause = .exhausted)
    (hn : ¬ enough) : Settles w enough c n (.error e) r'

/-- A parser that reads at least one token whenever it succeeds. -/
def Progresses {α : Type} (p : Parser α) : Prop := ∀ c, Gets (fun _ d => c.Reaches 1 d) (p c)

section
variable {α β : Type} {w : Cursor → Cursor} {enough enough' : Prop} {c d : Cursor} {m n : Nat}
  {r r' : Except ParseError (α × Cursor)} {f f' : α × Cursor → Except ParseError (β × Cursor)}

namespace Settles

theorem pure {v : α} : Settles w enough c 0 (.ok (v, c)) (.ok (v, w c)) := .ok (.refl c)

theorem mono (h : Settles w enough c n r r') (hm : m ≤ n) : Settles w enough c m r r' := by
  cases h with
  | ok hd => exact .ok (hd.mono hm)
  | error he => exact .error he
  | exhausted he hn => exact .exhausted he hn

theorem weaken (h : Settles w enough c n r r') : Settles w enough c 0 r r' := h.mono (Nat.zero_le n)

theorem needs (h : Settles w enough c n r r') (henough : enough' → enough) :
    Settles w enough' c n r r' := by
  cases h with
  | ok hd => exact .ok hd
  | error he => exact .error he
  | exhausted he hn => exact .exhausted he (mt henough hn)

theorem behind (hd : c.Reaches m d) (h : Settles w enough d n r r') :
    Settles w enough c (m + n) r r' := by
  cases h with
  | ok hd' => exact .ok (hd.trans hd')
  | error he => exact .error he
  | exhausted he hn => exact .exhausted he hn

theorem advance (hk : c.kind ≠ .endOfFile)
    (h : c.advance.rest.length + 1 = c.rest.length → Settles w enough c.advance n r r') :
    Settles w enough c (n + 1) r r' :=
  Nat.add_comm 1 n ▸ behind (.advance hk) (h (Cursor.length_advance hk))

/-- What is read first is what counts. -/
theorem bind (h : Settles w enough c m r r') (hf : ∀ v d, d.rest.length + m ≤ c.rest.length →
    Settles w enough d 0 (f (v, d)) (f' (v, w d))) : Settles w enough c m (r >>= f) (r' >>= f') := by
  cases h with
  | ok hd => exact behind hd (hf _ _ hd.length)
  | error he => exact .error he
  | exhausted he hn => exact .exhausted he hn

theorem map (g : α → β) (h : Settles w enough c n r r') :
    Settles w enough c n (r >>= fun p => .ok (g p.1, p.2)) (r' >>= fun p => .ok (g p.1, p.2)) :=
  h.bind fun _ _ _ => .pure

/-- What is read second is what counts. -/
theorem andThen (h : Settles w enough c 0 r r') (hf : ∀ v d, d.rest.length ≤ c.rest.length →
    Settles w enough d n (f (v, d)) (f' (v, w d))) : Settles w enough c n (r >>= f) (r' >>= f') := by
  cases h with
  | ok hd => exact Nat.zero_add n ▸ behind hd (hf _ _ hd.length)
  | error he => exact .error he
  | exhausted he hn => exact .exhausted he hn

theorem gets (h : Settles w enough c n r r') : Gets (fun _ d => c.Reaches n d) r := by
  cases h with
  | ok hd => exact .pure hd
  | error | exhausted => exact .error

/-- A bound that is enough does not run out. -/
theorem cause_ne (h : Settles w enough c n r r') (henough : enough) {e : ParseError}
    (he : r = .error e) : e.cause ≠ .exhausted := by
  cases h with
  | ok hd => cases he
  | error hne => exact Except.error.inj he ▸ hne
  | exhausted _ hn => exact absurd henough hn

/-- If the bound is enough, then the answers are the same. -/
theorem eq_map (h : Settles w enough c n r r') (henough : enough) :
    r' = r.map fun p => (p.1, w p.2) := by
  cases h with
  | ok | error => rfl
  | exhausted _ hn => exact absurd henough hn

end Settles

theorem Progresses.of_settles {p p' : Parser α} {enough : Cursor → Prop}
    (h : ∀ c, Settles w (enough c) c 1 (p c) (p' (w c))) : Progresses p := fun c => (h c).gets

/-! ## Tokens -/

variable (hw : Prolongs w)
include hw

theorem settles_advance {v : α} (hk : c.kind ≠ .endOfFile) :
    Settles w enough c 1 (.ok (v, c.advance)) (.ok (v, (w c).advance)) := by
  rw [hw.advance c hk]
  exact .ok (.advance hk)

theorem settles_unexpected (what : String) :
    Settles (α := α) w enough c n (.error (c.unexpected what)) (.error ((w c).unexpected what)) := by
  rw [hw.unexpected]
  exact .error (c.unexpected_cause_ne what)

theorem settles_expect {k : TokenKind} (hk : k ≠ .endOfFile) :
    Settles w enough c 1 (expect k c) (expect k (w c)) := by
  unfold expect
  rw [hw.kind, hw.span]
  split
  · next h => exact settles_advance hw (h ▸ hk)
  · exact settles_unexpected hw _

theorem settles_symbol (s : Symbol) : Settles w enough c 1 (symbol s c) (symbol s (w c)) :=
  settles_expect hw TokenKind.noConfusion

theorem settles_keyword (k : Keyword) : Settles w enough c 1 (keyword k c) (keyword k (w c)) :=
  settles_expect hw TokenKind.noConfusion

theorem settles_ident : Settles w enough c 1 (ident c) (ident (w c)) := by
  unfold ident
  rw [hw.kind, hw.span]
  split
  · next h => exact settles_advance hw (h.trans_ne nofun)
  · exact settles_unexpected hw _

end

theorem progresses_ident : Progresses ident := by
  intro c
  have hsettles : Settles id True c 1 (ident c) (ident c) := settles_ident Cursor.prolongs_id
  exact hsettles.gets

/-- The end of file is no operator. -/
theorem ne_endOfFile_of_operator {β : Type} {op : TokenKind → Option β} {k : TokenKind} {o : β}
    (hop : op .endOfFile = none) (h : op k = some o) : k ≠ .endOfFile := by
  rintro rfl
  cases hop.symm.trans h

/-! ## Loops -/

section
variable {α σ : Type} {w : Cursor → Cursor}

/-- Whether a loop ends with a round. -/
def Round.isLast : Round σ α → Bool
  | .last _ => true
  | .next .. => false

/-- Every round but the last reads at least one token. -/
def RoundsProgress (round : Nat → σ → Parser (Round σ α)) : Prop :=
  ∀ n s c, Gets (fun r d => r.isLast = false → c.Reaches 1 d) (round n s c)

theorem RoundsProgress.of_progresses {round : Nat → σ → Parser (Round σ α)}
    (h : ∀ n s, Progresses (round n s)) : RoundsProgress round :=
  fun n s c => (h n s c).mono fun _ _ hd _ => hd

/-- A loop needs no more rounds than there are tokens, if its rounds need no more than `j` above
the number of tokens themselves. The induction is on the number of rounds. -/
theorem settles_loop {round round' : Nat → σ → Parser (Round σ α)} {loop loop' : Nat → σ → Parser α}
    {fuel j m : Nat} (hloop : Repeats round loop) (hloop' : Repeats round' loop')
    (hprogress : RoundsProgress round)
    (hround : ∀ n n' s c, n ≤ n' →
      Settles w (c.rest.length ≤ n ∧ c.rest.length + j ≤ fuel) c m (round n s c)
        (round' n' s (w c))) :
    ∀ n n' s c, n ≤ n' →
      Settles w (c.rest.length < n ∧ c.rest.length + j ≤ fuel) c m (loop n s c) (loop' n' s (w c))
  | 0, _, s, c, _ => by
    rw [hloop.zero]
    exact .exhausted rfl (by omega)
  | _ + 1, 0, _, _, hle => absurd hle (Nat.not_succ_le_zero _)
  | n + 1, n' + 1, s, c, hle => by
    rw [hloop.succ, hloop'.succ]
    have hsettles := hround n n' s c (Nat.le_of_succ_le_succ hle)
    have hreads := hprogress n s c
    generalize round n s c = r, round' n' s (w c) = r' at hsettles hreads ⊢
    cases hsettles with
    | @ok v d hd =>
      cases v with
      | last v => exact .ok hd
      | next s' make =>
        have hd' := (hreads _ _ rfl rfl).length
        have hrest : Settles w (c.rest.length < n + 1 ∧ c.rest.length + j ≤ fuel) d 0 (loop n s' d)
            (loop' n' s' (w d)) :=
          ((settles_loop hloop hloop' hprogress hround n n' s' d (Nat.le_of_succ_le_succ hle)).needs
            (by omega)).weaken
        exact .behind hd (hrest.map make)
    | error he => exact .error he
    | exhausted he hn => exact .exhausted he (by omega)

end

/-! ## Items -/

section
variable {α : Type} {w : Cursor → Cursor} {item item' : Parser α} {fuel j n n' : Nat} {c : Cursor}

theorem progresses_itemRound (hitem : Progresses item) : Progresses (itemRound item) := by
  intro c
  unfold itemRound
  refine (hitem c).bind fun x d hd => ?_
  simp only
  split
  · next hcomma =>
    have hcomma := Cursor.Reaches.advance (Cursor.ne_endOfFile_of_isAt hcomma)
    exact .pure ((hd.trans hcomma).mono (by omega))
  · exact .pure hd

variable (hw : Prolongs w)
  (hitem : ∀ c, Settles w (c.rest.length + j ≤ fuel) c 1 (item c) (item' (w c)))
include hw hitem

theorem settles_commaSeparated (hn : n ≤ n') :
    Settles w (c.rest.length < n ∧ c.rest.length + j ≤ fuel) c 1 (commaSeparated item n c)
      (commaSeparated item' n' (w c)) := by
  refine settles_loop (repeats_commaSeparated item) (repeats_commaSeparated item')
    (.of_progresses fun _ _ => progresses_itemRound (.of_settles hitem)) (fun _ _ _ c _ => ?_)
    n n' () c hn
  unfold itemRound
  refine ((hitem c).needs And.right).bind fun x d _ => ?_
  simp only [hw.isAt]
  split
  · next hcomma => exact (settles_advance hw (Cursor.ne_endOfFile_of_isAt hcomma)).weaken
  · exact .pure

theorem settles_itemsBefore (close : Symbol) (hn : n ≤ n') :
    Settles w (c.rest.length < n ∧ c.rest.length + j ≤ fuel) c 0 (itemsBefore item close n c)
      (itemsBefore item' close n' (w c)) := by
  unfold itemsBefore
  rw [hw.isAt]
  split
  · exact .pure
  · exact (settles_commaSeparated hw hitem hn).weaken

theorem settles_listUntil (close : Symbol) (hn : n ≤ n') :
    Settles w (c.rest.length < n ∧ c.rest.length + j ≤ fuel) c 1 (listUntil item close n c)
      (listUntil item' close n' (w c)) := by
  rw [listUntil_eq, listUntil_eq]
  refine (settles_itemsBefore hw hitem close hn).andThen fun items d _ => ?_
  exact (settles_symbol hw close).bind fun stop d _ => .pure

end

/-! ## Expressions

The parsers `E` and `E'` read the expressions inside others, where fewer tokens are left. -/

section
variable {w : Cursor → Cursor} {E E' T T' : Parser Expr} {fuel fuel' n n' : Nat} {c : Cursor}

theorem progress_postfixRound (hlist : ∀ n, Progresses (listUntil E .rParen n)) :
    RoundsProgress (postfixRound E) := by
  intro n e c
  unfold postfixRound
  split
  · next hparen =>
    have hopened := Cursor.Reaches.advance (Cursor.ne_endOfFile_of_isAt hparen)
    refine (hlist n c.advance).bind fun p d hd => ?_
    exact .pure fun _ => (hopened.trans hd).mono (by omega)
  split
  · next hdot =>
    have hopened := Cursor.Reaches.advance (Cursor.ne_endOfFile_of_isAt hdot)
    refine (progresses_ident c.advance).bind fun name d hd => ?_
    exact .pure fun _ => (hopened.trans hd).mono (by omega)
  · exact .pure nofun

theorem progresses_signRound (hT : Progresses T) : Progresses (signRound T) := by
  intro c
  unfold signRound
  split
  · exact (hT c).bind fun e d hd => .pure hd
  · next op hop => exact .pure (.advance (ne_endOfFile_of_operator rfl hop))

theorem progress_operatorRound {op : TokenKind → Option BinaryOp} (hop : op .endOfFile = none)
    (hT : Progresses T) : RoundsProgress fun _ => operatorRound op T := by
  intro _ left c
  show Gets _ (operatorRound op T left c)
  unfold operatorRound
  split
  · exact .pure nofun
  · next o ho =>
    have hread := Cursor.Reaches.advance (ne_endOfFile_of_operator hop ho)
    refine (hT c.advance).bind fun right d hd => ?_
    exact .pure fun _ => (hread.trans hd).mono (by omega)

variable (hw : Prolongs w)
include hw

theorem settles_signed (hn : n ≤ n')
    (hT : ∀ c, Settles w (c.rest.length + 1 ≤ fuel) c 1 (T c) (T' (w c))) :
    Settles w (c.rest.length < n ∧ c.rest.length + 1 ≤ fuel) c 1 (signed T n c)
      (signed T' n' (w c)) := by
  refine settles_loop (repeats_signed T) (repeats_signed T')
    (.of_progresses fun _ _ => progresses_signRound (.of_settles hT)) (fun _ _ _ c _ => ?_) n n' () c hn
  unfold signRound
  rw [hw.kind, hw.span]
  split
  · exact ((hT c).needs And.right).bind fun e d _ => .pure
  · next op hop => exact settles_advance hw (ne_endOfFile_of_operator rfl hop)

theorem settles_chain {op : TokenKind → Option BinaryOp} {left : Expr} (hop : op .endOfFile = none)
    (hn : n ≤ n') (hT : ∀ c, Settles w (c.rest.length + 1 ≤ fuel) c 1 (T c) (T' (w c))) :
    Settles w (c.rest.length < n ∧ c.rest.length + 1 ≤ fuel) c 0 (chain op T n left c)
      (chain op T' n' left (w c)) := by
  refine settles_loop (repeats_chain op T) (repeats_chain op T')
    (progress_operatorRound hop (.of_settles hT)) (fun _ _ left c _ => ?_) n n' left c hn
  unfold operatorRound
  rw [hw.kind]
  split
  · exact .pure
  · next o ho =>
    have hk := ne_endOfFile_of_operator hop ho
    rw [hw.advance c hk]
    refine .weaken (.advance (n := 1) hk fun h => ?_)
    exact ((hT c.advance).needs (by omega)).bind fun right d _ => .pure

theorem settles_leftAssoc {op : TokenKind → Option BinaryOp} (hop : op .endOfFile = none)
    (hle : fuel ≤ fuel') (hT : ∀ c, Settles w (c.rest.length + 1 ≤ fuel) c 1 (T c) (T' (w c))) :
    Settles w (c.rest.length + 1 ≤ fuel) c 1 (leftAssoc op T fuel c)
      (leftAssoc op T' fuel' (w c)) := by
  unfold leftAssoc
  refine (hT c).bind fun left d _ => ?_
  exact (settles_chain hw hop hle hT).needs (by omega)

variable (hE : ∀ c, Settles w (c.rest.length + 2 ≤ fuel) c 1 (E c) (E' (w c)))
include hE

theorem settles_mapKey :
    Settles w (c.rest.length + 2 ≤ fuel) c 1 (mapKey E c) (mapKey E' (w c)) := by
  unfold mapKey
  rw [hw.kind, hw.span]
  split
  · next name hname =>
    have hk : c.kind ≠ .endOfFile := hname.trans_ne nofun
    rw [hw.advance c hk, hw.isAt]
    split
    · exact .ok (.advance hk)
    · exact hE c
  · exact hE c

theorem settles_mapEntry :
    Settles w (c.rest.length + 2 ≤ fuel) c 1 (mapEntry E c) (mapEntry E' (w c)) := by
  unfold mapEntry
  refine (settles_mapKey hw hE).bind fun key c₁ h₁ => ?_
  refine (settles_symbol hw .colon).weaken.bind fun _ c₂ h₂ => ?_
  exact ((hE c₂).needs (by omega)).weaken.bind fun value d _ => .pure

/-- A map literal reads at least its two braces. -/
theorem settles_map (hn : n ≤ n') (hk : c.kind = .symbol .lBrace) :
    Settles w (c.rest.length ≤ n ∧ c.rest.length + 1 ≤ fuel) c 2 (primary E n c)
      (primary E' n' (w c)) := by
  have hne : c.kind ≠ .endOfFile := hk.trans_ne nofun
  have hentry : ∀ c, Settles w (c.rest.length + 2 ≤ fuel) c 1 (mapEntry E c) (mapEntry E' (w c)) :=
    fun c => settles_mapEntry hw hE
  unfold primary
  simp only [hw.kind, hw.span, hk, hw.advance c hne]
  refine .advance hne fun h => ?_
  refine ((settles_listUntil hw hentry .rBrace hn).needs ?_).bind fun _ _ _ => .pure
  omega

theorem settles_primary (hn : n ≤ n') :
    Settles w (c.rest.length ≤ n ∧ c.rest.length + 1 ≤ fuel) c 1 (primary E n c)
      (primary E' n' (w c)) := by
  by_cases hbrace : c.kind = .symbol .lBrace
  · exact (settles_map hw hE hn hbrace).mono (Nat.le_succ 1)
  unfold primary
  simp only [hw.kind, hw.span]
  split
  case h_8 hk =>
    have hne : c.kind ≠ .endOfFile := hk.trans_ne TokenKind.noConfusion
    rw [hw.advance c hne]
    refine .advance hne fun h => ((hE c.advance).needs (by omega)).weaken.bind fun inner d _ => ?_
    exact (settles_symbol hw .rParen).weaken.bind fun _ _ _ => .pure
  case h_9 hk =>
    have hne : c.kind ≠ .endOfFile := hk.trans_ne TokenKind.noConfusion
    rw [hw.advance c hne]
    refine .advance hne fun h => ?_
    exact ((settles_listUntil hw hE .rBracket hn).needs (by omega)).weaken.bind fun _ _ _ => .pure
  case h_10 hk => exact absurd hk hbrace
  case h_11 => exact settles_unexpected hw _
  all_goals
    next hk => exact settles_advance hw (hk.trans_ne TokenKind.noConfusion)

theorem settles_postfixes {e : Expr} (hn : n ≤ n') :
    Settles w (c.rest.length < n ∧ c.rest.length + 1 ≤ fuel) c 0 (postfixes E n e c)
      (postfixes E' n' e (w c)) := by
  have hlist : ∀ n, Progresses (listUntil E .rParen n) := fun n c =>
    (settles_listUntil hw hE .rParen (Nat.le_refl n)).gets
  refine settles_loop (repeats_postfixes E) (repeats_postfixes E') (progress_postfixRound hlist)
    (fun n n' e c hn => ?_) n n' e c hn
  unfold postfixRound
  rw [hw.isAt, hw.isAt]
  split
  · next hparen =>
    have hne := Cursor.ne_endOfFile_of_isAt hparen
    rw [hw.advance c hne]
    refine .weaken (.advance (n := 1) hne fun h => ?_)
    exact ((settles_listUntil hw hE .rParen hn).needs (by omega)).bind fun _ _ _ => .pure
  split
  · next hdot =>
    have hne := Cursor.ne_endOfFile_of_isAt hdot
    rw [hw.advance c hne]
    exact .weaken (.advance (n := 1) hne fun _ => (settles_ident hw).bind fun _ _ _ => .pure)
  · exact .pure

theorem settles_operand (hle : fuel ≤ fuel') :
    Settles w (c.rest.length + 1 ≤ fuel) c 1 (operand E fuel c) (operand E' fuel' (w c)) := by
  unfold operand
  refine ((settles_primary hw hE hle).needs (by omega)).bind fun e d _ => ?_
  exact (settles_postfixes hw hE hle).needs (by omega)

/-- All levels of expressions are made of the next tighter one, up to the operands. -/
theorem settles_parserAt (hle : fuel ≤ fuel') (l : Nat) (c : Cursor) :
    Settles w (c.rest.length + 1 ≤ fuel) c 1 (parserAt E fuel l c) (parserAt E' fuel' l (w c)) := by
  by_cases hl : IsTier l
  · rw [parserAt_eq hl, parserAt_eq hl]
    have hop : operatorAt l .endOfFile = none := operatorAt_of_joinLevel_ne nofun
    exact settles_leftAssoc hw hop hle (settles_parserAt hle (l + 1))
  · match l, hl with
    | 0, _ | _ + 5, _ => exact settles_operand hw hE hle
    | 4, _ =>
      exact (settles_signed hw hle fun c => settles_operand hw hE hle).needs (by omega)
    | 1, hl | 2, hl | 3, hl => exact absurd (by decide) hl
termination_by 5 - l
decreasing_by
  obtain ⟨-, hhigh⟩ := hl
  omega

end

/-- An expression. The induction is on the bound. -/
theorem settles_expr {w : Cursor → Cursor} (hw : Prolongs w) :
    ∀ (fuel fuel' : Nat) (c : Cursor), fuel ≤ fuel' →
      Settles w (c.rest.length + 2 ≤ fuel) c 1 (expr fuel c) (expr fuel' (w c))
  | 0, _, _, _ => .exhausted rfl (by omega)
  | _ + 1, 0, _, hle => absurd hle (Nat.not_succ_le_zero _)
  | fuel + 1, fuel' + 1, c, hle => by
    have hle' := Nat.le_of_succ_le_succ hle
    have hE := fun c => settles_expr hw fuel fuel' c hle'
    have hcomparison := settles_parserAt hw hE hle' 1 c
    unfold expr
    refine (hcomparison.needs (by omega)).bind fun target d h => ?_
    simp only [hw.isAt]
    split
    · next hassign =>
      have hne := Cursor.ne_endOfFile_of_isAt hassign
      rw [hw.advance d hne]
      refine .weaken (.advance (n := 1) hne fun h => ?_)
      exact ((hE d.advance).needs (by omega)).bind fun value d' _ => .pure
    · exact .pure

end Parser

end DotScript.Syntax
