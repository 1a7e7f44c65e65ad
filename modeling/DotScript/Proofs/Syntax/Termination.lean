import DotScript.Proofs.Syntax.ProgressStatements
import DotScript.Proofs.Syntax.Spelling

/-!
# Reading ends

Every function of the parser that goes down into itself reads at least one token when it succeeds,
and so does every round of its loops: `Progress`. A bound near the number of tokens left is therefore
all that it needs: `Bounded`. With the bound that `parse` takes, every text is a program or has an
error of its own.

Main statement: `parse_terminates`.
-/

namespace DotScript.Syntax

open DotScript.Text

namespace Parser

/-! ## Bounds -/

/-- A parser gives an answer under a bound, and the answer depends neither on the bound nor on what
stands behind the end of file. -/
structure Terminates {α : Type} (p : Nat → Parser α) (fuel : Nat) (c : Cursor) : Prop where
  ends : ∀ e, p fuel c = .error e → e.cause ≠ .exhausted
  larger : ∀ fuel', fuel ≤ fuel' → p fuel' c = p fuel c
  beyond : ∀ ts eof, p fuel (c.followedBy ts eof) =
    (p fuel c).map fun r => (r.1, r.2.followedBy ts eof)

/-- A bound that is `k` above the number of tokens left never runs out. -/
def Suffices {α : Type} (k : Nat) (p : Nat → Parser α) : Prop :=
  ∀ fuel c, c.rest.length + k ≤ fuel → Terminates p fuel c

theorem suffices_of_settles {α : Type} {p : Nat → Parser α} {k n : Nat}
    (h : ∀ {w}, Cursor.Prolongs w → ∀ {fuel fuel' : Nat} {c : Cursor}, fuel ≤ fuel' →
      Settles w (c.rest.length + k ≤ fuel) c n (p fuel c) (p fuel' (w c))) : Suffices k p := by
  intro fuel c hfuel
  have hends := h Cursor.prolongs_id (Nat.le_refl fuel) (c := c)
  refine ⟨fun e => hends.cause_ne hfuel, fun fuel' hle => ?_, fun ts eof => ?_⟩
  · have hsame := (h Cursor.prolongs_id hle).eq_map hfuel
    rw [id] at hsame
    rw [hsame]
    cases p fuel c <;> rfl
  · exact (h (Cursor.prolongs_followedBy ts eof) (Nat.le_refl fuel)).eq_map hfuel

/-- A bound near the number of tokens left is enough for the functions of the parser. -/
structure Bounded : Prop where
  program : Suffices 2 program
  stmt : Suffices 2 stmt
  functionDecl : Suffices 1 fun n => functionDecl (Parser.stmt n) n
  expr : Suffices 2 expr
  signed : Suffices 1 fun n => signed (operand (Parser.expr n) n) n
  operand : Suffices 1 fun n => operand (Parser.expr n) n
  primary : Suffices 1 fun n => primary (Parser.expr n) n

theorem bounded : Bounded where
  program := suffices_of_settles fun hw _ _ _ hle => settles_program hw hle
  stmt := suffices_of_settles fun hw fuel fuel' c hle => settles_stmt hw fuel fuel' c hle
  functionDecl := suffices_of_settles fun hw fuel fuel' _ hle =>
    (settles_functionDecl hw (fun c => settles_stmt hw fuel fuel' c hle) hle).needs (by omega)
  expr := suffices_of_settles fun hw fuel fuel' c hle => settles_expr hw fuel fuel' c hle
  signed := suffices_of_settles fun hw fuel fuel' c hle =>
    settles_parserAt hw (fun c => settles_expr hw fuel fuel' c hle) hle 4 c
  operand := suffices_of_settles fun hw fuel fuel' c hle =>
    settles_operand hw (fun c => settles_expr hw fuel fuel' c hle) hle
  primary := suffices_of_settles fun hw fuel fuel' c hle =>
    (settles_primary hw (fun c => settles_expr hw fuel fuel' c hle) hle).needs (by omega)

/-! ## Progress -/

/-- A loop whose rounds read at least one token each, the last one apart: that one finds that the
loop is over. -/
structure Loop {σ α : Type} (round : Nat → σ → Parser (Round σ α)) (loop : Nat → σ → Parser α) :
    Prop where
  repeats : Repeats round loop
  progress : RoundsProgress round

/-- The loop over items reads at least one token in every round, since an item is read in the last
one, too. -/
structure ItemLoop {α : Type} (item : Parser α) : Prop where
  repeats : Repeats (fun _ _ => itemRound item) fun n _ => commaSeparated item n
  progress : Progresses (itemRound item)

theorem ItemLoop.of_progresses {α : Type} {item : Parser α} (h : Progresses item) : ItemLoop item :=
  ⟨repeats_commaSeparated item, progresses_itemRound h⟩

/-- What the functions of the parser and the rounds of its loops read. None of it is the end of
file, and a program is read up to there. -/
structure Progress (fuel : Nat) : Prop where
  program : ∀ c, Gets (fun _ d => c.Reaches 0 d ∧ d.atEnd = true) (program fuel c)
  stmt : Progresses (stmt fuel)
  functionDecl : ∀ n, Progresses (functionDecl (Parser.stmt fuel) n)
  expr : Progresses (expr fuel)
  signed : ∀ n, Progresses (signed (operand (Parser.expr fuel) fuel) n)
  operand : Progresses (operand (Parser.expr fuel) fuel)
  primary : Progresses (primary (Parser.expr fuel) fuel)
  mapLiteral : ∀ c, c.kind = .symbol .lBrace →
    Gets (fun _ d => c.Reaches 2 d) (Parser.primary (Parser.expr fuel) fuel c)
  statements : ∀ stop, Loop (fun _ _ => stmtRound (Parser.stmt fuel) stop)
    fun n _ => stmtsUntil (Parser.stmt fuel) stop n
  methods : Loop (fun n _ => methodRound (Parser.stmt fuel) n)
    fun n _ => methods (Parser.stmt fuel) n
  params : ItemLoop ident
  args : ItemLoop (Parser.expr fuel)
  entries : ItemLoop (mapEntry (Parser.expr fuel))
  postfixes : Loop (postfixRound (Parser.expr fuel)) (postfixes (Parser.expr fuel))
  operators : ∀ l, IsTier l →
    Loop (fun _ => operatorRound (operatorAt l) (parserAt (Parser.expr fuel) fuel (l + 1)))
      (chain (operatorAt l) (parserAt (Parser.expr fuel) fuel (l + 1)))

/-- Statements end at a stop or at the end of file. -/
theorem stops_stmtsUntil (S : Parser Stmt) (stop : TokenKind → Bool) :
    ∀ n c, Gets (fun _ d => (d.atEnd || stop d.kind) = true) (stmtsUntil S stop n c)
  | 0, _ => .error
  | n + 1, c => by
    unfold stmtsUntil
    split
    · next hstop => exact .pure hstop
    · refine .bind (fun _ _ _ => trivial) fun s d _ => ?_
      exact (stops_stmtsUntil S stop n d).bind fun ss d' hstop => .pure hstop

theorem progress_program (fuel : Nat) (c : Cursor) :
    Gets (fun _ d => c.Reaches 0 d ∧ d.atEnd = true) (program fuel c) := by
  have hreads := (settles_program Cursor.prolongs_id (Nat.le_refl fuel) (c := c)).gets
  have hends : Gets (fun _ d => d.atEnd = true) (program fuel c) := by
    unfold program
    refine (stops_stmtsUntil (stmt fuel) (fun _ => false) fuel c).bind fun ss d hstop => ?_
    rw [Bool.or_false] at hstop
    exact .pure hstop
  exact fun p d h => ⟨hreads p d h, hends p d h⟩

theorem progress (fuel : Nat) : Progress fuel := by
  have hw := Cursor.prolongs_id
  have hE := fun c => settles_expr hw fuel fuel c (Nat.le_refl fuel)
  have hS := fun c => settles_stmt hw fuel fuel c (Nat.le_refl fuel)
  have hoperand := fun c => settles_operand hw hE (Nat.le_refl fuel) (c := c)
  have hdecl : ∀ n, Progresses (functionDecl (stmt fuel) n) := fun n c =>
    (settles_functionDecl hw hS (Nat.le_refl n)).gets
  have hlist : ∀ n, Progresses (listUntil (expr fuel) .rParen n) := fun n c =>
    (settles_listUntil hw hE .rParen (Nat.le_refl n)).gets
  have htier : ∀ l, Progresses (parserAt (expr fuel) fuel l) := fun l c =>
    (settles_parserAt hw hE (Nat.le_refl fuel) l c).gets
  exact
    { program := progress_program fuel
      stmt := .of_settles hS
      functionDecl := hdecl
      expr := .of_settles hE
      signed := fun n c => (settles_signed hw (Nat.le_refl n) hoperand).gets
      operand := .of_settles hoperand
      primary := fun c => (settles_primary hw hE (Nat.le_refl fuel)).gets
      mapLiteral := fun c hbrace => (settles_map hw hE (Nat.le_refl fuel) hbrace).gets
      statements := fun stop => ⟨repeats_stmtsUntil .., progress_stmtRound (.of_settles hS)⟩
      methods := ⟨repeats_methods _, progress_methodRound hdecl⟩
      params := .of_progresses progresses_ident
      args := .of_progresses (.of_settles hE)
      entries := .of_progresses (.of_settles fun c => settles_mapEntry hw hE)
      postfixes := ⟨repeats_postfixes _, progress_postfixRound hlist⟩
      operators := fun l _ => ⟨repeats_chain .., progress_operatorRound
        (operatorAt_of_joinLevel_ne nofun) (htier (l + 1))⟩ }

end Parser

/-! ## Texts -/

/-- A text has no more tokens than characters, the end of file apart. -/
theorem length_tokensFrom_le (pos : Nat) (cs : List Char) :
    (tokensFrom pos cs).length ≤ cs.length + 1 := by
  fun_induction tokensFrom pos cs with
  | case1 pos cs => exact Nat.le_add_left 1 cs.length
  | case2 pos cs start c rest h l stop ih =>
    have hblanks := length_skipBlanks_le false pos cs
    have hrest : l.rest.length ≤ rest.length := length_rest_le c rest
    rw [h, List.length_cons] at hblanks
    rw [List.length_cons]
    omega

/-- The cursor at the beginning of a text has no more tokens before it than the text has
characters, and with the end of file they are the tokens of the text. -/
theorem ofTokens_tokens (text : String) :
    (Cursor.ofTokens (tokens text)).rest.length ≤ text.length ∧
      (Cursor.ofTokens (tokens text)).tokens = tokens text := by
  obtain ⟨ts, eof, hts, -⟩ := exists_tokensFrom 0 text.toList
  have hlength := length_tokensFrom_le 0 text.toList
  rw [hts, List.length_append, List.length_singleton, String.length_toList] at hlength
  rw [tokens, hts, ofTokens_append]
  exact ⟨Nat.le_of_succ_le_succ hlength, rfl⟩

theorem parse_eq (text : String) : parse text =
    (Parser.program ((Cursor.ofTokens (tokens text)).rest.length + 2)
      (Cursor.ofTokens (tokens text))).map Prod.fst := by
  simp only [parse]
  generalize Parser.program _ (Cursor.ofTokens (tokens text)) = r
  cases r <;> rfl

/-- Reading ends. Every text is a program or has an error of its own, which is never that of a bound
that has run out. Two above the number of characters is bound enough: a larger one gives the same
answer, whatever stands behind the end of file. That is because every part of the parser that goes
down into itself reads at least one token, and so does every round of its loops, but never the end
of file. -/
theorem parse_terminates (text : String) :
    ((∃ p, parse text = .ok p) ∨ ∃ e, parse text = .error e ∧ e.cause ≠ .exhausted) ∧
    (∀ fuel, text.length + 2 ≤ fuel → ∀ beyond eof,
      (Parser.program fuel (Cursor.ofTokens (tokens text))).map Prod.fst = parse text ∧
      (Parser.program fuel ⟨tokens text ++ beyond, eof⟩).map Prod.fst = parse text) ∧
    Parser.Bounded ∧ ∀ fuel, Parser.Progress fuel := by
  obtain ⟨hlength, htokens⟩ := ofTokens_tokens text
  have hparse := parse_eq text
  generalize Cursor.ofTokens (tokens text) = c at hlength htokens hparse ⊢
  have hbound := Parser.bounded.program _ c (Nat.le_refl _)
  refine ⟨?_, fun fuel hfuel beyond eof => ?_, Parser.bounded, Parser.progress⟩
  · rw [hparse]
    cases hp : Parser.program (c.rest.length + 2) c with
    | ok p => exact .inl ⟨p.1, rfl⟩
    | error e => exact .inr ⟨e, rfl, hbound.ends e hp⟩
  · have hsame := hbound.larger fuel (by omega)
    have hbeyond := (Parser.bounded.program fuel c (by omega)).beyond beyond eof
    rw [Cursor.followedBy, htokens] at hbeyond
    rw [hparse, hbeyond, hsame]
    refine ⟨rfl, ?_⟩
    cases Parser.program (c.rest.length + 2) c <;> rfl

/-- A call without its end has an error of its own. The six rounds and levels that are two above its
four characters are enough to find it. -/
theorem parse_terminates_openCall :
    (∃ e, parse "f(1," = .error e ∧ e.cause ≠ .exhausted) ∧ "f(1,".length + 2 ≤ 6 ∧
      ∀ beyond eof, (Parser.program 6 (Cursor.ofTokens (tokens "f(1,"))).map Prod.fst =
          parse "f(1," ∧
        (Parser.program 6 ⟨tokens "f(1," ++ beyond, eof⟩).map Prod.fst = parse "f(1," := by
  obtain ⟨hanswer, hbound, -⟩ := parse_terminates "f(1,"
  have hfails : (parse "f(1,").toBool = false := by decide +kernel
  have hlength : "f(1,".length + 2 ≤ 6 := by decide
  refine ⟨hanswer.resolve_left ?_, hlength, hbound 6 hlength⟩
  rintro ⟨p, hp⟩
  rw [hp] at hfails
  cases hfails

end DotScript.Syntax
