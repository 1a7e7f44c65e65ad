import DotScript.Proofs.Syntax.Accounting
import DotScript.Proofs.Syntax.ReadingStatements

/-!
# Programs that were read

A statement that the parser has read is normal, its tokens are all that there were, and what stands
behind it leaves it as it is: `StmtAccounts`. So each statement of a list may stand before the next
one, and every program that was read is normal and has the tokens of its text:
`normal_and_plain_of_parse`. With the other direction this says that reading and writing are inverse
to each other: `rendered_inverse_parse`.
-/

namespace DotScript.Syntax

open DotScript.Text

namespace Parser

/-! ## Lists of statements -/

/-- What is known of a statement that was read between two cursors. -/
structure StmtAccounts (c : Cursor) (s : Stmt) (d : Cursor) : Prop where
  normal : s.normal = true
  spelt : Spelt [] false (s.words false) c d
  leaves : Leaves s d.kinds
  ambiguous : s.beginsAmbiguously = true → isAmbiguous c.kind = true

/-- A parser of statements gives account of what it reads. -/
def FaithfulStmt (S : Parser Stmt) : Prop :=
  ∀ c, c.Proper → Gets (fun s d => StmtAccounts c s d) (S c)

section
variable {c d : Cursor} {s s' : Stmt} {fuel n : Nat} {S : Parser Stmt} {E : Parser Expr}

theorem joinLevel_ne_none_of_isAmbiguous {k : TokenKind} (h : isAmbiguous k = true) :
    joinLevel k ≠ none := by
  rcases Bool.or_eq_true _ _ ▸ h with h | h
  · rw [beq_iff_eq.1 h]
    exact Option.some_ne_none _
  · rw [beq_iff_eq.1 h]
    exact Option.some_ne_none _

theorem isInert_of_endsReturn {k : TokenKind} (h : endsReturn k = true) (hk : k ≠ .endOfFile) :
    isInert k = true := by
  cases k with
  | symbol s => cases s <;> first | rfl | exact absurd h (by decide)
  | ident name => exact absurd h Bool.false_ne_true
  | endOfFile => exact absurd rfl hk
  | _ => rfl

/-- A statement does not begin with a token that closes a block. -/
theorem StmtAccounts.endsReturn_eq_false (h : StmtAccounts c s d) (hc : c.kind ≠ .endOfFile) :
    endsReturn c.kind = false := by
  rw [Bool.eq_false_iff]
  intro hend
  have hplain := h.spelt.plain
  obtain ⟨k, ks, hwords, hk⟩ := Stmt.beginsStmt_words false h.normal
  rw [Cursor.kinds_eq hc, plainFrom_inert (isInert_of_endsReturn hend hc), hwords] at hplain
  rw [(List.cons.inj hplain).1, endsReturn_of_beginsStmt hk] at hend
  cases hend

theorem StmtAccounts.precedes (h : StmtAccounts c s' d) (hc : c.kind ≠ .endOfFile)
    (hleaves : Leaves s c.kinds) : s.precedes s' = true := by
  have hreturn : s.isBareReturn = false := by
    rw [Bool.eq_false_iff]
    intro hs
    have hend := hleaves.bareReturn hs
    rw [← Cursor.kind_eq_headD, h.endsReturn_eq_false hc] at hend
    cases hend
  have hexpr : (s.endsInExpr && s'.beginsAmbiguously) = false := by
    rw [Bool.eq_false_iff, ne_eq, Bool.and_eq_true]
    rintro ⟨hs, hs'⟩
    obtain ⟨m, hm⟩ := Option.ne_none_iff_exists'.1
      (joinLevel_ne_none_of_isAmbiguous (h.ambiguous hs'))
    rw [Cursor.kind_eq_headD] at hm
    exact absurd (hleaves.expr hs m hm) (Nat.not_lt_zero m)
  rw [Stmt.precedes, hreturn, hexpr]
  rfl

/-- What is known of a list of statements that was read between two cursors. -/
structure StmtsAccounts (c : Cursor) (ss : List Stmt) (d : Cursor) : Prop where
  normal : stmtsNormal ss = true
  spelt : Spelt [] false (stmtsWords false ss) c d
  head : ∀ s, Leaves s c.kinds → ss.head?.all s.precedes = true

theorem gets_stmtsUntil {stop : TokenKind → Bool} (hS : FaithfulStmt S) :
    ∀ n c, c.Proper → Gets (fun ss d => StmtsAccounts c ss d ∧ (d.atEnd || stop d.kind) = true)
      (stmtsUntil S stop n c)
  | 0, _, _ => .error
  | n + 1, c, hc => by
    unfold stmtsUntil
    split
    · next hstop => exact .pure ⟨⟨rfl, .refl, fun _ _ => rfl⟩, hstop⟩
    · next hstop =>
      have hend : c.kind ≠ .endOfFile := by
        intro h
        rw [Cursor.atEnd, h] at hstop
        exact hstop rfl
      refine (hS c hc).bind fun s d hs => ?_
      refine (gets_stmtsUntil hS n d (hc.of_suffix hs.spelt.suffix)).bind ?_
      rintro ss d' ⟨hss, hstop'⟩
      refine .pure ⟨⟨?_, hs.spelt.trans hss.spelt, fun s' hs' => hs.precedes hend hs'⟩, hstop'⟩
      rw [stmtsNormal, hs.normal, hss.head s hs.leaves, hss.normal]
      rfl

theorem gets_blockUntil {stop : TokenKind → Bool} (hS : FaithfulStmt S) (hc : c.Proper) :
    Gets (fun b d => b.normal = true ∧ Spelt [] false (b.words false) c d)
      (blockUntil S stop n c) := by
  unfold blockUntil
  refine (gets_stmtsUntil hS n c hc).bind fun ss d hss => ?_
  exact .pure ⟨hss.1.normal, hss.1.spelt⟩

theorem gets_block (hS : FaithfulStmt S) (hc : c.Proper) :
    Gets (fun b d => b.normal = true ∧
      Spelt [] false (b.words false ++ [.symbol .blockDot]) c d) (block S n c) := by
  unfold block
  refine (gets_blockUntil hS hc).bind ?_
  rintro ⟨ss, span⟩ d ⟨hb, hspelt⟩
  refine gets_expect.bind ?_
  rintro stop d' ⟨hdot, rfl⟩
  exact .pure ⟨hb, hspelt.trans (.token hdot rfl)⟩

/-! ## Functions and classes -/

theorem gets_params (hc : c.Proper) :
    Gets (fun params d => params.all Ident.normal = true ∧
      Spelt [] false (namesWords params) c d) (itemsBefore ident .colon n c) := by
  have hitem : ∀ c : Cursor, c.Proper → Gets (fun id d => id.normal = true ∧
      Spelt [] (expectsKey []) id.words c d) (ident c) := by
    intro c hc
    refine gets_ident.mono ?_
    rintro id d ⟨hid, rfl⟩
    exact ⟨hc.isName hid, .ident hid⟩
  refine (gets_itemsBefore hc hitem).mono ?_
  rintro params d ⟨hparams, hspelt⟩
  rw [namesWords_eq]
  exact ⟨List.all_eq_true.2 hparams, hspelt⟩

theorem gets_functionDecl (hS : FaithfulStmt S) (hc : c.Proper) :
    Gets (fun decl d => decl.normal = true ∧ Spelt [] false (decl.words false) c d)
      (functionDecl S n c) := by
  rw [functionDecl_eq]
  refine gets_expect.bind ?_
  rintro start d ⟨hfun, rfl⟩
  refine gets_ident.bind ?_
  rintro name d ⟨hname, rfl⟩
  refine (gets_params hc.advance.advance).bind ?_
  rintro params d ⟨hparams, hspelt⟩
  have hd := hc.advance.advance.of_suffix hspelt.suffix
  refine gets_expect.bind ?_
  rintro _ d' ⟨hcolon, rfl⟩
  refine (gets_block hS hd.advance).bind ?_
  rintro body d' ⟨hbody, hspelt'⟩
  refine .pure ⟨?_, ?_⟩
  · rw [FunctionDecl.normal, Ident.normal, hc.advance.isName hname, hparams, hbody]
    rfl
  · rw [FunctionDecl.words_eq]
    exact (Spelt.token hfun rfl).cons ((Spelt.ident hname).cons
      (hspelt.trans ((Spelt.token hcolon rfl).cons hspelt')))

theorem gets_methods (hS : FaithfulStmt S) : ∀ n c, c.Proper →
    Gets (fun ms d => methodsNormal ms = true ∧ Spelt [] false (methodsWords false ms) c d)
      (methods S n c)
  | 0, _, _ => .error
  | n + 1, c, hc => by
    unfold methods
    split
    · exact .pure ⟨rfl, .refl⟩
    · split
      · refine (gets_functionDecl hS hc).bind ?_
        rintro m d ⟨hm, hspelt⟩
        refine (gets_methods hS n d (hc.of_suffix hspelt.suffix)).bind ?_
        rintro ms d' ⟨hms, hspelt'⟩
        refine .pure ⟨?_, hspelt.trans hspelt'⟩
        rw [methodsNormal, hm, hms]
        rfl
      · exact .error

/-! ## The constructs -/

/-- What stands behind a statement that is closed by a dot is of no account. -/
theorem leaves_of_closed {ks : List TokenKind} (h : s.endsInExpr = false)
    (h' : s.isBareReturn = false) : Leaves s ks :=
  ⟨fun hs => absurd (hs.symm.trans h) (by decide), fun hs => absurd (hs.symm.trans h') (by decide)⟩

theorem gets_classDecl (hS : FaithfulStmt S) (hc : c.Proper) :
    Gets (fun s d => StmtAccounts c s d) (classDecl S n c) := by
  unfold classDecl
  refine gets_expect.bind ?_
  rintro start d ⟨hclass, rfl⟩
  refine gets_ident.bind ?_
  rintro name d ⟨hname, rfl⟩
  refine gets_expect.bind ?_
  rintro _ d ⟨hcolon, rfl⟩
  refine (gets_methods hS n _ hc.advance.advance.advance).bind ?_
  rintro ms d ⟨hms, hspelt⟩
  refine gets_expect.bind ?_
  rintro stop d' ⟨hdot, rfl⟩
  refine .pure ⟨?_, ?_, leaves_of_closed rfl rfl, fun h => absurd h Bool.false_ne_true⟩
  · rw [Stmt.normal, Ident.normal, hc.advance.isName hname, hms]
    rfl
  · rw [Stmt.words_classDecl]
    exact (Spelt.token hclass rfl).cons ((Spelt.ident hname).cons ((Spelt.token hcolon rfl).cons
      (hspelt.trans (.token hdot rfl))))

theorem gets_elseArm (hS : FaithfulStmt S) (hc : c.Proper) :
    Gets (fun b d => (∀ b' ∈ b, b'.normal = true) ∧ Spelt [] false (elseWords false b) c d)
      (elseArm S n c) := by
  unfold elseArm
  split
  · next helse =>
    refine gets_expect.bind ?_
    rintro _ d ⟨hcolon, rfl⟩
    refine (gets_blockUntil hS hc.advance.advance).bind ?_
    rintro b d ⟨hb, hspelt⟩
    refine .pure ⟨fun b' hb' => Option.some.inj hb' ▸ hb, ?_⟩
    exact (Spelt.token (beq_iff_eq.1 helse) rfl).cons ((Spelt.token hcolon rfl).cons hspelt)
  · exact .pure ⟨fun _ h => absurd h (Option.not_mem_none _), .refl⟩

theorem gets_ifStmt (hE : Faithful 0 E) (hS : FaithfulStmt S) (hc : c.Proper) :
    Gets (fun s d => StmtAccounts c s d) (ifStmt E S n c) := by
  rw [ifStmt_eq]
  refine gets_expect.bind ?_
  rintro start d ⟨hif, rfl⟩
  refine (hE c.advance hc.advance).bind ?_
  rintro cond d ⟨hcond, -⟩
  have hd := hc.advance.of_suffix hcond.suffix
  refine gets_expect.bind ?_
  rintro _ d' ⟨hcolon, rfl⟩
  refine (gets_blockUntil hS hd.advance).bind ?_
  rintro thenBlock d₁ ⟨hthen, hspelt₁⟩
  have hd₁ := hd.advance.of_suffix hspelt₁.suffix
  refine (gets_elseArm hS hd₁).bind ?_
  rintro elseBlock d₂ ⟨helse, hspelt₂⟩
  refine gets_expect.bind ?_
  rintro stop d' ⟨hdot, rfl⟩
  refine .pure ⟨?_, ?_, leaves_of_closed rfl rfl, fun h => absurd h Bool.false_ne_true⟩
  · cases elseBlock with
    | none =>
      rw [Stmt.normal, hcond.normal, hthen]
      rfl
    | some b =>
      rw [Stmt.normal, hcond.normal, hthen, helse b rfl]
      rfl
  · rw [Stmt.words_ifElse]
    exact (Spelt.token hif rfl).cons ((hcond.spelt []).trans ((Spelt.token hcolon rfl).cons
      (hspelt₁.trans (hspelt₂.trans (.token hdot rfl)))))

theorem gets_whileStmt (hE : Faithful 0 E) (hS : FaithfulStmt S) (hc : c.Proper) :
    Gets (fun s d => StmtAccounts c s d) (whileStmt E S n c) := by
  unfold whileStmt
  refine gets_expect.bind ?_
  rintro start d ⟨hwhile, rfl⟩
  refine (hE c.advance hc.advance).bind ?_
  rintro cond d ⟨hcond, -⟩
  have hd := hc.advance.of_suffix hcond.suffix
  refine gets_expect.bind ?_
  rintro _ d' ⟨hcolon, rfl⟩
  refine (gets_block hS hd.advance).bind ?_
  rintro body d₁ ⟨hbody, hspelt⟩
  refine .pure ⟨?_, ?_, leaves_of_closed rfl rfl, fun h => absurd h Bool.false_ne_true⟩
  · rw [Stmt.normal, hcond.normal, hbody]
    rfl
  · rw [Stmt.words_whileLoop]
    exact (Spelt.token hwhile rfl).cons
      ((hcond.spelt []).trans ((Spelt.token hcolon rfl).cons hspelt))

theorem gets_tryStmt (hS : FaithfulStmt S) (hc : c.Proper) :
    Gets (fun s d => StmtAccounts c s d) (tryStmt S n c) := by
  unfold tryStmt
  refine gets_expect.bind ?_
  rintro start d ⟨htry, rfl⟩
  refine gets_expect.bind ?_
  rintro _ d ⟨hcolon, rfl⟩
  refine (gets_blockUntil hS hc.advance.advance).bind ?_
  rintro body d ⟨hbody, hspelt⟩
  have hd := hc.advance.advance.of_suffix hspelt.suffix
  refine gets_expect.bind ?_
  rintro _ d' ⟨hcatch, rfl⟩
  refine gets_ident.bind ?_
  rintro errorVar d' ⟨hvar, rfl⟩
  refine gets_expect.bind ?_
  rintro _ d' ⟨hcolon', rfl⟩
  refine (gets_block hS hd.advance.advance.advance).bind ?_
  rintro handler d' ⟨hhandler, hspelt'⟩
  refine .pure ⟨?_, ?_, leaves_of_closed rfl rfl, fun h => absurd h Bool.false_ne_true⟩
  · rw [Stmt.normal, hbody, Ident.normal, hd.advance.isName hvar, hhandler]
    rfl
  · rw [Stmt.words_tryCatch]
    exact (Spelt.token htry rfl).cons ((Spelt.token hcolon rfl).cons (hspelt.trans
      ((Spelt.token hcatch rfl).cons ((Spelt.ident hvar).cons
        ((Spelt.token hcolon' rfl).cons hspelt')))))

/-- A statement that is a reserved word and an expression. -/
theorem gets_introduced {k : Keyword} {make : Expr → Span → Stmt} (hE : Faithful 0 E)
    (hc : c.Proper) (hnormal : ∀ e span, e.normal = true → (make e span).normal = true)
    (hwords : ∀ e span, (make e span).words false = .keyword k :: e.words false)
    (hreturn : ∀ e span, (make e span).isBareReturn = false)
    (hbegin : ∀ e span, (make e span).beginsAmbiguously = false) :
    Gets (fun s d => StmtAccounts c s d) (introduced E k make c) := by
  unfold introduced
  refine gets_expect.bind ?_
  rintro start d ⟨hk, rfl⟩
  refine (hE c.advance hc.advance).bind ?_
  rintro e d ⟨he, hends⟩
  refine .pure ⟨hnormal e _ he.normal, ?_, ⟨fun _ => hends, fun h => ?_⟩, fun h => ?_⟩
  · rw [hwords]
    exact (Spelt.token hk rfl).cons (he.spelt [])
  · exact absurd (h.symm.trans (hreturn e _)) (by decide)
  · exact absurd (h.symm.trans (hbegin e _)) (by decide)

theorem gets_returnStmt (hE : Faithful 0 E) (hc : c.Proper) :
    Gets (fun s d => StmtAccounts c s d) (returnStmt E c) := by
  unfold returnStmt
  refine gets_expect.bind ?_
  rintro start d ⟨hreturn, rfl⟩
  simp only
  split
  · next hend =>
    refine .pure ⟨rfl, .token hreturn rfl, ⟨fun h => absurd h Bool.false_ne_true, fun _ => ?_⟩,
      fun h => absurd h Bool.false_ne_true⟩
    rw [← Cursor.kind_eq_headD]
    exact hend
  · refine (hE c.advance hc.advance).bind ?_
    rintro e d ⟨he, hends⟩
    exact .pure ⟨he.normal, (Spelt.token hreturn rfl).cons (he.spelt []),
      ⟨fun _ => hends, fun h => absurd h Bool.false_ne_true⟩, fun h => absurd h Bool.false_ne_true⟩

theorem normal_expr {e : Expr} (h : e.normal = true) : (Stmt.expr e).normal = true := by
  cases e with
  | spawn call span => exact absurd h Bool.false_ne_true
  | _ => exact h

theorem stmtAccounts_expr {e : Expr} (h : Accounts 0 c e d) (hends : Ends 0 d.kinds) :
    StmtAccounts c (.expr e) d := by
  refine ⟨normal_expr h.normal, h.spelt [],
    ⟨fun _ => hends, fun h => absurd h Bool.false_ne_true⟩, fun hambiguous => ?_⟩
  by_cases hparen : c.kind = .symbol .lParen
  · rw [hparen]
    rfl
  · rw [Stmt.beginsAmbiguously, (h.head hparen).2] at hambiguous
    exact hambiguous

theorem faithful_stmt : ∀ fuel, FaithfulStmt (stmt fuel)
  | 0 => fun _ _ => .error
  | fuel + 1 => by
    intro c hc
    have hS := faithful_stmt fuel
    have hE := faithful_expr fuel
    unfold stmt
    split
    · exact gets_classDecl hS hc
    · refine (gets_functionDecl hS hc).bind ?_
      rintro decl d ⟨hdecl, hspelt⟩
      exact .pure ⟨hdecl, hspelt, leaves_of_closed rfl rfl, fun h => absurd h Bool.false_ne_true⟩
    · exact gets_introduced hE hc (fun _ _ h => h) (fun _ _ => rfl) (fun _ _ => rfl) fun _ _ => rfl
    · exact gets_ifStmt hE hS hc
    · exact gets_whileStmt hE hS hc
    · exact gets_returnStmt hE hc
    · exact gets_introduced hE hc (fun _ _ h => h) (fun _ _ => rfl) (fun _ _ => rfl) fun _ _ => rfl
    · exact gets_tryStmt hS hc
    · exact gets_introduced hE hc (fun _ _ h => h) (fun _ _ => rfl) (fun _ _ => rfl) fun _ _ => rfl
    · exact .error
    · exact .error
    · refine (faithful_expr (fuel + 1) c hc).bind ?_
      rintro e d ⟨he, hends⟩
      exact .pure (stmtAccounts_expr he hends)

end

end Parser

/-! ## Programs -/

theorem proper_ofTokens (text : String) : (Cursor.ofTokens (tokens text)).Proper := by
  obtain ⟨ts, eof, htokens, hoccurs, -⟩ := exists_tokensFrom 0 text.toList
  rw [show tokens text = _ from htokens, ofTokens_append]
  exact hoccurs

theorem Cursor.kinds_of_atEnd {c : Cursor} (hc : c.Proper) (h : c.atEnd = true) : c.kinds = [] := by
  unfold kinds
  cases hrest : c.rest with
  | nil => rfl
  | cons t ts =>
    have hkind : c.kind = t.kind := by
      unfold kind current
      rw [hrest]
    have ht := (hc t (hrest ▸ List.mem_cons_self)).ne_endOfFile
    exact absurd (hkind ▸ beq_iff_eq.1 h) ht

/-- A program that was read is normal, and its tokens are those of the text, up to parentheses. -/
theorem normal_and_plain_of_parse {text : String} {p : Program} (h : parse text = .ok p) :
    p.normal = true ∧ plain ((tokens text).map Token.kind) = p.words false ++ [.endOfFile] := by
  let c := Cursor.ofTokens (tokens text)
  have hproper : c.Proper := proper_ofTokens text
  have hgets : Parser.Gets
      (fun ss d => Parser.StmtsAccounts c ss d ∧ (d.atEnd || false) = true)
      (Parser.stmtsUntil (Parser.stmt (c.rest.length + 2)) (fun _ => false) (c.rest.length + 2) c) :=
    Parser.gets_stmtsUntil (Parser.faithful_stmt _) _ c hproper
  have hparse : (Parser.program (c.rest.length + 2) c >>= fun q => pure q.1) = .ok p := h
  rw [Parser.program] at hparse
  cases hstmts : Parser.stmtsUntil (Parser.stmt (c.rest.length + 2)) (fun _ => false)
      (c.rest.length + 2) c with
  | error e =>
    rw [hstmts] at hparse
    cases hparse
  | ok r =>
    obtain ⟨ss, d⟩ := r
    rw [hstmts] at hparse
    obtain rfl : ⟨ss, c.span.cover d.span⟩ = p := Except.ok.inj hparse
    obtain ⟨hss, hend⟩ := hgets ss d hstmts
    rw [Bool.or_false] at hend
    refine ⟨hss.normal, ?_⟩
    have hplain : plain c.kinds = stmtsWords false ss ++ plain d.kinds := hss.spelt.plain
    rw [Cursor.kinds_of_atEnd (hproper.of_suffix hss.spelt.suffix) hend] at hplain
    rw [map_kind_tokens, plain_endOfFile, hplain]
    exact congrArg (· ++ [TokenKind.endOfFile]) (List.append_nil _)

/-- Writing and reading are inverse to each other. A normal program is read from its text, up to
spans; and a program that was read is normal, and its text has the tokens of the text it was read
from, up to parentheses and to bare keys of maps, which stand for strings. -/
theorem rendered_inverse_parse :
    (∀ p : Program, p.normal = true → ∃ q, parse p.rendered = .ok q ∧ q.erased = p.erased) ∧
    ∀ (text : String) (p : Program), parse text = .ok p → p.normal = true ∧
      plain ((tokens text).map Token.kind) = plain ((tokens p.rendered).map Token.kind) := by
  refine ⟨fun p hp => exists_parse_rendered hp, fun text p hparse => ?_⟩
  obtain ⟨hnormal, hplain⟩ := normal_and_plain_of_parse hparse
  obtain ⟨q, hq, hsame⟩ := exists_parse_rendered hnormal
  refine ⟨hnormal, ?_⟩
  rw [hplain, (normal_and_plain_of_parse hq).2, ← q.words_erased, hsame, p.words_erased]

/-- A sum as the first factor needs its parentheses; a value in parentheses and a bare key do not
come back as they were. -/
theorem rendered_inverse_parse_product :
    (∃ q, parse (Program.rendered ⟨[.expr (.binary .mul
          (.binary .add (.var ⟨"a", default⟩) (.var ⟨"b", default⟩) default)
          (.var ⟨"c", default⟩) default)], default⟩) = .ok q ∧
        q.erased = ⟨[.expr (.binary .mul
          (.binary .add (.var ⟨"a", default⟩) (.var ⟨"b", default⟩) default)
          (.var ⟨"c", default⟩) default)], default⟩) ∧
      ∃ p, parse "m = \x7bk: (c)\x7d" = .ok p ∧ p.normal = true ∧
        plain ((tokens "m = \x7bk: (c)\x7d").map Token.kind) =
          plain ((tokens p.rendered).map Token.kind) := by
  refine ⟨rendered_inverse_parse.1 _ (by decide +kernel), ?_⟩
  have hparse : (parse "m = \x7bk: (c)\x7d").toOption.isSome = true := by decide +kernel
  cases h : parse "m = \x7bk: (c)\x7d" with
  | error e =>
    rw [h] at hparse
    cases hparse
  | ok p => exact ⟨p, rfl, rendered_inverse_parse.2 _ p h⟩

end DotScript.Syntax
