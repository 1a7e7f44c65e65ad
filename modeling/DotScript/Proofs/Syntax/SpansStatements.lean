import DotScript.Proofs.Syntax.Spans

/-!
# Spans of statements and programs

Statements are read as rows of sound nodes, too. A block without statements has the span of the token
behind it, which every construct reads as its own: `lays_blockUntil`. So the spans of a program that
was read are nested as its nodes are, `spans_of_parse`.
-/

namespace DotScript.Syntax

open DotScript.Text

namespace Parser

variable {text : String} {c d : Cursor}

section
variable {S : Parser Stmt} {E : Parser Expr} {fuel n : Nat} {lo hi : Nat}

/-- The nodes of what a parser of statements reads. -/
def stmtNodes (s : Stmt) : List Node := [.stmt s]

/-! ## Blocks -/

theorem lays_stmtsUntil {stop : TokenKind → Bool} (hS : ReadsRow text stmtNodes S) : ∀ n,
    ReadsRow text (fun ss => ss.map .stmt) (stmtsUntil S stop n)
  | 0 => fun _ _ => .error rfl
  | n + 1 => by
    intro c hc
    unfold stmtsUntil
    split
    · exact .pure hc (.nil (Nat.le_refl _))
    · refine (hS c hc).bind fun s d hd hs => ?_
      refine (lays_stmtsUntil hS n d hd).bind fun ss d' hd' hss => ?_
      exact .pure hd' (hs.append hss (Nat.le_refl _))

/-- What is known of a block that was read up to a stop, which may lend it its span. -/
structure BlockRow (text : String) (c : Cursor) (b : Block) (d : Cursor) : Prop where
  le : c.here ≤ d.here
  start : b.span.start = c.span.start
  row : Row text c.here [.block b] d.past

theorem lays_blockUntil {stop : TokenKind → Bool} (hS : ReadsRow text stmtNodes S)
    (hc : c.Laid text) :
    Lays text (fun b d => BlockRow text c b d) c (blockUntil S stop n c) := by
  unfold blockUntil
  refine ((lays_stmtsUntil hS n c hc).past_le hc).bind ?_
  rintro ss d hd ⟨hpast, hss⟩
  refine .pure hd ?_
  rcases List.eq_nil_or_concat ss with rfl | ⟨ss, last, rfl⟩
  · refine ⟨hss.le, rfl, ?_⟩
    have hblock : Row text c.here [.block ⟨[], c.span⟩] c.past :=
      row_token _ hc rfl rfl fun _ => Node.noConfusion
    exact hblock.mono (Nat.le_refl _) hpast
  · simp only [List.concat_eq_append, List.getLast?_concat] at hss ⊢
    rw [List.map_append] at hss
    have hlast := (hss.bounds (.stmt last) (List.mem_append_right _ (List.mem_singleton_self _)))
    have hplaced := (hss.sound (.stmt last)
      (List.mem_append_right _ (List.mem_singleton_self _)) _ (.self _)).placed
    have hchildren : Row text c.span.start.toNat (Node.children (.block ⟨ss ++ [last],
        c.span.cover last.span⟩)) (max c.span.stop.toNat last.span.stop.toNat) := by
      rw [Node.children, List.map_append]
      exact hss.upto_last.mono (Nat.le_refl _) (Nat.le_max_right ..)
    obtain ⟨hrow, hstart⟩ := Row.covered (.block ⟨ss ++ [last], c.span.cover last.span⟩) rfl
      (fun _ => Node.noConfusion) hchildren hc.placed_span hplaced hlast.1
    refine ⟨hss.le, hstart, hrow.mono (Nat.le_refl _) (Nat.max_le.mpr ⟨hpast, ?_⟩)⟩
    exact hlast.2.trans hd.here_le

/-- The dot that closes a block belongs to it. -/
theorem row_closed {b : Block} (hd : d.Laid text) (h : BlockRow text c b d) :
    Row text c.here [.block { b with span := b.span.cover d.span }] d.past := by
  have hmax : max b.span.stop.toNat d.span.stop.toNat = d.past := Nat.max_eq_right h.row.le_hi
  have hstart : b.span.start.toNat = c.here := congrArg _ h.start
  have hchildren : Row text b.span.start.toNat (Node.children (.block b))
      (max b.span.stop.toNat d.span.stop.toNat) :=
    h.row.of_sound.mono (Nat.le_refl _) (Nat.le_max_left ..)
  have hrow := (Row.covered (.block { b with span := b.span.cover d.span }) rfl
    (fun _ => Node.noConfusion) hchildren h.row.placed hd.placed_span (hstart ▸ h.le)).1
  rwa [hmax, hstart] at hrow

theorem lays_block (hS : ReadsRow text stmtNodes S) :
    ReadsRow text (fun b => [.block b]) (block S n) := by
  intro c hc
  unfold block
  refine (lays_blockUntil hS hc).bind fun b d hd hb => ?_
  refine (lays_expect hd).bind ?_
  rintro _ d' hd' ⟨rfl, rfl⟩
  exact .pure hd' ((row_closed hd hb).mono (Nat.le_refl _) hd.past_le)

/-! ## Functions and classes -/

theorem lays_name : ReadsRow text (fun id => [.ident id]) ident := by
  intro c hc
  refine ⟨(lays_ident hc).gets.mono ?_, (lays_ident hc).fails⟩
  rintro id d ⟨hd, hid, rfl⟩
  exact ⟨hd, hid.mono (Nat.le_refl _) hc.past_le⟩

theorem lays_functionDecl (hS : ReadsRow text stmtNodes S) :
    ReadsRow text (fun f => [.decl f]) (functionDecl S n) := by
  intro c hc
  rw [functionDecl_eq]
  refine (lays_expect hc).bind ?_
  rintro start c₁ hc₁ ⟨rfl, rfl⟩
  refine (lays_name _ hc₁).bind fun name c₂ hc₂ hname => ?_
  refine (lays_itemsBefore lays_name _ hc₂).bind fun params c₃ hc₃ hparams => ?_
  refine (lays_expect hc₃).bind ?_
  rintro _ c₄ hc₄ ⟨-, rfl⟩
  refine (lays_block hS _ hc₄).bind fun body d hd hbody => ?_
  refine .pure hd ?_
  simp only [← List.map_eq_flatMap] at hparams
  have hchildren : Row text c.advance.here
      (.ident name :: (params.map .ident ++ [.block body])) body.span.stop.toNat :=
    hname.append (hparams.append (hbody.narrow.mono hbody.lo_le (Nat.le_refl _)) hc₃.le_advance)
      (Nat.le_refl _)
  have hlo : c.advance.here ≤ body.span.start.toNat :=
    hname.le.trans (hparams.le.trans (hc₃.le_advance.trans hbody.lo_le))
  have hdecl := row_headed (.decl ⟨name, params, body, c.span.cover body.span⟩) hc rfl
    (fun _ => Node.noConfusion) hbody.placed hchildren hlo
  exact hdecl.mono (Nat.le_refl _) hbody.le_hi

theorem lays_methods (hS : ReadsRow text stmtNodes S) : ∀ n,
    ReadsRow text (fun ms => ms.map .decl) (methods S n)
  | 0 => fun _ _ => .error rfl
  | n + 1 => by
    intro c hc
    unfold methods
    split
    · exact .pure hc (.nil (Nat.le_refl _))
    · split
      · refine (lays_functionDecl hS c hc).bind fun m d hd hm => ?_
        refine (lays_methods hS n d hd).bind fun ms d' hd' hms => ?_
        exact .pure hd' (hm.append hms (Nat.le_refl _))
      · exact .error rfl

theorem lays_classDecl (hS : ReadsRow text stmtNodes S) :
    ReadsRow text stmtNodes (classDecl S n) := by
  intro c hc
  unfold classDecl
  refine (lays_expect hc).bind ?_
  rintro start c₁ hc₁ ⟨rfl, rfl⟩
  refine (lays_name _ hc₁).bind fun name c₂ hc₂ hname => ?_
  refine (lays_expect hc₂).bind ?_
  rintro _ c₃ hc₃ ⟨-, rfl⟩
  refine (lays_methods hS n _ hc₃).bind fun ms d hd hms => ?_
  refine (lays_expect hd).bind ?_
  rintro stop d' hd' ⟨rfl, rfl⟩
  have hclass := row_enclosed (.stmt (.classDecl name ms (c.span.cover d.span))) hc rfl
    (fun _ => Node.noConfusion) hd.placed_span (hname.append hms hc₂.le_advance)
  exact .pure hd' (hclass.mono (Nat.le_refl _) hd.past_le)

/-! ## The constructs -/

theorem lays_elseArm (hS : ReadsRow text stmtNodes S) (hc : c.Laid text) :
    Lays text (fun b d => c.here ≤ d.here ∧ Row text c.past (b.toList.map .block) d.past) c
      (elseArm S n c) := by
  unfold elseArm
  split
  · refine .advance ((lays_expect hc.advance).bind ?_)
    rintro _ c₁ hc₁ ⟨-, rfl⟩
    refine (lays_blockUntil hS hc₁).bind fun b d hd hb => ?_
    have hbehind : c.past ≤ c.advance.advance.here := hc.past_le.trans hc.advance.le_advance
    exact .pure hd ⟨hc.here_le.trans (hbehind.trans hb.le), hb.row.mono hbehind (Nat.le_refl _)⟩
  · exact .pure hc ⟨Nat.le_refl _, .nil (Nat.le_refl _)⟩

theorem lays_ifStmt (hE : ReadsRow text exprNodes E) (hS : ReadsRow text stmtNodes S) :
    ReadsRow text stmtNodes (ifStmt E S n) := by
  intro c hc
  rw [ifStmt_eq]
  refine (lays_expect hc).bind ?_
  rintro start c₁ hc₁ ⟨rfl, rfl⟩
  refine (hE _ hc₁).bind fun cond c₂ hc₂ hcond => ?_
  refine (lays_expect hc₂).bind ?_
  rintro _ c₃ hc₃ ⟨-, rfl⟩
  refine (lays_blockUntil hS hc₃).bind fun thenBlock c₄ hc₄ hthen => ?_
  refine (lays_elseArm hS hc₄).bind ?_
  rintro elseBlock d hd ⟨hle, helse⟩
  refine (lays_expect hd).bind ?_
  rintro stop d' hd' ⟨rfl, rfl⟩
  have hlo : c.advance.here ≤ d.here :=
    hcond.le.trans (hc₂.le_advance.trans (hthen.le.trans hle))
  have hif := row_headed (.stmt (.ifElse cond thenBlock elseBlock (c.span.cover d.span))) hc rfl
    (fun _ => Node.noConfusion) hd.placed_span
    (hcond.append (hthen.row.append helse (Nat.le_refl _)) hc₂.le_advance) hlo
  exact .pure hd' (hif.mono (Nat.le_refl _) hd.past_le)

theorem lays_whileStmt (hE : ReadsRow text exprNodes E) (hS : ReadsRow text stmtNodes S) :
    ReadsRow text stmtNodes (whileStmt E S n) := by
  intro c hc
  unfold whileStmt
  refine (lays_expect hc).bind ?_
  rintro start c₁ hc₁ ⟨rfl, rfl⟩
  refine (hE _ hc₁).bind fun cond c₂ hc₂ hcond => ?_
  refine (lays_expect hc₂).bind ?_
  rintro _ c₃ hc₃ ⟨-, rfl⟩
  refine (lays_block hS _ hc₃).bind fun body d hd hbody => ?_
  have hbehind : c₂.here ≤ body.span.start.toNat := hc₂.le_advance.trans hbody.lo_le
  have hwhile := row_headed (.stmt (.whileLoop cond body (c.span.cover body.span))) hc rfl
    (fun _ => Node.noConfusion) hbody.placed (hcond.append hbody.narrow hbehind)
    (hcond.le.trans hbehind)
  exact .pure hd (hwhile.mono (Nat.le_refl _) hbody.le_hi)

theorem lays_tryStmt (hS : ReadsRow text stmtNodes S) :
    ReadsRow text stmtNodes (tryStmt S n) := by
  intro c hc
  unfold tryStmt
  refine (lays_expect hc).bind ?_
  rintro start c₁ hc₁ ⟨rfl, rfl⟩
  refine (lays_expect hc₁).bind ?_
  rintro _ c₂ hc₂ ⟨-, rfl⟩
  refine (lays_blockUntil hS hc₂).bind fun body c₃ hc₃ hbody => ?_
  refine (lays_expect hc₃).bind ?_
  rintro _ c₄ hc₄ ⟨-, rfl⟩
  refine (lays_name _ hc₄).bind fun errorVar c₅ hc₅ hvar => ?_
  refine (lays_expect hc₅).bind ?_
  rintro _ c₆ hc₆ ⟨-, rfl⟩
  refine (lays_block hS _ hc₆).bind fun handler d hd hhandler => ?_
  have hbehind : c₅.here ≤ handler.span.start.toNat := hc₅.le_advance.trans hhandler.lo_le
  have hchildren : Row text c.advance.here [.block body, .ident errorVar, .block handler]
      handler.span.stop.toNat :=
    (hbody.row.append (hvar.append hhandler.narrow hbehind) hc₃.past_le).mono hc₁.le_advance
      (Nat.le_refl _)
  have hlo : c.advance.here ≤ handler.span.start.toNat :=
    hc₁.le_advance.trans (hbody.le.trans (hc₃.le_advance.trans (hvar.le.trans hbehind)))
  have htry := row_headed (.stmt (.tryCatch body errorVar handler (c.span.cover handler.span))) hc
    rfl (fun _ => Node.noConfusion) hhandler.placed hchildren hlo
  exact .pure hd (htry.mono (Nat.le_refl _) hhandler.le_hi)

/-- A statement that is an expression has its span. -/
theorem row_exprStmt {e : Expr} (h : Row text lo [.expr e] hi) :
    Row text lo [.stmt (.expr e)] hi := by
  have hstmt : Row text e.span.start.toNat [.stmt (.expr e)] e.span.stop.toNat :=
    .node (.stmt (.expr e)) h.narrow h.placed fun _ hid => Node.noConfusion hid
  exact hstmt.mono h.lo_le h.le_hi

theorem lays_introduced {k : Keyword} {make : Expr → Span → Stmt} (hE : ReadsRow text exprNodes E)
    (hmake : ∀ {c : Cursor} {e : Expr} {hi}, c.Laid text → Row text c.advance.here [.expr e] hi →
      Row text c.here [.stmt (make e (c.span.cover e.span))] hi) :
    ReadsRow text stmtNodes (introduced E k make) := by
  intro c hc
  unfold introduced
  refine (lays_expect hc).bind ?_
  rintro start c₁ hc₁ ⟨rfl, rfl⟩
  refine (hE _ hc₁).bind fun e d hd he => ?_
  exact .pure hd (hmake hc he)

theorem lays_returnStmt (hE : ReadsRow text exprNodes E) :
    ReadsRow text stmtNodes (returnStmt E) := by
  intro c hc
  unfold returnStmt
  refine (lays_expect hc).bind ?_
  rintro start c₁ hc₁ ⟨rfl, rfl⟩
  simp only
  split
  · refine .pure hc₁ ?_
    have hreturn : Row text c.here [.stmt (.ret none c.span)] c.past :=
      row_token _ hc rfl rfl fun _ => Node.noConfusion
    exact hreturn.mono (Nat.le_refl _) hc.past_le
  · refine (hE _ hc₁).bind fun e d hd he => ?_
    exact .pure hd (row_introduced (.stmt (.ret (some e) _)) hc rfl (fun _ => Node.noConfusion) rfl he)

theorem lays_stmt : ∀ fuel, ReadsRow text stmtNodes (stmt fuel)
  | 0 => fun _ _ => .error rfl
  | fuel + 1 => by
    intro c hc
    have hS := lays_stmt fuel
    have hE : ReadsRow text exprNodes (expr fuel) := lays_expr fuel
    unfold stmt
    split
    · exact lays_classDecl hS c hc
    · refine (lays_functionDecl hS c hc).bind fun f d hd hf => ?_
      have hfunction : Row text f.span.start.toNat [.stmt (.function f)] f.span.stop.toNat :=
        .node (.stmt (.function f)) hf.narrow hf.placed fun _ hid => Node.noConfusion hid
      exact .pure hd (hfunction.mono hf.lo_le hf.le_hi)
    · refine lays_introduced hE (fun hc he => ?_) c hc
      exact row_introduced (.stmt (.print _ _)) hc rfl (fun _ => Node.noConfusion) rfl he
    · exact lays_ifStmt hE hS c hc
    · exact lays_whileStmt hE hS c hc
    · exact lays_returnStmt hE c hc
    · refine lays_introduced hE (fun hc he => ?_) c hc
      exact row_introduced (.stmt (.importUnit _ _)) hc rfl (fun _ => Node.noConfusion) rfl he
    · exact lays_tryStmt hS c hc
    · refine lays_introduced hE (fun hc he => ?_) c hc
      exact row_exprStmt
        (row_introduced (.expr (.spawn _ _)) hc rfl (fun _ => Node.noConfusion) rfl he)
    · exact .error rfl
    · exact .error rfl
    · refine (lays_expr (fuel + 1) c hc).bind fun e d hd he => ?_
      exact .pure hd (row_exprStmt he)

theorem lays_program (hc : c.Laid text) :
    Lays text (fun p d => Row text c.here [.program p] d.past) c (program n c) := by
  unfold program
  refine ((lays_stmtsUntil (lays_stmt n) n c hc).past_le hc).bind ?_
  rintro ss d hd ⟨hpast, hss⟩
  have hmax : max c.span.stop.toNat d.span.stop.toNat = d.past := Nat.max_eq_right hpast
  have hchildren : Row text c.span.start.toNat (ss.map .stmt)
      (max c.span.stop.toNat d.span.stop.toNat) :=
    hss.mono (Nat.le_refl _) (hd.here_le.trans (Nat.le_max_right ..))
  have hrow := (Row.covered (.program ⟨ss, c.span.cover d.span⟩) rfl (fun _ => Node.noConfusion)
    hchildren hc.placed_span hd.placed_span hss.le).1
  rw [hmax] at hrow
  exact .pure hd hrow

end

end Parser

/-- The spans of a text shorter than 2 ^ 32 bytes. If the text is a program, the span of each node is
a part of the text that lies in the span of its parent and behind those of the nodes before it, and
names stand where their spans say; if not, the error stands at a token or at the end of file. -/
theorem spans_of_parse (text : String) (h : text.utf8ByteSize < 2 ^ 32) :
    (∀ p, parse text = .ok p → ∀ n, (Node.program p).Holds n → n.Sound text) ∧
      ∀ e, parse text = .error e → ∃ t ∈ tokens text, e.span = t.span := by
  obtain ⟨hlaid, htokens⟩ := laid_ofTokens h
  have hprogram := Parser.lays_program (n := (Cursor.ofTokens (tokens text)).rest.length + 2) hlaid
  unfold parse
  simp only
  cases hread : Parser.program ((Cursor.ofTokens (tokens text)).rest.length + 2)
      (Cursor.ofTokens (tokens text)) with
  | error e =>
    refine ⟨fun p hp => (nomatch hp), fun e' he => ?_⟩
    obtain rfl := Except.error.inj he
    rw [← htokens]
    exact hprogram.fails e hread
  | ok r =>
    obtain ⟨p, d⟩ := r
    refine ⟨fun p' hp => ?_, fun e he => nomatch he⟩
    obtain rfl := Except.ok.inj hp
    exact (hprogram.gets p d hread).2.allSound

/-- An arm without statements has the span of the word behind it, and parentheses belong to no node. -/
theorem spans_of_parse_emptyArm :
    ("if (é): else: x.y = f(1) .".utf8ByteSize < 2 ^ 32 ∧
      (parse "if (é): else: x.y = f(1) .").toOption.isSome = true ∧
      ∀ p, parse "if (é): else: x.y = f(1) ." = .ok p →
        ∀ n, (Node.program p).Holds n → n.Sound "if (é): else: x.y = f(1) .") ∧
      "print (".utf8ByteSize < 2 ^ 32 ∧ (parse "print (").toOption.isNone = true ∧
        ∀ e, parse "print (" = .error e → ∃ t ∈ tokens "print (", e.span = t.span :=
  ⟨⟨by decide, by decide +kernel, (spans_of_parse _ (by decide)).1⟩,
    ⟨by decide, by decide +kernel, (spans_of_parse _ (by decide)).2⟩⟩

end DotScript.Syntax
