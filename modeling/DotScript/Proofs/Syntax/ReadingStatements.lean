import DotScript.Proofs.Syntax.Reading

/-!
# Reading rendered programs

The parser reads the tokens of a normal statement as that statement, as long as what follows does
not go on with its last expression: `reads_stmt`, `Leaves`. In a normal list of statements that
holds of every statement, so that the text of a normal program is read as the program:
`exists_parse_rendered`.
-/

namespace DotScript.Syntax

open DotScript.Text

namespace Parser

/-! ## The token behind a statement -/

theorem joinLevel_of_endsReturn {k : TokenKind} (h : endsReturn k = true) : joinLevel k = none := by
  cases k with
  | symbol s => cases s <;> first | rfl | exact absurd h (by decide)
  | _ => rfl

theorem endsReturn_of_beginsStmt {k : TokenKind} (h : beginsStmt k = true) :
    endsReturn k = false := by
  cases k with
  | symbol s => cases s <;> first | rfl | exact absurd h (by decide)
  | keyword k => cases k <;> first | rfl | exact absurd h (by decide)
  | endOfFile => exact absurd h (by decide)
  | _ => rfl

/-- A token that begins a statement ends the expression before it, unless it is ambiguous. -/
theorem joinLevel_of_beginsStmt {k : TokenKind} (h : beginsStmt k = true)
    (hk : isAmbiguous k = false) : joinLevel k = none := by
  cases k with
  | symbol s =>
    cases s <;> first
      | rfl
      | exact absurd h (by decide)
      | exact absurd hk (by decide)
  | _ => rfl

/-- Whether the tokens behind a statement leave it as it is. -/
structure Leaves (s : Stmt) (ks : List TokenKind) : Prop where
  expr : s.endsInExpr = true → Ends 0 ks
  bareReturn : s.isBareReturn = true → endsReturn (ks.headD .endOfFile) = true

theorem leaves_of_endsReturn {s : Stmt} {ks : List TokenKind}
    (h : endsReturn (ks.headD .endOfFile) = true) : Leaves s ks := by
  refine ⟨fun _ m hm => ?_, fun _ => h⟩
  rw [joinLevel_of_endsReturn h] at hm
  cases hm

theorem leaves_of_precedes {s s' : Stmt} (hs' : s'.normal = true) (h : s.precedes s' = true)
    (ks : List TokenKind) : Leaves s (s'.words true ++ ks) := by
  simp only [Stmt.precedes, Bool.and_eq_true, Bool.not_eq_true'] at h
  obtain ⟨k, ks', hwords, hk⟩ := Stmt.beginsStmt_words true hs'
  rw [hwords, List.cons_append]
  constructor
  · intro hexpr
    have hbegins : s'.beginsAmbiguously = false := by
      rw [hexpr, Bool.true_and] at h
      exact h.2
    apply ends_of_joinLevel_none
    apply joinLevel_of_beginsStmt hk
    rcases Stmt.expr_or_keyword true hs' with ⟨e, rfl, -⟩ | ⟨kw, ks'', hwords', -⟩
    · rw [Stmt.words] at hwords
      rw [Stmt.beginsAmbiguously, hwords, List.head?_cons, Option.any_some] at hbegins
      exact hbegins
    · rw [(List.cons.inj (hwords.symm.trans hwords')).1]
      rfl
  · intro hret
    rw [hret] at h
    cases h.1

/-! ## Statements and blocks -/

/-- The parser reads a statement from its tokens. -/
def ReadsStmt (s : Stmt) : Prop :=
  ∀ fuel c ks, c.kinds = s.words true ++ ks → c.kinds.length + 2 ≤ fuel → Leaves s ks →
    Gives ks (fun s' => s'.erased = s.erased) (stmt fuel c)

/-- The parser reads a list of statements from their tokens, before any of the stops. -/
def ReadsStmts (ss : List Stmt) : Prop :=
  ∀ (stop : TokenKind → Bool), (∀ k, stop k = true → endsReturn k = true) →
    ∀ fuel n c ks, c.kinds = stmtsWords true ss ++ ks → c.kinds.length + 2 ≤ fuel →
      c.kinds.length < n →
      (ks.headD .endOfFile = .endOfFile ∨ stop (ks.headD .endOfFile) = true) →
      Gives ks (fun ss' => stmtsErased ss' = stmtsErased ss) (stmtsUntil (stmt fuel) stop n c)

theorem readsStmts_nil : ReadsStmts [] := by
  intro stop _ fuel n c ks hc _ hn hend
  obtain ⟨n, rfl⟩ := Nat.exists_eq_succ_of_ne_zero (Nat.ne_zero_of_lt hn)
  rw [stmtsWords, List.nil_append] at hc
  have hstop : (c.atEnd || stop c.kind) = true := by
    rw [Cursor.atEnd, Cursor.kind_eq_headD, hc, Bool.or_eq_true, beq_iff_eq]
    exact hend
  rw [stmtsUntil, hstop]
  exact ⟨hc, rfl⟩

theorem readsStmts_cons {s : Stmt} {ss : List Stmt} (hnormal : s.normal = true)
    (hall : stmtsNormal ss = true) (hprecedes : ss.head?.all s.precedes = true)
    (hs : ReadsStmt s) (hss : ReadsStmts ss) : ReadsStmts (s :: ss) := by
  intro stop hstops fuel n c ks hc hfuel hn hend
  obtain ⟨n, rfl⟩ := Nat.exists_eq_succ_of_ne_zero (Nat.ne_zero_of_lt hn)
  rw [stmtsWords, List.append_assoc] at hc
  obtain ⟨k, ks', hwords, hk⟩ := Stmt.beginsStmt_words true hnormal
  have hlength := congrArg List.length hc
  rw [hwords] at hlength
  simp only [List.length_append, List.length_cons] at hlength
  have hgo : (c.atEnd || stop c.kind) = false := by
    have hc' := hc
    rw [hwords, List.cons_append] at hc'
    have hkind := endsReturn_of_beginsStmt hk
    rw [Cursor.atEnd, Cursor.kind_of_kinds hc', Bool.or_eq_false_iff]
    constructor
    · rw [beq_eq_false_iff_ne]
      rintro rfl
      cases hkind
    · cases hstop : stop k with
      | false => rfl
      | true => exact absurd (hstops k hstop) (by rw [hkind]; exact Bool.false_ne_true)
  have hleaves : Leaves s (stmtsWords true ss ++ ks) := by
    cases ss with
    | nil =>
      rw [stmtsWords, List.nil_append]
      apply leaves_of_endsReturn
      rcases hend with hend | hend
      · rw [hend]
        rfl
      · exact hstops _ hend
    | cons s' ss =>
      simp only [stmtsNormal, Bool.and_eq_true] at hall
      rw [stmtsWords, List.append_assoc]
      exact leaves_of_precedes hall.1.1 hprecedes _
  rw [stmtsUntil, hgo, if_neg Bool.false_ne_true]
  apply Gives.bind (hs fuel c _ hc hfuel hleaves)
  intro s' d hd hsame
  have hlength' := congrArg List.length hd
  simp only [List.length_append] at hlength'
  apply Gives.bind (hss stop hstops fuel n d ks hd (by omega) (by omega) hend)
  intro ss' d' hd' hsames
  exact ⟨hd', by simp only [stmtsErased, hsame, hsames]⟩

/-- A block up to its stop is read as its statements. -/
theorem gives_blockUntil {stop : TokenKind → Bool} (hstops : ∀ k, stop k = true → endsReturn k = true)
    {b : Block} (hb : ReadsStmts b.stmts) {fuel n : Nat} {c : Cursor} {k : TokenKind}
    {ks : List TokenKind} (hc : c.kinds = b.words true ++ k :: ks)
    (hfuel : c.kinds.length + 2 ≤ fuel) (hn : c.kinds.length < n) (hk : stop k = true) :
    Gives (k :: ks) (fun b' => b'.erased = b.erased) (blockUntil (stmt fuel) stop n c) := by
  obtain ⟨ss, span⟩ := b
  unfold blockUntil
  apply Gives.bind (hb stop hstops fuel n c _ hc hfuel hn (.inr hk))
  intro ss' d hd hsame
  exact ⟨hd, by simp only [Block.erased, hsame]⟩

theorem gives_block {b : Block} (hb : ReadsStmts b.stmts) {fuel n : Nat} {c : Cursor}
    {ks : List TokenKind} (hc : c.kinds = b.words true ++ .symbol .blockDot :: ks)
    (hfuel : c.kinds.length + 2 ≤ fuel) (hn : c.kinds.length < n) :
    Gives ks (fun b' => b'.erased = b.erased) (block (stmt fuel) n c) := by
  unfold block
  apply Gives.bind (gives_blockUntil (fun k hk => by rw [endsReturn, hk]; rfl) hb hc hfuel hn rfl)
  intro b' d hd hsame
  apply Gives.bind (gives_expect hd)
  intro stop d' hd' _
  refine ⟨hd', ?_⟩
  rw [← hsame]
  cases b'
  rfl

/-! ## Functions and classes -/

/-- The parser reads a function from its tokens. -/
def ReadsFunction (decl : FunctionDecl) : Prop :=
  ∀ fuel n c ks, c.kinds = decl.words true ++ ks → c.kinds.length + 1 ≤ fuel →
    c.kinds.length ≤ n →
    Gives ks (fun decl' => decl'.erased = decl.erased) (functionDecl (stmt fuel) n c)

/-- The parser reads methods from their tokens, before the dot that closes the class. -/
def ReadsMethods (ms : List FunctionDecl) : Prop :=
  ∀ fuel n c ks, c.kinds = methodsWords true ms ++ .symbol .blockDot :: ks →
    c.kinds.length + 1 ≤ fuel → c.kinds.length < n →
    Gives (.symbol .blockDot :: ks) (fun ms' => methodsErased ms' = methodsErased ms)
      (methods (stmt fuel) n c)

theorem gives_params {params : List Ident} {n : Nat} {c : Cursor} {ks : List TokenKind}
    (hc : c.kinds = namesWords params ++ .symbol .colon :: ks) (hn : c.kinds.length < n) :
    Gives (.symbol .colon :: ks) (fun ids => ids.map Ident.erased = params.map Ident.erased)
      (itemsBefore ident .colon n c) := by
  rw [namesWords_eq] at hc
  have hitems : Gives (.symbol .colon :: ks)
      (List.Forall₂ (fun x v : Ident => v.erased = x.erased) params)
      (itemsBefore ident .colon n c) := by
    refine gives_itemsBefore (by decide) ?_ ?_ hc (Nat.le_refl _) hn
    · intro id _ d ks' hd _ _
      obtain ⟨id', d', heq, hd', hname⟩ := (gives_ident hd).exists_eq
      rw [heq]
      exact ⟨hd', by simp only [Ident.erased, hname]⟩
    · exact fun id _ => ⟨_, _, rfl, TokenKind.noConfusion⟩
  obtain ⟨ids, d, heq, hd, hids⟩ := hitems.exists_eq
  rw [heq]
  exact ⟨hd, map_eq_of_forall₂ hids⟩

theorem readsFunction {decl : FunctionDecl} (hbody : ReadsStmts decl.body.stmts) :
    ReadsFunction decl := by
  intro fuel n c ks hc hfuel hn
  obtain ⟨name, params, body, span⟩ := decl
  simp only [FunctionDecl.words_eq, List.cons_append, List.append_assoc, List.nil_append] at hc
  have hlength := congrArg List.length hc
  simp only [List.length_cons, List.length_append] at hlength
  rw [functionDecl_eq]
  apply Gives.bind (gives_expect hc)
  intro start d₁ hd₁ _
  apply Gives.bind (gives_ident hd₁)
  intro id d₂ hd₂ hid
  have hlength₂ := congrArg List.length hd₂
  simp only [List.length_cons, List.length_append] at hlength₂
  apply Gives.bind (gives_params hd₂ (by omega))
  intro ids d₃ hd₃ hids
  apply Gives.bind (gives_expect hd₃)
  intro _ d₄ hd₄ _
  have hlength₄ := congrArg List.length hd₄
  simp only [List.length_cons, List.length_append] at hlength₄
  apply Gives.bind (gives_block hbody hd₄ (by omega) (by omega))
  intro body' d₅ hd₅ hsame
  exact ⟨hd₅, by simp only [FunctionDecl.erased, Ident.erased, hid, hids, hsame]⟩

theorem readsMethods_nil : ReadsMethods [] := by
  intro fuel n c ks hc _ hn
  obtain ⟨n, rfl⟩ := Nat.exists_eq_succ_of_ne_zero (Nat.ne_zero_of_lt hn)
  have hstop : (c.isAt .blockDot || c.atEnd) = true := by
    rw [Cursor.isAt, Cursor.kind_of_kinds hc]
    rfl
  rw [methods, hstop]
  exact ⟨hc, rfl⟩

theorem readsMethods_cons {m : FunctionDecl} {ms : List FunctionDecl} (hm : ReadsFunction m)
    (hms : ReadsMethods ms) : ReadsMethods (m :: ms) := by
  intro fuel n c ks hc hfuel hn
  obtain ⟨n, rfl⟩ := Nat.exists_eq_succ_of_ne_zero (Nat.ne_zero_of_lt hn)
  rw [methodsWords, List.append_assoc] at hc
  have hkind : c.kind = .keyword .kwFun := by
    cases m
    exact Cursor.kind_of_kinds hc
  have hgo : (c.isAt .blockDot || c.atEnd) = false ∧ c.atKeyword .kwFun = true := by
    rw [Cursor.isAt, Cursor.atEnd, Cursor.atKeyword, hkind]
    decide
  have hlength := congrArg List.length hc
  obtain ⟨k, ws, hwords⟩ : ∃ k ws, m.words true = k :: ws := by
    cases m
    exact ⟨_, _, rfl⟩
  rw [hwords] at hlength
  simp only [List.length_cons, List.length_append] at hlength
  rw [methods, hgo.1, if_neg Bool.false_ne_true, hgo.2, if_pos rfl]
  apply Gives.bind (hm fuel n c _ hc hfuel (by omega))
  intro m' d hd hsame
  have hlength' := congrArg List.length hd
  simp only [List.length_cons, List.length_append] at hlength'
  apply Gives.bind (hms fuel n d ks hd (by omega) (by omega))
  intro ms' d' hd' hsames
  exact ⟨hd', by simp only [methodsErased, hsame, hsames]⟩

/-! ## The constructs -/

section
variable {ws : List TokenKind}

/-- Reading a statement that begins with a reserved word. -/
theorem readsStmt_of_keyword {s : Stmt} {k : Keyword}
    (hwords : s.words true = .keyword k :: ws)
    (h : ∀ fuel c ks, c.kinds = .keyword k :: (ws ++ ks) → c.kinds.length + 1 ≤ fuel →
      Leaves s ks → Gives ks (fun s' => s'.erased = s.erased) (keywordStmt fuel k c)) :
    ReadsStmt s := by
  intro fuel c ks hc hfuel hleaves
  obtain ⟨fuel, rfl⟩ := Nat.exists_eq_succ_of_ne_zero (show fuel ≠ 0 by omega)
  rw [hwords, List.cons_append] at hc
  rw [stmt_of_keyword fuel c (Cursor.kind_of_kinds hc)]
  exact h fuel c ks hc (by omega) hleaves

theorem gives_introduced {k : Keyword} {make : Expr → Span → Stmt} {e : Expr} {s : Stmt}
    (hmake : ∀ e' span, e'.erased = e.erased → (make e' span).erased = s.erased)
    (he : ReadsExpr (e.words true) e) {fuel : Nat} {c : Cursor} {ks : List TokenKind}
    (hc : c.kinds = .keyword k :: (e.words true ++ ks))
    (hfuel : c.kinds.length + 1 ≤ fuel) (hends : Ends 0 ks) :
    Gives ks (fun s' => s'.erased = s.erased) (introduced (expr fuel) k make c) := by
  unfold introduced
  apply Gives.bind (gives_expect hc)
  intro start d hd _
  have hlength := congrArg List.length hc
  rw [List.length_cons, ← hd] at hlength
  apply Gives.bind (he fuel d ks hd (by omega) hends)
  intro e' d' hd' hsame
  exact ⟨hd', hmake e' _ hsame⟩

theorem stmt_of_beginsExpr {fuel : Nat} {c : Cursor} (h : beginsExpr c.kind = true) :
    stmt (fuel + 1) c = exprStmt (fuel + 1) c := by
  rw [stmt_succ]
  cases hk : c.kind with
  | keyword k =>
    rw [hk] at h
    cases k <;> first | rfl | exact absurd h (by decide)
  | _ => rfl

theorem readsStmt_expr {e : Expr} (hnormal : e.normal = true) (he : ReadsExpr (e.words true) e) :
    ReadsStmt (.expr e) := by
  intro fuel c ks hc hfuel hleaves
  obtain ⟨fuel, rfl⟩ := Nat.exists_eq_succ_of_ne_zero (show fuel ≠ 0 by omega)
  obtain ⟨k, ks', hwords, hk⟩ := e.beginsExpr_words true hnormal
  have hc' : c.kinds = e.words true ++ ks := hc
  have hkind : c.kind = k := by
    rw [hwords] at hc'
    exact Cursor.kind_of_kinds hc'
  rw [stmt_of_beginsExpr (hkind ▸ hk)]
  apply Gives.bind (he (fuel + 1) c ks hc' hfuel (hleaves.expr rfl))
  intro e' d hd hsame
  exact ⟨hd, by simp only [Stmt.erased, hsame]⟩

theorem readsStmt_spawn {e : Expr} {span : Span} (he : ReadsExpr (e.words true) e) :
    ReadsStmt (.expr (.spawn e span)) := by
  refine readsStmt_of_keyword rfl fun fuel c ks hc hfuel hleaves => ?_
  show Gives ks _ (introduced (expr fuel) .kwSpawn (fun e s => .expr (.spawn e s)) c)
  exact gives_introduced (fun e' _ hsame => by simp only [Stmt.erased, Expr.erased, hsame]) he hc hfuel
    (hleaves.expr rfl)

theorem readsStmt_print {e : Expr} {span : Span} (he : ReadsExpr (e.words true) e) :
    ReadsStmt (.print e span) := by
  refine readsStmt_of_keyword rfl fun fuel c ks hc hfuel hleaves => ?_
  show Gives ks _ (introduced (expr fuel) .kwPrint .print c)
  exact gives_introduced (fun e' _ hsame => by simp only [Stmt.erased, hsame]) he hc hfuel
    (hleaves.expr rfl)

theorem readsStmt_importUnit {e : Expr} {span : Span} (he : ReadsExpr (e.words true) e) :
    ReadsStmt (.importUnit e span) := by
  refine readsStmt_of_keyword rfl fun fuel c ks hc hfuel hleaves => ?_
  show Gives ks _ (introduced (expr fuel) .kwImport .importUnit c)
  exact gives_introduced (fun e' _ hsame => by simp only [Stmt.erased, hsame]) he hc hfuel
    (hleaves.expr rfl)

theorem readsStmt_ret_none {span : Span} : ReadsStmt (.ret none span) := by
  refine readsStmt_of_keyword rfl fun fuel c ks hc hfuel hleaves => ?_
  show Gives ks _ (returnStmt (expr fuel) c)
  unfold returnStmt
  apply Gives.bind (gives_expect hc)
  intro start d hd _
  have hstop : endsReturn d.kind = true := by
    rw [Cursor.kind_eq_headD, hd]
    exact hleaves.bareReturn rfl
  simp only [hstop, if_true]
  exact ⟨hd, rfl⟩

theorem readsStmt_ret_some {e : Expr} {span : Span} (hnormal : e.normal = true)
    (he : ReadsExpr (e.words true) e) : ReadsStmt (.ret (some e) span) := by
  refine readsStmt_of_keyword rfl fun fuel c ks hc hfuel hleaves => ?_
  show Gives ks _ (returnStmt (expr fuel) c)
  unfold returnStmt
  apply Gives.bind (gives_expect hc)
  intro start d hd _
  obtain ⟨k, ks', hwords, hk⟩ := e.beginsExpr_words true hnormal
  have hgo : endsReturn d.kind = false := by
    have hd' := hd
    rw [hwords] at hd'
    rw [Cursor.kind_of_kinds hd']
    exact endsReturn_of_beginsStmt (beginsStmt_of_beginsExpr hk)
  have hlength := congrArg List.length hc
  rw [List.length_cons, ← hd] at hlength
  simp only [hgo]
  apply Gives.bind (he fuel d ks hd (by omega) (hleaves.expr rfl))
  intro e' d' hd' hsame
  exact ⟨hd', by simp only [Stmt.erased, hsame]⟩

theorem readsStmt_function {decl : FunctionDecl} (hdecl : ReadsFunction decl) :
    ReadsStmt (.function decl) := by
  obtain ⟨ws, hwords⟩ : ∃ ws, decl.words true = .keyword .kwFun :: ws := by
    cases decl
    exact ⟨_, rfl⟩
  refine readsStmt_of_keyword hwords fun fuel c ks hc hfuel _ => ?_
  rw [← List.cons_append, ← hwords] at hc
  apply Gives.bind (hdecl fuel fuel c ks hc hfuel (by omega))
  intro decl' d hd hsame
  exact ⟨hd, by simp only [Stmt.erased, hsame]⟩

theorem readsStmt_classDecl {name : Ident} {ms : List FunctionDecl} {span : Span}
    (hms : ReadsMethods ms) : ReadsStmt (.classDecl name ms span) := by
  refine readsStmt_of_keyword (Stmt.words_classDecl true name ms) fun fuel c ks hc hfuel _ => ?_
  simp only [List.cons_append, List.append_assoc, List.nil_append] at hc
  show Gives ks _ (classDecl (stmt fuel) fuel c)
  unfold classDecl
  apply Gives.bind (gives_expect hc)
  intro start d₁ hd₁ _
  apply Gives.bind (gives_ident hd₁)
  intro id d₂ hd₂ hid
  apply Gives.bind (gives_expect hd₂)
  intro _ d₃ hd₃ _
  have hlength := congrArg List.length hc
  simp only [List.length_cons, ← hd₃] at hlength
  apply Gives.bind (hms fuel fuel d₃ ks hd₃ (by omega) (by omega))
  intro ms' d₄ hd₄ hsame
  apply Gives.bind (gives_expect hd₄)
  intro _ d₅ hd₅ _
  exact ⟨hd₅, by simp only [Stmt.erased, Ident.erased, hid, hsame]⟩

theorem readsStmt_whileLoop {cond : Expr} {body : Block} {span : Span}
    (hcond : ReadsExpr (cond.words true) cond) (hbody : ReadsStmts body.stmts) :
    ReadsStmt (.whileLoop cond body span) := by
  refine readsStmt_of_keyword (Stmt.words_whileLoop true cond body) fun fuel c ks hc hfuel _ => ?_
  simp only [List.cons_append, List.append_assoc, List.nil_append] at hc
  show Gives ks _ (whileStmt (expr fuel) (stmt fuel) fuel c)
  unfold whileStmt
  apply Gives.bind (gives_expect hc)
  intro start d₁ hd₁ _
  have hlength₁ := congrArg List.length hc
  rw [List.length_cons, ← hd₁] at hlength₁
  apply Gives.bind (hcond fuel d₁ _ hd₁ (by omega) (ends_of_joinLevel_none rfl))
  intro cond' d₂ hd₂ hcond'
  apply Gives.bind (gives_expect hd₂)
  intro _ d₃ hd₃ _
  have hlength₃ := congrArg List.length hd₁
  rw [List.length_append, List.length_cons, ← hd₃] at hlength₃
  apply Gives.bind (gives_block hbody hd₃ (by omega) (by omega))
  intro body' d₄ hd₄ hbody'
  exact ⟨hd₄, by simp only [Stmt.erased, hcond', hbody']⟩

theorem readsStmt_tryCatch {body handler : Block} {errorVar : Ident} {span : Span}
    (hbody : ReadsStmts body.stmts) (hhandler : ReadsStmts handler.stmts) :
    ReadsStmt (.tryCatch body errorVar handler span) := by
  refine readsStmt_of_keyword (Stmt.words_tryCatch true body handler errorVar) fun fuel c ks hc hfuel _ => ?_
  simp only [List.cons_append, List.append_assoc, List.nil_append] at hc
  show Gives ks _ (tryStmt (stmt fuel) fuel c)
  unfold tryStmt
  apply Gives.bind (gives_expect hc)
  intro start d₁ hd₁ _
  apply Gives.bind (gives_expect hd₁)
  intro _ d₂ hd₂ _
  have hlength₂ := congrArg List.length hc
  simp only [List.length_cons, ← hd₂] at hlength₂
  apply Gives.bind (gives_blockUntil (fun k hk => by rw [beq_iff_eq.1 hk]; rfl) hbody hd₂
    (by omega) (by omega) rfl)
  intro body' d₃ hd₃ hbody'
  apply Gives.bind (gives_expect hd₃)
  intro _ d₄ hd₄ _
  apply Gives.bind (gives_ident hd₄)
  intro id d₅ hd₅ hid
  apply Gives.bind (gives_expect hd₅)
  intro _ d₆ hd₆ _
  have hlength₃ := congrArg List.length hd₂
  rw [List.length_append, ← hd₃] at hlength₃
  have hlength₆ := congrArg List.length hd₃
  simp only [List.length_cons, ← hd₆] at hlength₆
  apply Gives.bind (gives_block hhandler hd₆ (by omega) (by omega))
  intro handler' d₇ hd₇ hhandler'
  exact ⟨hd₇, by simp only [Stmt.erased, Ident.erased, hbody', hid, hhandler']⟩

theorem gives_elseArm {b : Option Block} (hb : ∀ b' ∈ b, ReadsStmts b'.stmts) {fuel n : Nat}
    {c : Cursor} {ks : List TokenKind} (hc : c.kinds = elseWords true b ++ .symbol .blockDot :: ks)
    (hfuel : c.kinds.length + 2 ≤ fuel) (hn : c.kinds.length < n) :
    Gives (.symbol .blockDot :: ks) (fun b' => b'.map Block.erased = b.map Block.erased)
      (elseArm (stmt fuel) n c) := by
  unfold elseArm
  cases b with
  | none =>
    rw [Cursor.atKeyword, Cursor.kind_of_kinds hc]
    exact ⟨hc, rfl⟩
  | some b =>
    rw [elseWords, List.cons_append, List.cons_append] at hc
    rw [Cursor.atKeyword, Cursor.kind_of_kinds hc, beq_self_eq_true, if_pos rfl]
    apply Gives.bind (gives_expect (Cursor.kinds_advance hc))
    intro _ d hd _
    have hlength := congrArg List.length hc
    simp only [List.length_cons, ← hd] at hlength
    apply Gives.bind (gives_blockUntil (fun k hk => by rw [endsReturn, hk]; rfl) (hb b rfl) hd
      (by omega) (by omega) rfl)
    intro b' d' hd' hsame
    exact ⟨hd', congrArg some hsame⟩

/-- The first arm of an `if` is read up to what follows it. -/
theorem gives_thenArm {b : Block} (hb : ReadsStmts b.stmts) {elseBlock : Option Block}
    {fuel n : Nat} {c : Cursor} {ks : List TokenKind}
    (hc : c.kinds = b.words true ++ (elseWords true elseBlock ++ .symbol .blockDot :: ks))
    (hfuel : c.kinds.length + 2 ≤ fuel) (hn : c.kinds.length < n) :
    Gives (elseWords true elseBlock ++ .symbol .blockDot :: ks) (fun b' => b'.erased = b.erased)
      (blockUntil (stmt fuel) (fun k => k == .keyword .kwElse || isBlockDot k) n c) := by
  have hstops : ∀ k : TokenKind, (k == .keyword .kwElse || isBlockDot k) = true →
      endsReturn k = true := by
    intro k hk
    rcases Bool.or_eq_true _ _ ▸ hk with hk | hk
    · rw [beq_iff_eq.1 hk]
      rfl
    · rw [endsReturn, hk]
      rfl
  cases elseBlock with
  | none => exact gives_blockUntil hstops hb hc hfuel hn rfl
  | some elseBlock => exact gives_blockUntil hstops hb hc hfuel hn rfl

theorem erased_ifElse {cond : Expr} {thenBlock : Block} {elseBlock : Option Block} {span : Span} :
    (Stmt.ifElse cond thenBlock elseBlock span).erased =
      .ifElse cond.erased thenBlock.erased (elseBlock.map Block.erased) default := by
  cases elseBlock <;> simp only [Stmt.erased, Option.map_some, Option.map_none]

theorem readsStmt_ifElse {cond : Expr} {thenBlock : Block} {elseBlock : Option Block} {span : Span}
    (hcond : ReadsExpr (cond.words true) cond) (hthen : ReadsStmts thenBlock.stmts)
    (helse : ∀ b ∈ elseBlock, ReadsStmts b.stmts) :
    ReadsStmt (.ifElse cond thenBlock elseBlock span) := by
  refine readsStmt_of_keyword (Stmt.words_ifElse true cond thenBlock elseBlock) fun fuel c ks hc hfuel _ => ?_
  simp only [List.cons_append, List.append_assoc, List.nil_append] at hc
  show Gives ks _ (ifStmt (expr fuel) (stmt fuel) fuel c)
  rw [ifStmt_eq]
  apply Gives.bind (gives_expect hc)
  intro start d₁ hd₁ _
  have hlength₁ := congrArg List.length hc
  rw [List.length_cons, ← hd₁] at hlength₁
  apply Gives.bind (hcond fuel d₁ _ hd₁ (by omega) (ends_of_joinLevel_none rfl))
  intro cond' d₂ hd₂ hcond'
  apply Gives.bind (gives_expect hd₂)
  intro _ d₃ hd₃ _
  have hlength₃ := congrArg List.length hd₁
  rw [List.length_append, List.length_cons, ← hd₃] at hlength₃
  apply Gives.bind (gives_thenArm hthen hd₃ (by omega) (by omega))
  intro then' d₄ hd₄ hthen'
  have hlength₄ := congrArg List.length hd₃
  rw [List.length_append, ← hd₄] at hlength₄
  apply Gives.bind (gives_elseArm helse hd₄ (by omega) (by omega))
  intro else' d₅ hd₅ helse'
  apply Gives.bind (gives_expect hd₅)
  intro stop d₆ hd₆ _
  exact ⟨hd₆, by simp only [erased_ifElse, hcond', hthen', helse']⟩

end

/-! ## Programs -/

mutual

/-- The parser reads the tokens of a normal statement as the statement. -/
theorem reads_stmt : (s : Stmt) → s.normal = true → ReadsStmt s
  | .expr e, h => by
    cases e with
    | spawn call span => exact readsStmt_spawn (reads_words call h).expr
    | _ => exact readsStmt_expr h (reads_words _ h).expr
  | .print value _, h => readsStmt_print (reads_words value h).expr
  | .function decl, h => readsStmt_function (reads_function decl h)
  | .classDecl name ms _, h => by
    simp only [Stmt.normal, Bool.and_eq_true] at h
    exact readsStmt_classDecl (reads_methods ms h.2)
  | .block _, h => absurd h Bool.false_ne_true
  | .ifElse cond thenBlock none _, h => by
    simp only [Stmt.normal, Bool.and_eq_true] at h
    exact readsStmt_ifElse (reads_words cond h.1.1).expr (reads_block thenBlock h.1.2)
      fun _ hb => absurd hb (Option.not_mem_none _)
  | .ifElse cond thenBlock (some elseBlock) _, h => by
    simp only [Stmt.normal, Bool.and_eq_true] at h
    have helse := reads_block elseBlock h.2
    exact readsStmt_ifElse (reads_words cond h.1.1).expr (reads_block thenBlock h.1.2)
      fun b hb => Option.some.inj hb ▸ helse
  | .whileLoop cond body _, h => by
    simp only [Stmt.normal, Bool.and_eq_true] at h
    exact readsStmt_whileLoop (reads_words cond h.1).expr (reads_block body h.2)
  | .ret none _, _ => readsStmt_ret_none
  | .ret (some value) _, h => readsStmt_ret_some h (reads_words value h).expr
  | .importUnit path _, h => readsStmt_importUnit (reads_words path h).expr
  | .tryCatch body errorVar handler _, h => by
    simp only [Stmt.normal, Bool.and_eq_true] at h
    exact readsStmt_tryCatch (reads_block body h.1.1) (reads_block handler h.2)

theorem reads_stmts : (ss : List Stmt) → stmtsNormal ss = true → ReadsStmts ss
  | [], _ => readsStmts_nil
  | s :: ss, h => by
    simp only [stmtsNormal, Bool.and_eq_true] at h
    exact readsStmts_cons h.1.1 h.2 h.1.2 (reads_stmt s h.1.1) (reads_stmts ss h.2)

theorem reads_methods : (ms : List FunctionDecl) → methodsNormal ms = true → ReadsMethods ms
  | [], _ => readsMethods_nil
  | m :: ms, h => by
    simp only [methodsNormal, Bool.and_eq_true] at h
    exact readsMethods_cons (reads_function m h.1) (reads_methods ms h.2)

theorem reads_block : (b : Block) → b.normal = true → ReadsStmts b.stmts
  | ⟨ss, _⟩, h => reads_stmts ss h

theorem reads_function : (decl : FunctionDecl) → decl.normal = true → ReadsFunction decl
  | ⟨_, _, body, _⟩, h => by
    simp only [FunctionDecl.normal, Bool.and_eq_true] at h
    exact readsFunction (reads_block body h.2)

end

end Parser

/-- The kinds of the tokens of a text are those that its cursor stands before, and the end of
file. -/
theorem map_kind_tokens (text : String) :
    (tokens text).map Token.kind = (Cursor.ofTokens (tokens text)).kinds ++ [.endOfFile] := by
  obtain ⟨ts, eof, htokens, -, -⟩ := exists_tokensFrom 0 text.toList
  rw [show tokens text = _ from htokens, ofTokens_append, List.map_append]
  rfl

/-- The text of a normal program is read as the program. -/
theorem exists_parse_rendered {p : Program} (h : p.normal = true) :
    ∃ q, parse p.rendered = .ok q ∧ q.erased = p.erased := by
  let c := Cursor.ofTokens (tokens p.rendered)
  have hkinds : c.kinds = stmtsWords true p.stmts ++ [] := by
    rw [List.append_nil]
    exact List.append_cancel_right
      ((map_kind_tokens p.rendered).symm.trans (map_kind_tokens_rendered h))
  have hlength : c.kinds.length = c.rest.length := List.length_map ..
  obtain ⟨ss, d, hstmts, -, hsame⟩ := (Parser.reads_stmts p.stmts h (fun _ => false)
    (fun _ h => absurd h Bool.false_ne_true) (c.rest.length + 2) (c.rest.length + 2) c [] hkinds
    (by omega) (by omega) (.inl rfl)).exists_eq
  refine ⟨⟨ss, c.span.cover d.span⟩, ?_, ?_⟩
  · show (Parser.program (c.rest.length + 2) c >>= fun q => pure q.1) = _
    rw [Parser.program, hstmts]
    rfl
  · rw [Program.erased, Program.erased, hsame]

end DotScript.Syntax
