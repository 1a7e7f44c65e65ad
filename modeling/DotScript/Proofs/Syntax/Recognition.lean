import DotScript.Proofs.Syntax.Automaton

/-!
# The parser reads what the automaton reads

Each function of the parser takes the automaton from a stack with its goals on top to the stack
below, or fails where and as the automaton fails: `Matches`. The bounds on loops and nesting, two
more than the number of tokens, are never reached.
-/

namespace DotScript.Syntax.Automaton

open DotScript.Text DotScript.Syntax.Parser

/-- Read the tokens at a cursor. -/
def runAt (gs : List Goal) (c : Cursor) : Except ParseError Unit := run c.eof gs c.rest

section
variable {c d : Cursor} {g g' : Goal} {gs gs' hs ks : List Goal} {m : Nat} {α β : Type}

theorem runAt_eq : runAt gs c =
    match next gs c.kind with
    | .go gs => runAt gs c.advance
    | .accept => .ok ()
    | .reject cause => .error ⟨cause, c.span⟩ := by
  have hfit := next_fitting gs .endOfFile
  unfold runAt
  cases hrest : c.rest with
  | nil =>
    have hcurrent : c.current = ⟨.endOfFile, c.eof⟩ := by simp [Cursor.current, hrest]
    rw [run, Cursor.kind, Cursor.span, hcurrent]
    cases hnext : next gs .endOfFile with
    | go =>
      rw [hnext] at hfit
      exact absurd rfl hfit
    | accept | reject => rfl
  | cons t ts =>
    have hcurrent : c.current = t := by simp [Cursor.current, hrest]
    have hadvance : c.advance = ⟨ts, c.eof⟩ := by rw [Cursor.advance, hrest, List.tail_cons]
    rw [run, Cursor.kind, Cursor.span, hcurrent]
    cases next gs t.kind with
    | go goals => exact (congrArg (fun d : Cursor => run d.eof goals d.rest) hadvance).symm
    | accept | reject => rfl

theorem runAt_congr (h : next gs c.kind = next gs' c.kind) : runAt gs c = runAt gs' c := by
  rw [runAt_eq, h, ← runAt_eq]

theorem runAt_shift (g : Goal) (hs gs : List Goal) (h : g.step c.kind = .shift hs) :
    runAt (g :: gs) c = runAt (hs ++ gs) c.advance ∧ c.advance.rest.length + 1 = c.rest.length := by
  have hfit := g.fitting c.kind
  rw [h] at hfit
  refine ⟨?_, Cursor.length_advance hfit⟩
  rw [runAt_eq, next, h]

theorem runAt_skip (h : g.step c.kind = .skip) : runAt (g :: gs) c = runAt gs c :=
  runAt_congr (by rw [next, h])

theorem runAt_fail {cause : ParseCause} (h : g.step c.kind = .fail cause) :
    runAt (g :: gs) c = .error ⟨cause, c.span⟩ := by
  rw [runAt_eq, next, h]

theorem runAt_step_congr (h : g.step c.kind = g'.step c.kind) :
    runAt (g :: gs) c = runAt (g' :: gs) c :=
  runAt_congr (by rw [next, next, h])

/-- A goal may be replaced by the goals that it is made of. -/
theorem runAt_expand (g' : Goal) (hs : List Goal)
    (h : g.step c.kind = (g'.step c.kind).before hs) (hskip : g'.step c.kind ≠ .skip) : runAt (g :: gs) c = runAt (g' :: (hs ++ gs)) c := by
  apply runAt_congr
  rw [next, next, h]
  cases hstep : g'.step c.kind with
  | shift goals => simp only [Step.before, List.append_assoc]
  | skip => exact absurd hstep hskip
  | fail cause => rfl

theorem runAt_optional (hopt : hs.all Goal.optional = true) (hk : joinLevel c.kind = none) :
    runAt (hs ++ gs) c = runAt gs c := by
  induction hs with
  | nil => rfl
  | cons g hs ih =>
    simp only [List.all_cons, Bool.and_eq_true] at hopt
    exact (runAt_skip (step_of_optional hopt.1 hk)).trans (ih hopt.2)

/-- What a parser does at a cursor, told by the automaton: it goes from a stack to another one and
reads at least so many tokens, or fails in the same way. -/
def Matches (c : Cursor) (gs hs : List Goal) (m : Nat) : Except ParseError (α × Cursor) → Prop
  | .ok (_, d) => runAt gs c = runAt hs d ∧ d.rest.length + m ≤ c.rest.length
  | .error e => runAt gs c = .error e

namespace Matches

theorem pure {v : α} : Matches c gs gs 0 (.ok (v, c)) := ⟨rfl, Nat.le_refl _⟩

theorem weaken {r : Except ParseError (α × Cursor)} (h : Matches c gs hs m r) :
    Matches c gs hs 0 r := by
  cases r with
  | ok p => exact ⟨h.1, Nat.le_trans (Nat.le_add_right _ _) h.2⟩
  | error e => exact h

theorem of_eq {r : Except ParseError (α × Cursor)} (heq : runAt gs c = runAt gs' c)
    (h : Matches c gs' hs m r) : Matches c gs hs m r := by
  cases r with
  | ok p => exact ⟨heq.trans h.1, h.2⟩
  | error e => exact heq.trans h

theorem of_advance {r : Except ParseError (α × Cursor)} (heq : runAt gs c = runAt gs' d)
    (hd : d.rest.length + m ≤ c.rest.length) (h : Matches d gs' hs 0 r) : Matches c gs hs m r := by
  cases r with
  | ok p => exact ⟨heq.trans h.1, Nat.le_trans (Nat.add_le_add_right h.2 m) hd⟩
  | error e => exact heq.trans h

theorem bind {r : Except ParseError (α × Cursor)} {f : α × Cursor → Except ParseError (β × Cursor)}
    (h : Matches c gs hs m r)
    (hf : ∀ v d, r = .ok (v, d) → d.rest.length + m ≤ c.rest.length → Matches d hs ks 0 (f (v, d))) :
    Matches c gs ks m (r >>= f) := by
  cases r with
  | ok p => exact of_advance h.1 h.2 (hf p.1 p.2 rfl h.2)
  | error e => exact h

/-- A function applied to the value is of no account. -/
theorem map {r : Except ParseError (α × Cursor)} {f : α × Cursor → β × Cursor}
    (h : Matches c gs hs m r) (hf : ∀ v d, (f (v, d)).2 = d) :
    Matches c gs hs m (r >>= fun p => .ok (f p)) := by
  cases r with
  | ok p =>
    refine ⟨?_, ?_⟩
    · rw [hf]
      exact h.1
    · rw [hf]
      exact h.2
  | error e => exact h

end Matches

/-! ## Tokens -/

theorem matches_expect {k : TokenKind} (hs : List Goal) (h : g.step c.kind = (expectStep k c.kind).before hs) :
    Matches c (g :: gs) (hs ++ gs) 1 (expect k c) := by
  unfold expect
  unfold expectStep at h
  split
  · next hk =>
    rw [if_pos hk] at h
    obtain ⟨hrun, hlength⟩ := runAt_shift g hs gs h
    exact ⟨hrun, Nat.le_of_eq hlength⟩
  · next hk =>
    rw [if_neg hk] at h
    exact runAt_fail h

theorem matches_symbol (s : Closer) : Matches c (.close s :: gs) gs 1 (symbol s.symbol c) := by
  apply matches_expect []
  show expectStep _ _ = (expectStep _ _).before []
  unfold expectStep
  split <;> rfl

/-- A keyword that is known to be there. -/
theorem matches_keyword {k : Keyword} (hk : c.kind = .keyword k)
    (hg : g.step (.keyword k) = .shift hs) : Matches c (g :: gs) (hs ++ gs) 1 (keyword k c) := by
  apply matches_expect hs
  rw [hk, hg, expectStep, if_pos rfl]
  rfl

theorem matches_ident : Matches c (.name :: gs) gs 1 (ident c) := by
  unfold ident
  split
  · next name hk =>
    obtain ⟨hrun, hlength⟩ := runAt_shift (c := c) .name [] gs (by rw [hk]; rfl)
    exact ⟨hrun, Nat.le_of_eq hlength⟩
  · next hk =>
    apply runAt_fail
    show nameStep c.kind = _
    unfold nameStep
    split
    · next heq => exact absurd heq (hk _)
    · rfl

end

/-! ## Items -/

section
variable {α : Type} {gs : List Goal}

/-- One or more items up to what is no comma. -/
theorem matches_commaSeparated {item : Parser α} {n : Nat} (i : Item) (s : Closer)
    (hitem : ∀ c, c.rest.length ≤ n → ∀ gs, Matches c (i.goals ++ gs) gs 1 (item c)) :
    ∀ (fuel : Nat) (c : Cursor), c.rest.length ≤ n → c.rest.length < fuel →
      Matches c (i.goals ++ .moreItems i s :: gs) (.close s :: gs) 1 (commaSeparated item fuel c)
  | 0, c, _, hfuel => absurd hfuel (Nat.not_lt_zero _)
  | fuel + 1, c, hn, hfuel => by
    unfold commaSeparated
    apply Matches.bind (hitem c hn _)
    intro x d _ hd
    simp only
    split
    · next hcomma =>
      have hkind : d.kind = .symbol .comma := eq_of_beq hcomma
      obtain ⟨hrun, hlength⟩ := runAt_shift (c := d) (.moreItems i s)
        (i.goals ++ [.moreItems i s]) gs (by rw [hkind]; rfl)
      rw [List.append_assoc] at hrun
      apply Matches.of_advance (d := d.advance) hrun (by omega)
      apply Matches.weaken
      exact (matches_commaSeparated i s hitem fuel d.advance (by omega) (by omega)).map
        fun _ _ => rfl
    · next hcomma =>
      apply Matches.of_eq _ Matches.pure
      apply runAt_step_congr
      have hkind : d.kind ≠ .symbol .comma := fun h => hcomma (beq_iff_eq.2 h)
      exact if_neg hkind

/-- Items up to a closing symbol. -/
theorem matches_itemsBefore {item : Parser α} {fuel : Nat} {c : Cursor} (i : Item) (s : Closer)
    (hitem : ∀ c', c'.rest.length ≤ c.rest.length →
      ∀ gs, Matches c' (i.goals ++ gs) gs 1 (item c'))
    (hfuel : c.rest.length < fuel) :
    Matches c (.items i s :: gs) (.close s :: gs) 0 (itemsBefore item s.symbol fuel c) := by
  unfold itemsBefore
  split
  · next hclose =>
    have hkind : c.kind = .symbol s.symbol := eq_of_beq hclose
    apply Matches.of_eq _ Matches.pure
    apply runAt_step_congr
    show itemsStep i s c.kind = expectStep (.symbol s.symbol) c.kind
    rw [itemsStep, expectStep, if_pos hkind, if_pos hkind]
  · next hclose =>
    have hkind : c.kind ≠ .symbol s.symbol := fun h => hclose (beq_iff_eq.2 h)
    have hstep : Goal.step (.items i s) c.kind = (i.step c.kind).before [.moreItems i s] :=
      if_neg hkind
    have hrun : runAt (.items i s :: gs) c = runAt (i.goals ++ .moreItems i s :: gs) c := by
      cases i with
      | expr => exact runAt_expand .expr _ hstep (exprStep_ne_skip _)
      | name =>
        refine runAt_expand .name _ hstep ?_
        show nameStep c.kind ≠ .skip
        unfold nameStep
        split <;> exact Step.noConfusion
      | entry =>
        refine runAt_expand .expr [.close .colon, .expr, .moreItems .entry s] ?_
          (exprStep_ne_skip _)
        rw [hstep]
        show ((exprStep c.kind).before _).before _ = (exprStep c.kind).before _
        cases exprStep c.kind <;> simp [Step.before]
    exact ((matches_commaSeparated i s hitem fuel c (Nat.le_refl _) hfuel).of_eq hrun).weaken

theorem matches_listUntil {item : Parser α} {fuel : Nat} {c : Cursor} (i : Item) (s : Closer)
    (hitem : ∀ c', c'.rest.length ≤ c.rest.length →
      ∀ gs, Matches c' (i.goals ++ gs) gs 1 (item c'))
    (hfuel : c.rest.length < fuel) :
    Matches c (.items i s :: gs) gs 0 (listUntil item s.symbol fuel c) := by
  rw [listUntil_eq]
  apply Matches.bind (matches_itemsBefore i s hitem hfuel)
  intro v d _ _
  exact ((matches_symbol s).map fun _ _ => rfl).weaken

end

/-! ## Expressions

The parser `E` reads the expressions inside others; it is known to be right where fewer tokens are
left. -/

section
variable {E : Parser Expr} {fuel : Nat} {c : Cursor} {gs : List Goal}
  (hE : ∀ c, c.rest.length + 2 ≤ fuel → ∀ gs, Matches c (.expr :: gs) gs 1 (E c))
include hE

theorem matches_mapKey (hfuel : c.rest.length + 2 ≤ fuel) :
    Matches c (.expr :: gs) gs 1 (mapKey E c) := by
  unfold mapKey
  split
  · next name hk =>
    split
    · next hcolon =>
      -- A name before a colon is what an expression would be too.
      have hkind : c.advance.kind = .symbol .colon := eq_of_beq hcolon
      obtain ⟨hrun, hlength⟩ := runAt_shift (c := c) .expr
        [.postfixes, .chain .product, .chain .sum, .chain .compare, .assigned] gs (by rw [hk]; rfl)
      refine ⟨hrun.trans ?_, Nat.le_of_eq hlength⟩
      exact runAt_optional rfl (by rw [hkind]; rfl)
    · exact hE c hfuel gs
  · exact hE c hfuel gs

theorem matches_mapEntry (hfuel : c.rest.length + 2 ≤ fuel) :
    Matches c (Item.entry.goals ++ gs) gs 1 (mapEntry E c) := by
  unfold mapEntry
  apply Matches.bind (matches_mapKey hE hfuel)
  intro key c₁ _ h₁
  apply Matches.bind (matches_symbol .colon).weaken
  intro _ c₂ _ h₂
  exact ((hE c₂ (by omega) gs).map fun _ _ => rfl).weaken

theorem matches_primary (hfuel : c.rest.length + 1 ≤ fuel) :
    Matches c (.primary :: gs) gs 1 (primary E fuel c) := by
  have hatom : ∀ {e : Expr}, primaryStep c.kind = .shift [] →
      Matches c (.primary :: gs) gs 1 (.ok (e, c.advance)) := by
    intro e hstep
    obtain ⟨hrun, hlength⟩ := runAt_shift .primary [] gs hstep
    exact ⟨hrun, Nat.le_of_eq hlength⟩
  unfold primary
  simp only
  split
  case h_8 hk =>
    obtain ⟨hrun, hlength⟩ := runAt_shift (c := c) .primary [.expr, .close .paren] gs
      (by rw [hk]; rfl)
    apply Matches.of_advance (d := c.advance) hrun (Nat.le_of_eq hlength)
    apply Matches.bind (hE c.advance (by omega) _).weaken
    intro inner d _ _
    exact ((matches_symbol .paren).map fun _ _ => rfl).weaken
  case h_9 hk =>
    obtain ⟨hrun, hlength⟩ := runAt_shift (c := c) .primary [.items .expr .bracket] gs
      (by rw [hk]; rfl)
    apply Matches.of_advance (d := c.advance) hrun (Nat.le_of_eq hlength)
    exact (matches_listUntil .expr .bracket (fun c' h gs => hE c' (by omega) gs) (by omega)).map
      fun _ _ => rfl
  case h_10 hk =>
    obtain ⟨hrun, hlength⟩ := runAt_shift (c := c) .primary [.items .entry .brace] gs
      (by rw [hk]; rfl)
    apply Matches.of_advance (d := c.advance) hrun (Nat.le_of_eq hlength)
    exact (matches_listUntil .entry .brace (fun c' h gs => matches_mapEntry hE (by omega))
      (by omega)).map fun _ _ => rfl
  case h_11 hk₁ hk₂ hk₃ hk₄ hk₅ hk₆ hk₇ hk₈ hk₉ hk₁₀ =>
    apply runAt_fail
    show primaryStep c.kind = _
    unfold primaryStep
    split
    all_goals first
      | rfl
      | next heq => exact absurd heq (by simp_all)
  all_goals
    next hk => exact hatom (by rw [hk]; rfl)

theorem matches_postfixes : ∀ (k : Nat) (e : Expr) (c : Cursor), c.rest.length < k →
    c.rest.length + 1 ≤ fuel → Matches c (.postfixes :: gs) gs 0 (postfixes E k e c)
  | 0, _, c, hk, _ => absurd hk (Nat.not_lt_zero _)
  | k + 1, e, c, hk, hfuel => by
    unfold postfixes
    split
    · next hparen =>
      have hkind : c.kind = .symbol .lParen := eq_of_beq hparen
      obtain ⟨hrun, hlength⟩ := runAt_shift .postfixes [.items .expr .paren, .postfixes] gs
        (by rw [hkind]; rfl)
      apply Matches.of_advance (d := c.advance) hrun (by omega)
      apply Matches.bind
        (matches_listUntil .expr .paren (fun c' h gs => hE c' (by omega) gs) (by omega))
      intro v d _ hd
      exact matches_postfixes k _ d (by omega) (by omega)
    split
    · next hparen hdot =>
      have hkind : c.kind = .symbol .dot := eq_of_beq hdot
      obtain ⟨hrun, hlength⟩ := runAt_shift .postfixes [.name, .postfixes] gs
        (by rw [hkind]; rfl)
      apply Matches.of_advance (d := c.advance) hrun (by omega)
      apply Matches.bind matches_ident.weaken
      intro v d _ hd
      exact matches_postfixes k _ d (by omega) (by omega)
    · next hparen hdot =>
      apply Matches.of_eq _ Matches.pure
      apply runAt_skip
      show postfixStep c.kind = .skip
      unfold postfixStep
      split
      · next heq => exact absurd (beq_iff_eq.2 heq) hparen
      · next heq => exact absurd (beq_iff_eq.2 heq) hdot
      · rfl

theorem matches_operand (hfuel : c.rest.length + 1 ≤ fuel) :
    Matches c (.primary :: .postfixes :: gs) gs 1 (operand E fuel c) := by
  unfold operand
  apply Matches.bind (matches_primary hE hfuel)
  intro e d _ hd
  exact matches_postfixes hE fuel e d (by omega) (by omega)

theorem matches_signed : ∀ (k : Nat) (c : Cursor), c.rest.length < k →
    c.rest.length + 1 ≤ fuel → Matches c (.signed :: gs) gs 1 (signed (operand E fuel) k c)
  | 0, c, hk, _ => absurd hk (Nat.not_lt_zero _)
  | k + 1, c, hk, hfuel => by
    unfold signed
    split
    · next hop =>
      apply Matches.of_eq _ (matches_operand hE hfuel)
      apply runAt_expand .primary [.postfixes] _ (primaryStep_ne_skip _)
      show signedStep c.kind = _
      unfold signedStep
      rw [hop]
      rfl
    · next op hop =>
      obtain ⟨hrun, hlength⟩ := runAt_shift (c := c) .signed [.signed] gs (by
        show signedStep c.kind = _
        unfold signedStep
        rw [hop])
      apply Matches.of_advance (d := c.advance) hrun (Nat.le_of_eq hlength)
      exact ((matches_signed k c.advance (by omega) (by omega)).map fun _ _ => rfl).weaken

omit hE in
theorem matches_chain {tighter : Parser Expr} {t : Tier}
    (htighter : ∀ c, c.rest.length + 1 ≤ fuel → ∀ gs, Matches c (t.operand ++ gs) gs 1 (tighter c)) :
    ∀ (k : Nat) (left : Expr) (c : Cursor), c.rest.length < k → c.rest.length + 1 ≤ fuel →
      Matches c (.chain t :: gs) gs 0 (chain t.operator tighter k left c)
  | 0, _, c, hk, _ => absurd hk (Nat.not_lt_zero _)
  | k + 1, left, c, hk, hfuel => by
    unfold chain
    split
    · next hop =>
      apply Matches.of_eq _ Matches.pure
      apply runAt_skip
      show chainStep t c.kind = .skip
      unfold chainStep
      rw [hop]
    · next op hop =>
      obtain ⟨hrun, hlength⟩ := runAt_shift (c := c) (.chain t) (t.operand ++ [.chain t]) gs (by
        show chainStep t c.kind = _
        unfold chainStep
        rw [hop])
      rw [List.append_assoc] at hrun
      apply Matches.of_advance (d := c.advance) hrun (by omega)
      apply Matches.bind (htighter c.advance (by omega) _).weaken
      intro right d _ hd
      exact matches_chain htighter k _ d (by omega) (by omega)

omit hE in
theorem matches_leftAssoc {tighter : Parser Expr} {t : Tier}
    (htighter : ∀ c, c.rest.length + 1 ≤ fuel → ∀ gs, Matches c (t.operand ++ gs) gs 1 (tighter c))
    (hfuel : c.rest.length + 1 ≤ fuel) :
    Matches c (t.operand ++ .chain t :: gs) gs 1 (leftAssoc t.operator tighter fuel c) := by
  unfold leftAssoc
  apply Matches.bind (htighter c hfuel _)
  intro left d _ hd
  exact matches_chain htighter fuel left d (by omega) (by omega)

theorem matches_comparison (hfuel : c.rest.length + 1 ≤ fuel) :
    Matches c (.signed :: .chain .product :: .chain .sum :: .chain .compare :: gs) gs 1
      (comparison E fuel c) := by
  have hsigned : ∀ c, c.rest.length + 1 ≤ fuel → ∀ gs,
      Matches c (Tier.product.operand ++ gs) gs 1 (signed (operand E fuel) fuel c) :=
    fun c h gs => matches_signed hE fuel c (by omega) h
  have hproduct : ∀ c, c.rest.length + 1 ≤ fuel → ∀ gs, Matches c (Tier.sum.operand ++ gs) gs 1
      (leftAssoc productOp (signed (operand E fuel) fuel) fuel c) :=
    fun c h gs => matches_leftAssoc (t := .product) hsigned h
  have hsum : ∀ c, c.rest.length + 1 ≤ fuel → ∀ gs, Matches c (Tier.compare.operand ++ gs) gs 1
      (leftAssoc sumOp (leftAssoc productOp (signed (operand E fuel) fuel) fuel) fuel c) :=
    fun c h gs => matches_leftAssoc (t := .sum) hproduct h
  exact matches_leftAssoc (t := .compare) hsum hfuel

end

/-- An expression is what the goal of an expression reads. -/
theorem matches_expr : ∀ (fuel : Nat) (c : Cursor), c.rest.length + 2 ≤ fuel →
    ∀ gs, Matches c (.expr :: gs) gs 1 (expr fuel c)
  | 0, c, hfuel, _ => absurd hfuel (Nat.not_succ_le_zero _)
  | fuel + 1, c, hfuel, gs => by
    have hrun : runAt (.expr :: gs) c =
        runAt (.signed :: .chain .product :: .chain .sum :: .chain .compare :: .assigned :: gs) c :=
      runAt_expand .signed [.chain .product, .chain .sum, .chain .compare, .assigned] rfl
        (signedStep_ne_skip _)
    apply Matches.of_eq hrun
    unfold expr
    apply Matches.bind (matches_comparison (matches_expr fuel) (by omega))
    intro target d _ hd
    simp only
    split
    · next hassign =>
      have hkind : d.kind = .symbol .assign := eq_of_beq hassign
      obtain ⟨hrun, hlength⟩ := runAt_shift .assigned [.expr] gs (c := d) (by rw [hkind]; rfl)
      apply Matches.of_advance (d := d.advance) hrun (by omega)
      exact ((matches_expr fuel d.advance (by omega) gs).map fun _ _ => rfl).weaken
    · next hassign =>
      apply Matches.of_eq _ Matches.pure
      have hkind : d.kind ≠ .symbol .assign := fun h => hassign (beq_iff_eq.2 h)
      exact runAt_skip (if_neg hkind)

/-! ## Statements

The parser `S` reads the statements inside others. -/

section
variable {S : Parser Stmt} {E : Parser Expr} {fuel : Nat} {c : Cursor} {gs : List Goal}

theorem goal_ending_step (b : Body) : b.ending.step = b.endingStep := by
  cases b <;> rfl

theorem stop_of_atEnd {b : Body} (h : (c.atEnd || b.stops c.kind) = true) :
    runAt (.body b :: gs) c = runAt (b.ending :: gs) c := by
  apply runAt_step_congr
  rw [goal_ending_step]
  exact if_pos h

section
variable (hS : ∀ c, c.rest.length + 2 ≤ fuel → ∀ gs, Matches c (.stmt :: gs) gs 1 (S c))
include hS

theorem matches_stmtsUntil (b : Body) : ∀ (k : Nat) (c : Cursor), c.rest.length < k →
    c.rest.length + 2 ≤ fuel →
      Matches c (.body b :: gs) (b.ending :: gs) 0 (stmtsUntil S b.stops k c)
  | 0, c, hk, _ => absurd hk (Nat.not_lt_zero _)
  | k + 1, c, hk, hfuel => by
    unfold stmtsUntil
    split
    · next hstop => exact Matches.of_eq (stop_of_atEnd hstop) Matches.pure
    · next hstop =>
      have hrun : runAt (.body b :: gs) c = runAt (.stmt :: .body b :: gs) c :=
        runAt_expand .stmt [.body b] (if_neg hstop) (stmtStep_ne_skip _)
      apply Matches.of_eq hrun
      apply Matches.weaken
      apply Matches.bind (hS c hfuel _)
      intro s d _ hd
      exact (matches_stmtsUntil b k d (by omega) (by omega)).map fun _ _ => rfl

theorem matches_blockUntil (b : Body) {k : Nat} (hk : c.rest.length < k)
    (hfuel : c.rest.length + 2 ≤ fuel) :
    Matches c (.body b :: gs) (b.ending :: gs) 0 (blockUntil S b.stops k c) := by
  unfold blockUntil
  exact (matches_stmtsUntil hS b k c hk hfuel).map fun _ _ => rfl

theorem matches_block {k : Nat} (hk : c.rest.length < k) (hfuel : c.rest.length + 2 ≤ fuel) :
    Matches c (.body .plain :: gs) gs 0 (block S k c) := by
  unfold block
  apply Matches.bind (matches_blockUntil hS .plain hk hfuel)
  intro b d _ _
  exact ((matches_symbol .dot).map fun _ _ => rfl).weaken

theorem matches_functionDecl {k : Nat} (hk : c.rest.length ≤ k) (hfuel : c.rest.length + 1 ≤ fuel) :
    Matches c (.function :: gs) gs 1 (functionDecl S k c) := by
  rw [functionDecl_eq]
  apply Matches.bind (matches_expect [.name, .items .name .colon, .body .plain] rfl)
  intro start c₁ _ h₁
  apply Matches.bind matches_ident.weaken
  intro name c₂ _ h₂
  apply Matches.bind (matches_itemsBefore .name .colon (fun c' _ gs => matches_ident) (by omega))
  intro params c₃ _ h₃
  apply Matches.bind (matches_symbol .colon).weaken
  intro _ c₄ _ h₄
  exact (matches_block hS (by omega) (by omega)).map fun _ _ => rfl

theorem matches_methods : ∀ (k : Nat) (c : Cursor), c.rest.length < k → c.rest.length + 2 ≤ fuel →
    Matches c (.methods :: gs) (.close .dot :: gs) 0 (methods S k c)
  | 0, c, hk, _ => absurd hk (Nat.not_lt_zero _)
  | k + 1, c, hk, hfuel => by
    unfold methods
    split
    · next hstop =>
      apply Matches.of_eq _ Matches.pure
      apply runAt_step_congr
      exact if_pos hstop
    split
    · next hstop hfun =>
      have hkind : c.kind = .keyword .kwFun := eq_of_beq hfun
      have hrun : runAt (.methods :: gs) c = runAt (.function :: .methods :: gs) c := by
        refine runAt_expand .function [.methods] ?_ (functionStep_ne_skip _)
        exact (if_neg hstop).trans (if_pos hkind)
      apply Matches.of_eq hrun
      apply Matches.weaken
      apply Matches.bind (matches_functionDecl hS (by omega) (by omega))
      intro m d _ hd
      exact (matches_methods k d (by omega) (by omega)).map fun _ _ => rfl
    · next hstop hfun =>
      have hkind : c.kind ≠ .keyword .kwFun := fun h => hfun (beq_iff_eq.2 h)
      exact runAt_fail (g := .methods) ((if_neg hstop).trans (if_neg hkind))

theorem matches_classDecl (hk : c.kind = .keyword .kwClass) (hfuel : c.rest.length + 1 ≤ fuel) :
    Matches c (.stmt :: gs) gs 1 (classDecl S fuel c) := by
  unfold classDecl
  apply Matches.bind (matches_keyword hk (by rfl))
  intro start c₁ _ h₁
  apply Matches.bind matches_ident.weaken
  intro name c₂ _ h₂
  apply Matches.bind (matches_symbol .colon).weaken
  intro _ c₃ _ h₃
  apply Matches.bind (matches_methods hS fuel c₃ (by omega) (by omega))
  intro ms c₄ _ _
  exact ((matches_symbol .dot).map fun _ _ => rfl).weaken

theorem matches_elseArm (hfuel : c.rest.length + 1 ≤ fuel) :
    Matches c (.armEnd :: gs) (.close .dot :: gs) 0 (elseArm S fuel c) := by
  unfold elseArm
  split
  · next helse =>
    have hkind : c.kind = .keyword .kwElse := eq_of_beq helse
    obtain ⟨hrun, hlength⟩ := runAt_shift (c := c) .armEnd [.close .colon, .body .plain] gs
      (by rw [hkind]; rfl)
    apply Matches.of_advance (d := c.advance) hrun (by omega)
    apply Matches.bind (matches_symbol .colon).weaken
    intro _ d _ hd
    exact (matches_blockUntil hS .plain (by omega) (by omega)).map fun _ _ => rfl
  · next helse =>
    apply Matches.of_eq _ Matches.pure
    apply runAt_step_congr
    have hkind : c.kind ≠ .keyword .kwElse := fun h => helse (beq_iff_eq.2 h)
    exact if_neg hkind

theorem matches_tryStmt (hk : c.kind = .keyword .kwTry) (hfuel : c.rest.length + 1 ≤ fuel) :
    Matches c (.stmt :: gs) gs 1 (tryStmt S fuel c) := by
  unfold tryStmt
  apply Matches.bind (matches_keyword hk (by rfl))
  intro start c₁ _ h₁
  apply Matches.bind (matches_symbol .colon).weaken
  intro _ c₂ _ h₂
  apply Matches.bind (matches_blockUntil hS .guarded (by omega) (by omega))
  intro body c₃ _ h₃
  apply Matches.bind (matches_expect (g := .handler) [.name, .close .colon, .body .plain] rfl).weaken
  intro _ c₄ _ h₄
  apply Matches.bind matches_ident.weaken
  intro errorVar c₅ _ h₅
  apply Matches.bind (matches_symbol .colon).weaken
  intro _ c₆ _ h₆
  exact (matches_block hS (by omega) (by omega)).map fun _ _ => rfl

variable (hE : ∀ c, c.rest.length + 2 ≤ fuel → ∀ gs, Matches c (.expr :: gs) gs 1 (E c))
include hE

theorem matches_ifStmt (hk : c.kind = .keyword .kwIf) (hfuel : c.rest.length + 1 ≤ fuel) :
    Matches c (.stmt :: gs) gs 1 (ifStmt E S fuel c) := by
  rw [ifStmt_eq]
  apply Matches.bind (matches_keyword hk (by rfl))
  intro start c₁ _ h₁
  apply Matches.bind (hE c₁ (by omega) _).weaken
  intro cond c₂ _ h₂
  apply Matches.bind (matches_symbol .colon).weaken
  intro _ c₃ _ h₃
  apply Matches.bind (matches_blockUntil hS .arm (by omega) (by omega))
  intro thenBlock c₄ _ h₄
  apply Matches.bind (matches_elseArm hS (by omega))
  intro elseBlock c₅ _ _
  exact ((matches_symbol .dot).map fun _ _ => rfl).weaken

theorem matches_whileStmt (hk : c.kind = .keyword .kwWhile) (hfuel : c.rest.length + 1 ≤ fuel) :
    Matches c (.stmt :: gs) gs 1 (whileStmt E S fuel c) := by
  unfold whileStmt
  apply Matches.bind (matches_keyword hk (by rfl))
  intro start c₁ _ h₁
  apply Matches.bind (hE c₁ (by omega) _).weaken
  intro cond c₂ _ h₂
  apply Matches.bind (matches_symbol .colon).weaken
  intro _ c₃ _ h₃
  exact (matches_block hS (by omega) (by omega)).map fun _ _ => rfl

omit hS

theorem matches_returnStmt (hk : c.kind = .keyword .kwReturn) (hfuel : c.rest.length + 1 ≤ fuel) :
    Matches c (.stmt :: gs) gs 1 (returnStmt E c) := by
  unfold returnStmt
  apply Matches.bind (matches_keyword hk (by rfl))
  intro start d _ hd
  simp only
  split
  · next hends =>
    apply Matches.of_eq _ Matches.pure
    exact runAt_skip (if_pos hends)
  · next hends =>
    have hrun : runAt (.result :: gs) d = runAt (.expr :: gs) d := by
      apply runAt_step_congr
      exact if_neg hends
    exact (Matches.of_eq hrun (hE d (by omega) gs)).weaken.map fun _ _ => rfl

/-- A reserved word before an expression. -/
theorem matches_introduced {k : Keyword} {make : Expr → Span → Stmt} (hk : c.kind = .keyword k)
    (hstep : stmtStep (.keyword k) = .shift [.expr]) (hfuel : c.rest.length + 1 ≤ fuel) :
    Matches c (.stmt :: gs) gs 1 (introduced E k make c) := by
  unfold introduced
  apply Matches.bind (matches_keyword (g := .stmt) hk hstep)
  intro start d _ hd
  exact ((hE d (by omega) _).map fun _ _ => rfl).weaken

end

end

/-- A statement is what the goal of a statement reads. -/
theorem matches_stmt : ∀ (fuel : Nat) (c : Cursor), c.rest.length + 2 ≤ fuel →
    ∀ gs, Matches c (.stmt :: gs) gs 1 (stmt fuel c)
  | 0, c, hfuel, _ => absurd hfuel (Nat.not_succ_le_zero _)
  | fuel + 1, c, hfuel, gs => by
    have hS := matches_stmt fuel
    have hE := matches_expr fuel
    have hfuel' : c.rest.length + 1 ≤ fuel := by omega
    unfold stmt
    split
    case h_1 hk => exact matches_classDecl hS hk hfuel'
    case h_2 hk =>
      have hrun : runAt (.stmt :: gs) c = runAt (.function :: gs) c :=
        runAt_step_congr (by rw [hk]; rfl)
      exact ((matches_functionDecl hS (by omega) hfuel').of_eq hrun).map fun _ _ => rfl
    case h_3 hk => exact matches_introduced hE hk rfl hfuel'
    case h_4 hk => exact matches_ifStmt hS hE hk hfuel'
    case h_5 hk => exact matches_whileStmt hS hE hk hfuel'
    case h_6 hk => exact matches_returnStmt hE hk hfuel'
    case h_7 hk => exact matches_introduced hE hk rfl hfuel'
    case h_8 hk => exact matches_tryStmt hS hk hfuel'
    case h_9 hk => exact matches_introduced hE hk rfl hfuel'
    case h_10 hk => exact runAt_fail (g := .stmt) (by rw [hk]; rfl)
    case h_11 hk => exact runAt_fail (g := .stmt) (by rw [hk]; rfl)
    case h_12 =>
      have hstep : stmtStep c.kind = exprStep c.kind := by
        unfold stmtStep
        split
        all_goals first
          | rfl
          | next heq => exact absurd heq (by simp_all)
      have hrun : runAt (.stmt :: gs) c = runAt (.expr :: gs) c := runAt_step_congr hstep
      exact ((matches_expr (fuel + 1) c hfuel gs).of_eq hrun).map fun _ _ => rfl

/-! ## Programs -/

theorem runAt_nil_of_atEnd {c : Cursor} (h : c.atEnd = true) : runAt [] c = .ok () := by
  rw [runAt_eq, next, if_pos (eq_of_beq h)]

/-- The statements of a program are read with the empty stack. -/
theorem matches_statements {S : Parser Stmt} {fuel : Nat}
    (hS : ∀ c, c.rest.length + 2 ≤ fuel → ∀ gs, Matches c (.stmt :: gs) gs 1 (S c)) :
    ∀ (k : Nat) (c : Cursor), c.rest.length < k → c.rest.length + 2 ≤ fuel →
      runAt [] c = (stmtsUntil S (fun _ => false) k c).map fun _ => ()
  | 0, c, hk, _ => absurd hk (Nat.not_lt_zero _)
  | k + 1, c, hk, hfuel => by
    unfold stmtsUntil
    split
    · next hstop =>
      rw [Bool.or_false] at hstop
      exact runAt_nil_of_atEnd hstop
    · next hstop =>
      have hkind : c.kind ≠ .endOfFile := fun h => hstop (by simp [Cursor.atEnd, h])
      have hrun : runAt [] c = runAt [.stmt] c := by
        apply runAt_congr
        rw [next, next, if_neg hkind, show Goal.stmt.step c.kind = stmtStep c.kind from rfl]
        cases hstep : stmtStep c.kind with
        | shift goals => simp only [List.append_nil]
        | skip => exact absurd hstep (stmtStep_ne_skip _)
        | fail cause => rfl
      rw [hrun]
      have hstmt := hS c hfuel []
      cases hs : S c with
      | error e =>
        rw [hs] at hstmt
        exact hstmt
      | ok p =>
        rw [hs] at hstmt
        obtain ⟨hrun', hlength⟩ := hstmt
        rw [hrun', matches_statements hS k p.2 (by omega) (by omega)]
        show _ = Except.map _ ((stmtsUntil S (fun _ => false) k p.2) >>= _)
        cases stmtsUntil S (fun _ => false) k p.2 <;> rfl

/-- Reading a program is running the automaton on its tokens. -/
theorem parse_eq_run (text : String) :
    (parse text).map (fun _ => ()) = runAt [] (Cursor.ofTokens (tokens text)) := by
  let c := Cursor.ofTokens (tokens text)
  have h := matches_statements (matches_stmt (c.rest.length + 2)) (c.rest.length + 2) c (by omega)
    (Nat.le_refl _)
  show (parse text).map (fun _ => ()) = runAt [] c
  rw [h]
  show Except.map _ ((stmtsUntil (stmt (c.rest.length + 2)) (fun _ => false) (c.rest.length + 2) c
    >>= _) >>= _) = _
  cases stmtsUntil (stmt (c.rest.length + 2)) (fun _ => false) (c.rest.length + 2) c <;> rfl

end DotScript.Syntax.Automaton
