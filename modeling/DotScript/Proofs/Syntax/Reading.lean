import DotScript.Proofs.Syntax.Equations
import DotScript.Proofs.Syntax.Words

/-!
# Reading rendered expressions

The parser reads the tokens of a normal expression, with the parentheses that it needs, as that
expression: `reads_words`. What follows must not go on with the expression. At the level of left
associative operators this is said of the loop that goes on behind the expression, so that the
operands of a chain can be read one after the other.
-/

namespace DotScript.Syntax

open DotScript.Text

/-- The kinds of the tokens at a cursor. -/
def Cursor.kinds (c : Cursor) : List TokenKind := c.rest.map Token.kind

namespace Cursor

variable {c : Cursor} {k : TokenKind} {ks : List TokenKind}

theorem kind_of_kinds (h : c.kinds = k :: ks) : c.kind = k := by
  unfold kinds at h
  unfold kind current
  cases hrest : c.rest with
  | nil => simp [hrest] at h
  | cons t ts =>
    rw [hrest, List.map_cons] at h
    exact (List.cons.inj h).1

theorem kinds_advance (h : c.kinds = k :: ks) : c.advance.kinds = ks := by
  unfold kinds at h ⊢
  unfold advance
  cases hrest : c.rest with
  | nil => simp [hrest] at h
  | cons t ts =>
    rw [hrest, List.map_cons] at h
    exact (List.cons.inj h).2

theorem kind_eq_headD : c.kind = c.kinds.headD .endOfFile := by
  unfold kind current kinds
  cases c.rest <;> rfl

end Cursor

namespace Parser

/-- A parser succeeds with a good value, before some tokens. -/
def Gives {α : Type} (ks : List TokenKind) (good : α → Prop) : Except ParseError (α × Cursor) → Prop
  | .ok (v, d) => d.kinds = ks ∧ good v
  | .error _ => False

section
variable {α β : Type} {c : Cursor} {ks vs : List TokenKind} {good : α → Prop} {fine : β → Prop}

namespace Gives

theorem bind {r : Except ParseError (α × Cursor)} {f : α × Cursor → Except ParseError (β × Cursor)}
    (h : Gives vs good r) (hf : ∀ v d, d.kinds = vs → good v → Gives ks fine (f (v, d))) :
    Gives ks fine (r >>= f) := by
  cases r with
  | ok p => exact hf p.1 p.2 h.1 h.2
  | error e => exact h.elim

theorem exists_eq {r : Except ParseError (α × Cursor)} (h : Gives ks good r) :
    ∃ v d, r = .ok (v, d) ∧ d.kinds = ks ∧ good v := by
  cases r with
  | ok p => exact ⟨p.1, p.2, rfl, h⟩
  | error e => exact h.elim

end Gives

theorem gives_expect {k : TokenKind} (h : c.kinds = k :: ks) :
    Gives ks (fun _ => True) (expect k c) := by
  unfold expect
  rw [if_pos (Cursor.kind_of_kinds h)]
  exact ⟨Cursor.kinds_advance h, trivial⟩

theorem gives_ident {name : String} (h : c.kinds = .ident name :: ks) :
    Gives ks (fun id : Ident => id.name = name) (ident c) := by
  unfold ident
  rw [Cursor.kind_of_kinds h]
  exact ⟨Cursor.kinds_advance h, rfl⟩

end

/-- Whether the tokens ahead end an expression of a level. -/
def Ends (l : Nat) (ks : List TokenKind) : Prop :=
  ∀ m, joinLevel (ks.headD .endOfFile) = some m → m < l

theorem Ends.mono {l l' : Nat} {ks : List TokenKind} (h : Ends l ks) (hl : l ≤ l') : Ends l' ks :=
  fun m hm => Nat.lt_of_lt_of_le (h m hm) hl

theorem Ends.joinLevel_ne {c : Cursor} {l m : Nat} {ks : List TokenKind} (h : Ends l ks)
    (hc : c.kinds = ks) (hm : l ≤ m) : joinLevel c.kind ≠ some m := by
  intro heq
  rw [Cursor.kind_eq_headD, hc] at heq
  exact absurd (h m heq) (Nat.not_lt.2 hm)

/-- Tokens of an expression as it is read: whatever ends an expression may follow. -/
def ReadsExpr (ws : List TokenKind) (e : Expr) : Prop :=
  ∀ fuel c ks, c.kinds = ws ++ ks → c.kinds.length + 2 ≤ fuel → Ends 0 ks →
    Gives ks (fun e' => e'.erased = e.erased) (expr fuel c)

/-- Tokens of an operand of a level. -/
def ReadsAt (l : Nat) (ws : List TokenKind) (e : Expr) : Prop :=
  ∀ fuel c ks, c.kinds = ws ++ ks → c.kinds.length < fuel → Ends l ks →
    Gives ks (fun e' => e'.erased = e.erased) (parserAt (expr fuel) fuel l c)

/-- Tokens behind which the loop for the operators of a level goes on. -/
def ReadsTier (l : Nat) (ws : List TokenKind) (e : Expr) : Prop :=
  ∀ fuel c ks, c.kinds = ws ++ ks → c.kinds.length < fuel → Ends (l + 1) ks →
    ∃ k e' d, parserAt (expr fuel) fuel l c =
        chain (operatorAt l) (parserAt (expr fuel) fuel (l + 1)) k e' d ∧
      d.kinds = ks ∧ ks.length < k ∧ e'.erased = e.erased

/-- Tokens before which any number of signs may stand. -/
def ReadsSigned (ws : List TokenKind) (e : Expr) : Prop :=
  ∀ fuel n c ks, c.kinds = ws ++ ks → c.kinds.length < fuel → c.kinds.length < n → Ends 4 ks →
    Gives ks (fun e' => e'.erased = e.erased) (signed (operand (expr fuel) fuel) n c)

/-- Tokens behind which the loop for calls and properties goes on. -/
def ReadsOperand (ws : List TokenKind) (e : Expr) : Prop :=
  ∀ fuel c ks, c.kinds = ws ++ ks → c.kinds.length < fuel →
    ∃ k e' d, operand (expr fuel) fuel c = postfixes (expr fuel) k e' d ∧
      d.kinds = ks ∧ ks.length < k ∧ e'.erased = e.erased

section
variable {ws ks : List TokenKind} {e : Expr} {l m : Nat}

theorem ReadsOperand.full (h : ReadsOperand ws e) : ReadsAt 5 ws e := by
  intro fuel c ks hc hfuel hends
  obtain ⟨k, e', d, heq, hd, hk, hsame⟩ := h fuel c ks hc hfuel
  show Gives ks _ (operand (expr fuel) fuel c)
  obtain ⟨k, rfl⟩ := Nat.exists_eq_succ_of_ne_zero (Nat.ne_zero_of_lt hk)
  have hparen : d.isAt .lParen = false := by
    rw [Cursor.isAt, beq_eq_false_iff_ne]
    intro hkind
    exact hends.joinLevel_ne hd (Nat.le_refl 5) (by rw [hkind]; rfl)
  have hdot : d.isAt .dot = false := by
    rw [Cursor.isAt, beq_eq_false_iff_ne]
    intro hkind
    exact hends.joinLevel_ne hd (Nat.le_refl 5) (by rw [hkind]; rfl)
  rw [heq, postfixes, hparen, hdot]
  exact ⟨hd, hsame⟩

theorem eq_of_unaryOp {k : TokenKind} {op : UnaryOp} (h : unaryOp k = some op) :
    k = .symbol op.symbol := by
  cases k with
  | symbol s =>
    cases s <;> first
      | (obtain rfl := Option.some.inj h; rfl)
      | cases h
  | _ => cases h

theorem primary_of_sign {E : Parser Expr} {fuel : Nat} {c : Cursor} {op : UnaryOp}
    (h : unaryOp c.kind = some op) : primary E fuel c = .error (c.unexpected "expression") := by
  have hkind := eq_of_unaryOp h
  unfold primary
  cases op <;> simp only [hkind, UnaryOp.symbol]

theorem ReadsOperand.signed (h : ReadsOperand ws e) : ReadsSigned ws e := by
  intro fuel n c ks hc hfuel hn hends
  have hgives := h.full fuel c ks hc hfuel (hends.mono (by decide))
  obtain ⟨n, rfl⟩ := Nat.exists_eq_succ_of_ne_zero (Nat.ne_zero_of_lt hn)
  cases hop : unaryOp c.kind with
  | none =>
    rw [Parser.signed, hop]
    exact hgives
  | some op =>
    -- An operand does not begin with a sign.
    have herror : operand (expr fuel) fuel c = .error (c.unexpected "expression") := by
      rw [operand, primary_of_sign hop]
      rfl
    rw [show parserAt (expr fuel) fuel 5 c = _ from herror] at hgives
    exact hgives.elim

theorem ReadsSigned.full (h : ReadsSigned ws e) : ReadsAt 4 ws e :=
  fun fuel c ks hc hfuel hends => h fuel fuel c ks hc hfuel hfuel hends

theorem ReadsTier.full (h : ReadsTier l ws e) : ReadsAt l ws e := by
  intro fuel c ks hc hfuel hends
  obtain ⟨k, e', d, heq, hd, hk, hsame⟩ := h fuel c ks hc hfuel (hends.mono (Nat.le_succ l))
  obtain ⟨k, rfl⟩ := Nat.exists_eq_succ_of_ne_zero (Nat.ne_zero_of_lt hk)
  rw [heq, chain, operatorAt_of_joinLevel_ne (hends.joinLevel_ne hd (Nat.le_refl l))]
  exact ⟨hd, hsame⟩

/-- An operand of a level is a chain of one operand of the next looser level. -/
theorem ReadsAt.tier (hl : IsTier l) (h : ReadsAt (l + 1) ws e) : ReadsTier l ws e := by
  intro fuel c ks hc hfuel hends
  obtain ⟨e', d, heq, hd, hsame⟩ := (h fuel c ks hc hfuel hends).exists_eq
  refine ⟨fuel, e', d, ?_, hd, ?_, hsame⟩
  · rw [parserAt_eq hl, leftAssoc, heq]
    rfl
  · rw [hc, List.length_append] at hfuel
    omega

theorem ReadsAt.expr (h : ReadsAt 1 ws e) : ReadsExpr ws e := by
  intro fuel c ks hc hfuel hends
  obtain ⟨fuel, rfl⟩ := Nat.exists_eq_succ_of_ne_zero (show fuel ≠ 0 by omega)
  obtain ⟨e', d, heq, hd, hsame⟩ :=
    (h fuel c ks hc (by omega) (hends.mono (by decide))).exists_eq
  have hassign : d.isAt .assign = false := by
    rw [Cursor.isAt, beq_eq_false_iff_ne]
    intro hkind
    exact hends.joinLevel_ne hd (Nat.le_refl 0) (by rw [hkind]; rfl)
  rw [Parser.expr, show comparison (Parser.expr fuel) fuel c = _ from heq]
  show Gives ks _ (if d.isAt .assign then _ else _)
  rw [hassign]
  exact ⟨hd, hsame⟩

/-- Tokens that are read as an expression wherever one of the level may stand. -/
structure Reads (l : Nat) (ws : List TokenKind) (e : Expr) : Prop where
  expr : ReadsExpr ws e
  tier : ∀ m, IsTier m → m ≤ l → ReadsTier m ws e
  signed : 4 ≤ l → ReadsSigned ws e
  operand : 5 ≤ l → ReadsOperand ws e

namespace Reads

theorem mono (h : Reads l ws e) (hm : m ≤ l) : Reads m ws e :=
  ⟨h.expr, fun n hn hnm => h.tier n hn (Nat.le_trans hnm hm), fun h4 => h.signed (Nat.le_trans h4 hm),
    fun h5 => h.operand (Nat.le_trans h5 hm)⟩

theorem of_expr (h : ReadsExpr ws e) : Reads 0 ws e :=
  ⟨h, fun n hn hn0 => absurd (Nat.le_trans hn.1 hn0) (by decide), fun h => absurd h (by decide),
    fun h => absurd h (by decide)⟩

theorem of_tier (hl : IsTier l) (h : ReadsTier l ws e) : Reads l ws e := by
  have hbelow : ∀ n, n < l → IsTier (l - n) → ReadsTier (l - n) ws e := by
    intro n
    induction n with
    | zero => exact fun _ _ => h
    | succ n ih =>
      intro hn htier
      have htier' : IsTier (l - n) := ⟨by omega, by have := hl.2; omega⟩
      have hnext := (ih (by omega) htier').full
      rw [show l - n = l - (n + 1) + 1 by omega] at hnext
      exact hnext.tier htier
  have htiers : ∀ m, IsTier m → m ≤ l → ReadsTier m ws e := by
    intro m hm hml
    have hmem := hbelow (l - m) (by have := hm.1; omega)
    rw [show l - (l - m) = m by omega] at hmem
    exact hmem hm
  refine ⟨((htiers 1 (by decide) hl.1).full).expr, htiers, ?_, ?_⟩
  · intro h4
    exact absurd (Nat.le_trans h4 hl.2) (by decide)
  · intro h5
    exact absurd (Nat.le_trans h5 hl.2) (by decide)

theorem of_signed (h : ReadsSigned ws e) : Reads 4 ws e := by
  have h3 : Reads 3 ws e := of_tier (by decide) (h.full.tier (by decide))
  exact ⟨h3.expr, fun n hn _ => h3.tier n hn hn.2, fun _ => h, fun h5 => absurd h5 (by decide)⟩

theorem of_operand (h : ReadsOperand ws e) : Reads 5 ws e := by
  have h4 : Reads 4 ws e := of_signed h.signed
  exact ⟨h4.expr, fun n hn _ => h4.tier n hn (Nat.le_trans hn.2 (by decide)), fun _ => h.signed,
    fun _ => h⟩

theorem full (h : Reads l ws e) (hm : 1 ≤ m) (hml : m ≤ l) (hm5 : m ≤ 5) : ReadsAt m ws e := by
  by_cases h3 : m ≤ 3
  · exact (h.tier m ⟨hm, h3⟩ hml).full
  by_cases h4 : m = 4
  · subst h4
    exact (h.signed hml).full
  · obtain rfl : m = 5 := by omega
    exact (h.operand hml).full

end Reads

end

/-! ## Items -/

section
variable {α β : Type} {item : Parser α} {words : β → List TokenKind} {good : β → α → Prop} {n : Nat}
  {close : Symbol}

/-- The tokens behind an item: a comma, or what closes the items. -/
def EndsItem (close : Symbol) (ks : List TokenKind) : Prop :=
  ks.head? = some (.symbol .comma) ∨ ks.head? = some (.symbol close)

theorem gives_commaSeparated (hclose : close ≠ .comma) : ∀ (xs : List β) (x : β),
    (∀ y ∈ x :: xs, ∀ c ks, c.kinds = words y ++ ks → c.kinds.length ≤ n → EndsItem close ks →
      Gives ks (good y) (item c)) →
    ∀ fuel c ks, c.kinds = joined words (x :: xs) ++ .symbol close :: ks → c.kinds.length ≤ n →
      c.kinds.length < fuel →
      Gives (.symbol close :: ks) (List.Forall₂ good (x :: xs)) (commaSeparated item fuel c)
  | _, _, _, 0, _, _, _, _, hfuel => absurd hfuel (Nat.not_lt_zero _)
  | [], x, hitem, fuel + 1, c, ks, hc, hn, _ => by
    rw [joined, List.flatMap_nil, List.append_nil] at hc
    unfold commaSeparated
    apply Gives.bind (hitem x List.mem_cons_self c _ hc hn (.inr rfl))
    intro v d hd hv
    have hcomma : d.isAt .comma = false := by
      rw [Cursor.isAt, Cursor.kind_of_kinds hd, beq_eq_false_iff_ne]
      exact fun h => hclose (TokenKind.symbol.inj h)
    simp only [hcomma]
    exact ⟨hd, .cons hv .nil⟩
  | y :: ys, x, hitem, fuel + 1, c, ks, hc, hn, hfuel => by
    rw [joined, List.flatMap_cons, List.append_assoc, List.cons_append, List.cons_append] at hc
    unfold commaSeparated
    apply Gives.bind (hitem x List.mem_cons_self c _ hc hn (.inl rfl))
    intro v d hd hv
    have hcomma : d.isAt .comma = true := by
      rw [Cursor.isAt, Cursor.kind_of_kinds hd]
      rfl
    have hd' := Cursor.kinds_advance hd
    have hlength := congrArg List.length hc
    have hlength' := congrArg List.length hd'
    simp only [List.length_append, List.length_cons] at hlength hlength'
    have hrest := gives_commaSeparated hclose ys y
      (fun z hz => hitem z (List.mem_cons_of_mem _ hz)) fuel d.advance ks hd' (by omega) (by omega)
    simp only [hcomma, if_true]
    apply Gives.bind hrest
    intro vs d' hd' hvs
    exact ⟨hd', .cons hv hvs⟩

theorem gives_itemsBefore (hclose : close ≠ .comma) {xs : List β}
    (hitem : ∀ y ∈ xs, ∀ c ks, c.kinds = words y ++ ks → c.kinds.length ≤ n → EndsItem close ks →
      Gives ks (good y) (item c))
    (hhead : ∀ y ∈ xs, ∃ k ks, words y = k :: ks ∧ k ≠ .symbol close) {fuel : Nat} {c : Cursor}
    {ks : List TokenKind} (hc : c.kinds = joined words xs ++ .symbol close :: ks)
    (hn : c.kinds.length ≤ n) (hfuel : c.kinds.length < fuel) :
    Gives (.symbol close :: ks) (List.Forall₂ good xs) (itemsBefore item close fuel c) := by
  unfold itemsBefore
  cases xs with
  | nil =>
    rw [Cursor.isAt, Cursor.kind_of_kinds hc, beq_self_eq_true]
    exact ⟨hc, .nil⟩
  | cons x xs =>
    obtain ⟨k, ws, hx, hk⟩ := hhead x List.mem_cons_self
    have hat : c.isAt close = false := by
      have hc' := hc
      rw [joined, hx, List.cons_append, List.cons_append] at hc'
      rw [Cursor.isAt, Cursor.kind_of_kinds hc', beq_eq_false_iff_ne]
      exact hk
    rw [hat]
    exact gives_commaSeparated hclose xs x hitem fuel c ks hc hn hfuel

theorem gives_listUntil (hclose : close ≠ .comma) {xs : List β}
    (hitem : ∀ y ∈ xs, ∀ c ks, c.kinds = words y ++ ks → c.kinds.length ≤ n → EndsItem close ks →
      Gives ks (good y) (item c))
    (hhead : ∀ y ∈ xs, ∃ k ks, words y = k :: ks ∧ k ≠ .symbol close) {fuel : Nat} {c : Cursor}
    {ks : List TokenKind} (hc : c.kinds = joined words xs ++ .symbol close :: ks)
    (hn : c.kinds.length ≤ n) (hfuel : c.kinds.length < fuel) :
    Gives ks (fun p => List.Forall₂ good xs p.1) (listUntil item close fuel c) := by
  rw [listUntil_eq]
  apply Gives.bind (gives_itemsBefore hclose hitem hhead hc hn hfuel)
  intro vs d hd hvs
  apply Gives.bind (gives_expect hd)
  intro stop d' hd' _
  exact ⟨hd', hvs⟩

theorem map_eq_of_forall₂ {γ : Type} {f : α → γ} {g : β → γ} {xs : List β} {vs : List α}
    (h : List.Forall₂ (fun x v => f v = g x) xs vs) : vs.map f = xs.map g := by
  induction h with
  | nil => rfl
  | cons hv _ ih => rw [List.map_cons, List.map_cons, hv, ih]

end

/-! ## The constructs -/

section
variable {ws vs : List TokenKind} {e : Expr}

theorem ends_of_joinLevel_none {l : Nat} {k : TokenKind} {ks : List TokenKind}
    (h : joinLevel k = none) : Ends l (k :: ks) := by
  intro m hm
  rw [List.headD_cons, h] at hm
  cases hm

theorem EndsItem.ends {close : Symbol} (hclose : joinLevel (.symbol close) = none)
    {ks : List TokenKind} (h : EndsItem close ks) : Ends 0 ks := by
  cases ks with
  | nil => rcases h with h | h <;> cases h
  | cons k ks =>
    rcases h with h | h
    · obtain rfl := Option.some.inj h
      exact ends_of_joinLevel_none rfl
    · obtain rfl := Option.some.inj h
      exact ends_of_joinLevel_none hclose

theorem ne_symbol_of_beginsExpr {k : TokenKind} {s : Symbol} (h : beginsExpr k = true)
    (hs : beginsExpr (.symbol s) = false) : k ≠ .symbol s := by
  rintro rfl
  exact absurd (h.symm.trans hs) (by decide)

theorem readsOperand_of_primary
    (h : ∀ fuel c ks, c.kinds = ws ++ ks → c.kinds.length < fuel →
      Gives ks (fun e' => e'.erased = e.erased) (primary (expr fuel) fuel c)) :
    ReadsOperand ws e := by
  intro fuel c ks hc hfuel
  obtain ⟨e', d, heq, hd, hsame⟩ := (h fuel c ks hc hfuel).exists_eq
  refine ⟨fuel, e', d, ?_, hd, ?_, hsame⟩
  · rw [operand, heq]
    rfl
  · rw [hc, List.length_append] at hfuel
    omega

/-- A token that is an expression. -/
theorem readsOperand_token {k : TokenKind}
    (h : ∀ (E : Parser Expr) fuel c, c.kind = k →
      ∃ e', primary E fuel c = .ok (e', c.advance) ∧ e'.erased = e.erased) :
    ReadsOperand [k] e := by
  apply readsOperand_of_primary
  intro fuel c ks hc _
  obtain ⟨e', heq, hsame⟩ := h (expr fuel) fuel c (Cursor.kind_of_kinds hc)
  rw [heq]
  exact ⟨Cursor.kinds_advance hc, hsame⟩

theorem readsOperand_parens (h : ReadsExpr ws e) :
    ReadsOperand (.symbol .lParen :: ws ++ [.symbol .rParen]) e := by
  apply readsOperand_of_primary
  intro fuel c ks hc hfuel
  rw [List.cons_append, List.cons_append, List.append_assoc] at hc
  have hc' := Cursor.kinds_advance hc
  have hlength := congrArg List.length hc
  have hlength' := congrArg List.length hc'
  simp only [List.length_append, List.length_cons] at hlength hlength'
  unfold primary
  simp only [Cursor.kind_of_kinds hc]
  apply Gives.bind (h fuel c.advance _ hc' (by omega) (ends_of_joinLevel_none rfl))
  intro e' d hd hsame
  apply Gives.bind (gives_expect hd)
  intro _ d' hd' _
  exact ⟨hd', hsame⟩

theorem Reads.parenthesised {l : Nat} (h : Reads e.level ws e) (hl : l ≤ 5) :
    Reads l (parenthesised (true && decide (e.level < l)) ws) e := by
  rw [Bool.true_and]
  unfold Syntax.parenthesised
  split
  · exact (Reads.of_operand (readsOperand_parens h.expr)).mono hl
  · next hlevel =>
    rw [decide_eq_true_eq, Nat.not_lt] at hlevel
    exact h.mono hlevel

theorem readsOperand_get {name : Ident} {span : Span} (h : ReadsOperand ws e) :
    ReadsOperand (ws ++ [.symbol .dot, .ident name.name]) (.get e name span) := by
  intro fuel c ks hc hfuel
  rw [List.append_assoc] at hc
  obtain ⟨k, e', d, heq, hd, hk, hsame⟩ := h fuel c _ hc hfuel
  obtain ⟨k, rfl⟩ := Nat.exists_eq_succ_of_ne_zero (Nat.ne_zero_of_lt hk)
  have hrest : d.advance.kinds = .ident name.name :: ks := Cursor.kinds_advance hd
  obtain ⟨id, d', hident, hd', hid⟩ := (gives_ident hrest).exists_eq
  refine ⟨k, .get e' id (e'.span.cover id.span), d', ?_, hd', ?_, ?_⟩
  · have hkind := Cursor.kind_of_kinds hd
    rw [heq, postfixes, Cursor.isAt, Cursor.isAt, hkind, hident]
    rfl
  · simp only [List.cons_append, List.nil_append, List.length_cons] at hk
    omega
  · rw [Expr.erased, Expr.erased, hsame, Ident.erased, Ident.erased, hid]

/-- Expressions that are read one by one are read with commas between them. -/
theorem gives_exprs {close : Symbol} (hclose : close = .rParen ∨ close = .rBracket) {es : List Expr}
    (hes : ∀ e ∈ es, ReadsExpr (e.words true) e ∧ BeginsExpr (e.words true)) {fuel k : Nat}
    {c : Cursor} {ks : List TokenKind} (hc : c.kinds = exprsWords true es ++ .symbol close :: ks)
    (hfuel : c.kinds.length + 2 ≤ fuel) (hk : c.kinds.length < k) :
    Gives ks (fun p => exprsErased p.1 = exprsErased es) (listUntil (expr fuel) close k c) := by
  have hclose' : close ≠ .comma ∧ joinLevel (.symbol close) = none ∧
      beginsExpr (.symbol close) = false := by
    rcases hclose with rfl | rfl <;> decide
  rw [exprsWords_eq] at hc
  have hlist : Gives ks (fun p => List.Forall₂ (fun e v => v.erased = e.erased) es p.1)
      (listUntil (expr fuel) close k c) := by
    refine gives_listUntil hclose'.1 ?_ ?_ hc (Nat.le_refl _) hk
    · intro e he c' ks' hc' hn hends
      exact (hes e he).1 fuel c' ks' hc' (by omega) (hends.ends hclose'.2.1)
    · intro e he
      obtain ⟨k', ks', hwords, hk'⟩ := (hes e he).2
      exact ⟨k', ks', hwords, ne_symbol_of_beginsExpr hk' hclose'.2.2⟩
  obtain ⟨p, d, heq, hd, hp⟩ := hlist.exists_eq
  rw [heq]
  refine ⟨hd, ?_⟩
  show exprsErased p.1 = exprsErased es
  rw [exprsErased_eq, exprsErased_eq, map_eq_of_forall₂ hp]

theorem readsOperand_call {args : List Expr} {span : Span} (h : ReadsOperand ws e)
    (hargs : ∀ a ∈ args, ReadsExpr (a.words true) a ∧ BeginsExpr (a.words true)) :
    ReadsOperand (ws ++ parenthesised true (exprsWords true args)) (.call e args span) := by
  intro fuel c ks hc hfuel
  rw [List.append_assoc] at hc
  obtain ⟨k, e', d, heq, hd, hk, hsame⟩ := h fuel c _ hc hfuel
  obtain ⟨k, rfl⟩ := Nat.exists_eq_succ_of_ne_zero (Nat.ne_zero_of_lt hk)
  have hlength := congrArg List.length hc
  simp only [parenthesised, if_true, List.cons_append, List.append_assoc, List.nil_append,
    List.length_append, List.length_cons] at hd hk hlength
  have hd' := Cursor.kinds_advance hd
  have hlength' := congrArg List.length hd'
  simp only [List.length_append, List.length_cons] at hlength'
  obtain ⟨p, d', hlist, hd'', hp⟩ := (gives_exprs (k := k) (.inl rfl) hargs hd'
    (show d.advance.kinds.length + 2 ≤ fuel by omega) (by omega)).exists_eq
  refine ⟨k, .call e' p.1 (e'.span.cover p.2), d', ?_, hd'', by omega, ?_⟩
  · have hkind := Cursor.kind_of_kinds hd
    rw [heq, postfixes, Cursor.isAt, hkind]
    show (listUntil (expr fuel) .rParen k d.advance >>= _) = _
    rw [hlist]
    rfl
  · rw [Expr.erased, Expr.erased, hsame, hp]

theorem readsOperand_list {elems : List Expr} {span : Span}
    (helems : ∀ x ∈ elems, ReadsExpr (x.words true) x ∧ BeginsExpr (x.words true)) :
    ReadsOperand (.symbol .lBracket :: exprsWords true elems ++ [.symbol .rBracket])
      (.list elems span) := by
  apply readsOperand_of_primary
  intro fuel c ks hc hfuel
  rw [List.cons_append, List.cons_append, List.append_assoc] at hc
  have hc' := Cursor.kinds_advance hc
  have hlength := congrArg List.length hc
  have hlength' := congrArg List.length hc'
  simp only [List.length_append, List.length_cons] at hlength hlength'
  unfold primary
  simp only [Cursor.kind_of_kinds hc]
  apply Gives.bind (gives_exprs (.inr rfl) helems hc' (by omega) (by omega))
  intro p d hd hp
  exact ⟨hd, by simp only [Expr.erased, hp]⟩

/-- The tokens of a key are not taken for a bare name. -/
theorem gives_mapKey {key : Expr} {fuel : Nat} {c : Cursor} {ks : List TokenKind}
    (hkey : ReadsExpr (key.words true) key)
    (hc : c.kinds = parenthesised (true && key.isVar) (key.words true) ++ .symbol .colon :: ks)
    (hfuel : c.kinds.length + 2 ≤ fuel) :
    Gives (.symbol .colon :: ks) (fun key' => key'.erased = key.erased)
      (mapKey (expr fuel) c) := by
  have hparens : Reads 0 (parenthesised (true && key.isVar) (key.words true)) key := by
    unfold parenthesised
    split
    · exact (Reads.of_operand (readsOperand_parens hkey)).mono (by decide)
    · exact Reads.of_expr hkey
  have hbare : NoBareName (parenthesised (true && key.isVar) (key.words true)) := by
    rcases key.noBareName_words with h | ⟨name, -, hvar⟩
    · unfold parenthesised
      split
      · exact noBareName_cons fun _ => TokenKind.noConfusion
      · exact h
    · rw [hvar]
      exact noBareName_cons fun _ => TokenKind.noConfusion
  have hgives := hparens.expr fuel c _ hc hfuel (ends_of_joinLevel_none rfl)
  unfold mapKey
  split
  · next name hname =>
    have hcolon : c.advance.isAt .colon = false := by
      cases hws : parenthesised (true && key.isVar) (key.words true) with
      | nil =>
        rw [hws] at hc
        rw [Cursor.kind_of_kinds hc] at hname
        cases hname
      | cons k rest =>
        rw [hws, List.cons_append] at hc
        obtain rfl : k = .ident name := (Cursor.kind_of_kinds hc).symm.trans hname
        obtain ⟨k', ks', rfl, hk'⟩ := hbare name rest hws
        rw [Cursor.isAt, Cursor.kind_of_kinds (Cursor.kinds_advance hc), beq_eq_false_iff_ne]
        exact hk'
    rw [hcolon]
    exact hgives
  · exact hgives

theorem gives_mapEntry {entry : Expr × Expr} {fuel : Nat} {c : Cursor} {ks : List TokenKind}
    (hkey : ReadsExpr (entry.1.words true) entry.1)
    (hvalue : ReadsExpr (entry.2.words true) entry.2)
    (hc : c.kinds = entryWords true entry ++ ks) (hfuel : c.kinds.length + 2 ≤ fuel)
    (hends : Ends 0 ks) :
    Gives ks (fun v => (v.1.erased, v.2.erased) = (entry.1.erased, entry.2.erased))
      (mapEntry (expr fuel) c) := by
  rw [entryWords, List.append_assoc, List.cons_append] at hc
  have hlength := congrArg List.length hc
  simp only [List.length_append, List.length_cons] at hlength
  unfold mapEntry
  apply Gives.bind (gives_mapKey hkey hc hfuel)
  intro key' d₁ hd₁ hkey'
  apply Gives.bind (gives_expect hd₁)
  intro _ d₂ hd₂ _
  have hlength₂ := congrArg List.length hd₂
  simp only [List.length_append] at hlength₂
  apply Gives.bind (hvalue fuel d₂ ks hd₂ (by omega) hends)
  intro value' d₃ hd₃ hvalue'
  exact ⟨hd₃, Prod.ext hkey' hvalue'⟩

theorem readsOperand_map {entries : List (Expr × Expr)} {span : Span}
    (hentries : ∀ x ∈ entries, (ReadsExpr (x.1.words true) x.1 ∧ BeginsExpr (x.1.words true)) ∧
      ReadsExpr (x.2.words true) x.2) :
    ReadsOperand (.symbol .lBrace :: entriesWords true entries ++ [.symbol .rBrace])
      (.map entries span) := by
  apply readsOperand_of_primary
  intro fuel c ks hc hfuel
  rw [List.cons_append, List.cons_append, List.append_assoc] at hc
  have hc' := Cursor.kinds_advance hc
  have hlength := congrArg List.length hc
  have hlength' := congrArg List.length hc'
  simp only [List.length_append, List.length_cons] at hlength hlength'
  rw [entriesWords_eq] at hc'
  have hlist : Gives ks (fun p => List.Forall₂
      (fun x v => (v.1.erased, v.2.erased) = (x.1.erased, x.2.erased)) entries p.1)
      (listUntil (mapEntry (expr fuel)) .rBrace fuel c.advance) := by
    refine gives_listUntil (by decide) ?_ ?_ hc' (Nat.le_refl _) (by omega)
    · intro x hx d ks' hd hn hends
      exact gives_mapEntry (hentries x hx).1.1 (hentries x hx).2 hd (by omega) (hends.ends rfl)
    · intro x hx
      obtain ⟨k, ws', hwords, hk⟩ := ((hentries x hx).1.2.parenthesised (true && x.1.isVar)).append
        (.symbol .colon :: x.2.words true)
      exact ⟨k, ws', hwords, ne_symbol_of_beginsExpr hk rfl⟩
  unfold primary
  simp only [Cursor.kind_of_kinds hc]
  apply Gives.bind hlist
  intro p d hd hp
  refine ⟨hd, ?_⟩
  simp only [Expr.erased, entriesErased_eq, map_eq_of_forall₂ hp]

theorem readsSigned_unary {op : UnaryOp} {span : Span} (h : ReadsSigned ws e) :
    ReadsSigned (.symbol op.symbol :: ws) (.unary op e span) := by
  intro fuel n c ks hc hfuel hn hends
  obtain ⟨n, rfl⟩ := Nat.exists_eq_succ_of_ne_zero (Nat.ne_zero_of_lt hn)
  rw [List.cons_append] at hc
  have hc' := Cursor.kinds_advance hc
  have hlength := congrArg List.length hc
  have hlength' := congrArg List.length hc'
  simp only [List.length_append, List.length_cons] at hlength hlength'
  have hop : unaryOp c.kind = some op := by
    rw [Cursor.kind_of_kinds hc]
    cases op <;> rfl
  rw [Parser.signed, hop]
  apply Gives.bind (h fuel n c.advance ks hc' (by omega) (by omega) hends)
  intro e' d hd hsame
  exact ⟨hd, by simp only [Expr.erased, hsame]⟩

theorem isTier_level (op : BinaryOp) : IsTier op.level := by
  cases op <;> decide

theorem readsTier_binary {op : BinaryOp} {left right : Expr} {span : Span}
    (hleft : ReadsTier op.level ws left) (hright : ReadsAt (op.level + 1) vs right) :
    ReadsTier op.level (ws ++ .symbol op.symbol :: vs) (.binary op left right span) := by
  intro fuel c ks hc hfuel hends
  rw [List.append_assoc, List.cons_append] at hc
  have hop : operatorAt op.level (.symbol op.symbol) = some op := by cases op <;> rfl
  have hends' : Ends (op.level + 1) (.symbol op.symbol :: (vs ++ ks)) := by
    intro m hm
    have hlevel : joinLevel (.symbol op.symbol) = some op.level := by cases op <;> rfl
    rw [List.headD_cons, hlevel] at hm
    exact Option.some.inj hm ▸ Nat.lt_succ_self _
  obtain ⟨k, l', d, heq, hd, hk, hsame⟩ := hleft fuel c _ hc hfuel hends'
  obtain ⟨k, rfl⟩ := Nat.exists_eq_succ_of_ne_zero (Nat.ne_zero_of_lt hk)
  have hd' := Cursor.kinds_advance hd
  have hlength := congrArg List.length hc
  have hlength' := congrArg List.length hd'
  simp only [List.length_append, List.length_cons] at hlength hlength' hk
  obtain ⟨r', d', hr, hd'', hsame'⟩ := (hright fuel d.advance ks hd' (by omega) hends).exists_eq
  refine ⟨k, .binary op l' r' (l'.span.cover r'.span), d', ?_, hd'', by omega, ?_⟩
  · rw [heq, chain, Cursor.kind_of_kinds hd, hop]
    simp only [hr]
    rfl
  · rw [Expr.erased, Expr.erased, hsame, hsame']

theorem erased_assignTo {target target' value value' : Expr} (ht : target'.erased = target.erased)
    (hv : value'.erased = value.erased) :
    (target'.assignTo value').erased = (target.assignTo value).erased := by
  cases target <;> cases target' <;>
    simp_all [Expr.assignTo, Expr.erased]

theorem readsExpr_assignTo {target value : Expr} (htarget : ReadsAt 1 ws target)
    (hvalue : ReadsExpr vs value) :
    ReadsExpr (ws ++ .symbol .assign :: vs) (target.assignTo value) := by
  intro fuel c ks hc hfuel hends
  obtain ⟨fuel, rfl⟩ := Nat.exists_eq_succ_of_ne_zero (show fuel ≠ 0 by omega)
  rw [List.append_assoc, List.cons_append] at hc
  have hends' : Ends 1 (.symbol .assign :: (vs ++ ks)) := fun m hm =>
    Option.some.inj hm ▸ Nat.zero_lt_one
  obtain ⟨t', d, heq, hd, ht⟩ := (htarget fuel c _ hc (by omega) hends').exists_eq
  have hd' := Cursor.kinds_advance hd
  have hlength := congrArg List.length hc
  have hlength' := congrArg List.length hd'
  simp only [List.length_append, List.length_cons] at hlength hlength'
  obtain ⟨v', d', hv, hd'', hv'⟩ := (hvalue fuel d.advance ks hd' (by omega) hends).exists_eq
  have hassign : d.isAt .assign = true := by
    rw [Cursor.isAt, Cursor.kind_of_kinds hd]
    rfl
  rw [Parser.expr, show comparison (Parser.expr fuel) fuel c = _ from heq]
  show Gives ks _ (if d.isAt .assign then _ else _)
  rw [hassign, if_pos rfl, hv]
  exact ⟨hd'', erased_assignTo ht hv'⟩

end

/-! ## Expressions -/

mutual

/-- The parser reads the tokens of a normal expression as the expression. -/
theorem reads_words : (e : Expr) → e.normal = true → Reads e.level (e.words true) e
  | .var id, _ => .of_operand <| readsOperand_token fun E fuel c hk =>
      ⟨.var ⟨id.name, c.span⟩, by unfold primary; simp only [hk], rfl⟩
  | .null _, _ => .of_operand <| readsOperand_token fun E fuel c hk =>
      ⟨.null c.span, by unfold primary; simp only [hk], rfl⟩
  | .number n _, _ => .of_operand <| readsOperand_token fun E fuel c hk =>
      ⟨.number n c.span, by unfold primary; simp only [hk], rfl⟩
  | .str s _, _ => .of_operand <| readsOperand_token fun E fuel c hk =>
      ⟨.str s c.span, by unfold primary; simp only [hk], rfl⟩
  | .self _, _ => .of_operand <| readsOperand_token fun E fuel c hk =>
      ⟨.self c.span, by unfold primary; simp only [hk], rfl⟩
  | .bool b _, _ => .of_operand <| readsOperand_token fun E fuel c hk =>
      ⟨.bool b c.span, by unfold primary; cases b <;> simp only [hk] <;> rfl, rfl⟩
  | .assign target value span, h => by
    simp only [Expr.normal, Bool.and_eq_true, Bool.not_eq_true'] at h
    have htarget := (reads_words target h.1.2).parenthesised (show 1 ≤ 5 by decide)
    have hassign := readsExpr_assignTo (htarget.full (Nat.le_refl 1) (Nat.le_refl 1) (by decide))
      (reads_words value h.2).expr
    have herased : (target.assignTo value).erased = (Expr.assign target value span).erased := by
      cases target <;> first | rfl | exact Bool.noConfusion h.1.1
    exact .of_expr fun fuel c ks hc hfuel hends => herased ▸ hassign fuel c ks hc hfuel hends
  | .set object name value span, h => by
    simp only [Expr.normal, Bool.and_eq_true] at h
    have hobject := (reads_words object h.1.1).parenthesised (Nat.le_refl 5)
    have hget : ReadsOperand _ (.get object name span) :=
      readsOperand_get (hobject.operand (Nat.le_refl 5))
    have hset := readsExpr_assignTo
      ((Reads.of_operand hget).full (Nat.le_refl 1) (by decide) (by decide))
      (reads_words value h.2).expr
    rw [List.append_assoc] at hset
    exact .of_expr hset
  | .get object name span, h => by
    simp only [Expr.normal, Bool.and_eq_true] at h
    have hobject := (reads_words object h.1).parenthesised (Nat.le_refl 5)
    exact .of_operand (readsOperand_get (hobject.operand (Nat.le_refl 5)))
  | .binary op left right span, h => by
    simp only [Expr.normal, Bool.and_eq_true] at h
    have htier := isTier_level op
    have hle : op.level ≤ 5 := Nat.le_trans htier.2 (by decide)
    have hleft := (reads_words left h.1).parenthesised hle
    have hright := (reads_words right h.2).parenthesised
      (show op.level + 1 ≤ 5 by have := htier.2; omega)
    simp only [Nat.lt_succ_iff] at hright
    exact .of_tier htier (readsTier_binary (hleft.tier op.level htier (Nat.le_refl _))
      (hright.full (Nat.le_add_left _ _) (Nat.le_refl _) (by have := htier.2; omega)))
  | .unary op operand span, h => by
    have hoperand := (reads_words operand h).parenthesised (show 4 ≤ 5 by decide)
    exact .of_signed (readsSigned_unary (hoperand.signed (Nat.le_refl 4)))
  | .call callee args span, h => by
    simp only [Expr.normal, Bool.and_eq_true] at h
    have hcallee := (reads_words callee h.1).parenthesised (Nat.le_refl 5)
    exact .of_operand (readsOperand_call (hcallee.operand (Nat.le_refl 5))
      (reads_exprsWords args h.2))
  | .list elems span, h => .of_operand (readsOperand_list (reads_exprsWords elems h))
  | .map entries span, h => .of_operand (readsOperand_map (reads_entriesWords entries h))
  | .spawn _ _, h => absurd h Bool.false_ne_true

theorem reads_exprsWords : (es : List Expr) → exprsNormal es = true →
    ∀ e ∈ es, ReadsExpr (e.words true) e ∧ BeginsExpr (e.words true)
  | [], _, _, he => absurd he List.not_mem_nil
  | x :: xs, h, e, he => by
    simp only [exprsNormal, Bool.and_eq_true] at h
    rcases List.mem_cons.1 he with heq | he
    · rw [heq]
      exact ⟨(reads_words x h.1).expr, x.beginsExpr_words true h.1⟩
    · exact reads_exprsWords xs h.2 e he

theorem reads_entriesWords : (es : List (Expr × Expr)) → entriesNormal es = true →
    ∀ x ∈ es, (ReadsExpr (x.1.words true) x.1 ∧ BeginsExpr (x.1.words true)) ∧
      ReadsExpr (x.2.words true) x.2
  | [], _, _, hx => absurd hx List.not_mem_nil
  | (key, value) :: es, h, x, hx => by
    simp only [entriesNormal, Bool.and_eq_true] at h
    rcases List.mem_cons.1 hx with heq | hx
    · rw [heq]
      exact ⟨⟨(reads_words key h.1.1).expr, key.beginsExpr_words true h.1.1⟩,
        (reads_words value h.1.2).expr⟩
    · exact reads_entriesWords es h.2 x hx

end

end Parser

end DotScript.Syntax
