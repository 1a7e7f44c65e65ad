import DotScript.Proofs.Syntax.Plain

/-!
# Expressions that were read

An expression that the parser has read is normal, and its tokens are all that there were, up to
parentheses: `Accounts`. If it was not read from a parenthesis, it binds as tightly as its level
asks and its rendering begins with the token at which it was read. Behind it stands nothing that
goes on with it: `Faithful`.
-/

namespace DotScript.Syntax.Parser

/-! ## Results -/

/-- What a parser reads is good, and so is the place behind it. -/
def Gets {α : Type} (good : α → Cursor → Prop) (r : Except ParseError (α × Cursor)) : Prop :=
  ∀ v d, r = .ok (v, d) → good v d

section
variable {α β : Type} {good : α → Cursor → Prop} {fine : β → Cursor → Prop} {c : Cursor}

namespace Gets

theorem error {e : ParseError} : Gets good (.error e) := fun _ _ h => by cases h

theorem pure {v : α} (h : good v c) : Gets good (.ok (v, c)) := fun _ _ heq => by
  cases heq
  exact h

theorem mono {good' : α → Cursor → Prop} {r : Except ParseError (α × Cursor)} (h : Gets good r)
    (hgood : ∀ v d, good v d → good' v d) : Gets good' r :=
  fun v d heq => hgood v d (h v d heq)

theorem bind {r : Except ParseError (α × Cursor)} {f : α × Cursor → Except ParseError (β × Cursor)}
    (h : Gets good r) (hf : ∀ v d, good v d → Gets fine (f (v, d))) : Gets fine (r >>= f) := by
  cases r with
  | error e => exact .error
  | ok p => exact hf p.1 p.2 (h p.1 p.2 rfl)

end Gets

theorem gets_expect {k : TokenKind} :
    Gets (fun _ d => c.kind = k ∧ d = c.advance) (expect k c) := by
  unfold expect
  split
  · next h => exact .pure ⟨h, rfl⟩
  · exact .error

theorem gets_ident : Gets (fun id d => c.kind = .ident id.name ∧ d = c.advance) (ident c) := by
  unfold ident
  split
  · next name h => exact .pure ⟨h, rfl⟩
  · exact .error

end

/-! ## Items -/

section
variable {α : Type} {item : Parser α} {words : α → List TokenKind} {good : α → Prop}
  {opened : List Symbol} {c : Cursor}

theorem joined_cons {x : α} {xs : List α} (h : xs ≠ []) :
    joined words (x :: xs) = words x ++ .symbol .comma :: joined words xs := by
  cases xs with
  | nil => exact absurd rfl h
  | cons y ys => rw [joined, joined, List.flatMap_cons, List.cons_append]

theorem gets_commaSeparated
    (hitem : ∀ c, c.Proper →
      Gets (fun x d => good x ∧ Spelt opened (expectsKey opened) (words x) c d) (item c)) :
    ∀ fuel c, c.Proper → Gets (fun xs d => xs ≠ [] ∧ (∀ x ∈ xs, good x) ∧
      Spelt opened (expectsKey opened) (joined words xs) c d) (commaSeparated item fuel c)
  | 0, _, _ => .error
  | fuel + 1, c, hc => by
    unfold commaSeparated
    refine (hitem c hc).bind ?_
    rintro x d ⟨hx, hspelt⟩
    simp only
    split
    · next hcomma =>
      have hd := hc.of_suffix hspelt.suffix
      refine (gets_commaSeparated hitem fuel d.advance hd.advance).bind ?_
      rintro xs d' ⟨hne, hxs, hspelt'⟩
      refine .pure ⟨List.cons_ne_nil _ _, ?_, ?_⟩
      · exact List.forall_mem_cons.2 ⟨hx, hxs⟩
      · rw [joined_cons hne]
        exact hspelt.trans (.comma (beq_iff_eq.1 hcomma) hspelt')
    · refine .pure ⟨List.cons_ne_nil _ _, ?_, ?_⟩
      · exact List.forall_mem_singleton.2 hx
      · rw [joined, List.flatMap_nil, List.append_nil]
        exact hspelt

theorem gets_itemsBefore {close : Symbol} {fuel : Nat} (hc : c.Proper)
    (hitem : ∀ c, c.Proper →
      Gets (fun x d => good x ∧ Spelt opened (expectsKey opened) (words x) c d) (item c)) :
    Gets (fun xs d => (∀ x ∈ xs, good x) ∧ Spelt opened (expectsKey opened) (joined words xs) c d)
      (itemsBefore item close fuel c) := by
  unfold itemsBefore
  split
  · next hclose =>
    refine .pure ⟨fun _ h => absurd h List.not_mem_nil, Spelt.of_ne_ident ?_ .refl⟩
    intro name h
    rw [Cursor.isAt, h] at hclose
    exact absurd (beq_iff_eq.1 hclose) TokenKind.noConfusion
  · intro xs d heq
    exact (gets_commaSeparated hitem fuel c hc xs d heq).2

/-- Items between brackets. -/
theorem gets_listUntil {left right : Symbol} {fuel : Nat}
    (hleft : ∀ opened, afterToken opened (.symbol left) = (left :: opened, left == .lBrace))
    (hright : ∀ opened, afterToken (left :: opened) (.symbol right) = (opened, false))
    (hc : c.Proper) (hkind : c.kind = .symbol left)
    (hitem : ∀ opened, opened.head? = some left → ∀ c, c.Proper →
      Gets (fun x d => good x ∧ Spelt opened (expectsKey opened) (words x) c d) (item c)) :
    Gets (fun p d => (∀ x ∈ p.1, good x) ∧ ∀ opened, Spelt opened false
        ((if isParen (.symbol left) then [] else [.symbol left]) ++ joined words p.1 ++
          (if isParen (.symbol right) then [] else [.symbol right])) c d)
      (listUntil item right fuel c.advance) := by
  rw [listUntil_eq]
  have hitems : Gets (fun xs d => (∀ x ∈ xs, good x) ∧ ∀ opened,
      Spelt (left :: opened) (left == .lBrace) (joined words xs) c.advance d)
      (itemsBefore item right fuel c.advance) := by
    intro xs d heq
    refine ⟨(gets_itemsBefore hc.advance (hitem [left] rfl) xs d heq).1, fun opened => ?_⟩
    exact (gets_itemsBefore hc.advance (hitem (left :: opened) rfl) xs d heq).2
  refine hitems.bind ?_
  rintro xs d ⟨hxs, hspelt⟩
  refine gets_expect.bind ?_
  rintro stop d' ⟨hclose, rfl⟩
  exact .pure ⟨hxs, fun opened =>
    Spelt.enclosed (hleft opened) (hright opened) hkind (hspelt opened) hclose⟩

end

/-! ## Expressions -/

/-- What is known of an expression that was read at a level between two cursors. -/
structure Accounts (l : Nat) (c : Cursor) (e : Expr) (d : Cursor) : Prop where
  normal : e.normal = true
  spelt : ∀ opened, Spelt opened false (e.words false) c d
  head : c.kind ≠ .symbol .lParen → l ≤ e.level ∧ (e.words true).head? = some c.kind

/-- A parser of expressions of a level gives account of what it reads, and reads all it can. -/
def Faithful (l : Nat) (E : Parser Expr) : Prop :=
  ∀ c, c.Proper → Gets (fun e d => Accounts l c e d ∧ Ends l d.kinds) (E c)

section
variable {l m fuel : Nat} {c d d' : Cursor} {e : Expr} {E : Parser Expr}

theorem Accounts.mono (h : Accounts l c e d) (hm : m ≤ l) : Accounts m c e d :=
  ⟨h.normal, h.spelt, fun hc => (h.head hc).imp_left (Nat.le_trans hm)⟩

theorem Accounts.suffix (h : Accounts l c e d) : d.rest <:+ c.rest := (h.spelt []).suffix

/-- An expression that is a single token. -/
theorem accounts_token {k : TokenKind} (hc : c.kind = k) (hl : e.level = 5)
    (hnormal : e.normal = true) (hwords : ∀ parens, e.words parens = [k])
    (hspelt : ∀ opened, Spelt opened false [k] c c.advance) : Accounts 5 c e c.advance := by
  refine ⟨hnormal, fun opened => ?_, fun _ => ⟨hl.ge, ?_⟩⟩
  · rw [hwords]
    exact hspelt opened
  · rw [hwords, hc]
    rfl

theorem exprsNormal_iff (es : List Expr) :
    exprsNormal es = true ↔ ∀ e ∈ es, e.normal = true := by
  induction es with
  | nil => exact ⟨fun _ _ h => absurd h List.not_mem_nil, fun _ => rfl⟩
  | cons e es ih => rw [exprsNormal, Bool.and_eq_true, ih, List.forall_mem_cons]

theorem entriesNormal_iff (entries : List (Expr × Expr)) :
    entriesNormal entries = true ↔
      ∀ x ∈ entries, x.1.normal = true ∧ x.2.normal = true := by
  induction entries with
  | nil => exact ⟨fun _ _ h => absurd h List.not_mem_nil, fun _ => rfl⟩
  | cons x entries ih =>
    rw [entriesNormal, Bool.and_eq_true, Bool.and_eq_true, ih, List.forall_mem_cons]

/-- Expressions between brackets that are not those of a map. -/
theorem gets_exprs {left right : Symbol}
    (hleft : ∀ opened, afterToken opened (.symbol left) = (left :: opened, left == .lBrace))
    (hright : ∀ opened, afterToken (left :: opened) (.symbol right) = (opened, false))
    (hmap : left ≠ .lBrace) (hE : Faithful 0 E) (hc : c.Proper) (hkind : c.kind = .symbol left) :
    Gets (fun p d => exprsNormal p.1 = true ∧ ∀ opened, Spelt opened false
        ((if isParen (.symbol left) then [] else [.symbol left]) ++ exprsWords false p.1 ++
          (if isParen (.symbol right) then [] else [.symbol right])) c d)
      (listUntil E right fuel c.advance) := by
  have hitem : ∀ opened, opened.head? = some left → ∀ c, c.Proper →
      Gets (fun e d => e.normal = true ∧ Spelt opened (expectsKey opened) (e.words false) c d)
        (E c) := by
    intro opened hopened d hd
    have hkey : expectsKey opened = false := by
      rw [expectsKey, hopened, beq_eq_false_iff_ne]
      exact fun h => hmap (Option.some.inj h)
    rw [hkey]
    exact (hE d hd).mono fun e d' he => ⟨he.1.normal, he.1.spelt opened⟩
  refine (gets_listUntil hleft hright hc hkind hitem).mono ?_
  rintro p d ⟨hp, hspelt⟩
  rw [exprsWords_eq]
  exact ⟨(exprsNormal_iff p.1).2 hp, hspelt⟩

theorem gets_mapKey (hE : Faithful 0 E) (hc : c.Proper) :
    Gets (fun key d => key.normal = true ∧ ∀ opened, Spelt opened true (key.words false) c d)
      (mapKey E c) := by
  unfold mapKey
  split
  · next name hname =>
    have hkinds := Cursor.kinds_eq (c := c) (by rw [hname]; exact TokenKind.noConfusion)
    rw [hname] at hkinds
    split
    · next hcolon =>
      have hcolon := beq_iff_eq.1 hcolon
      have hkinds' := Cursor.kinds_eq (c := c.advance) (by rw [hcolon]; exact TokenKind.noConfusion)
      rw [hcolon] at hkinds'
      refine .pure ⟨rfl, fun opened => ⟨?_, c.advance_suffix⟩⟩
      rw [hkinds, hkinds', plainFrom_bareKey]
      rfl
    · next hcolon =>
      refine (hE c hc).mono fun key d hkey => ⟨hkey.1.normal, fun opened => ⟨?_, hkey.1.suffix⟩⟩
      rw [plainFrom_fresh, (hkey.1.spelt opened).plain]
      intro name' rest heq hhead
      rw [hkinds] at heq
      cases hrest : rest with
      | nil =>
        rw [hrest] at hhead
        cases hhead
      | cons k ks =>
        rw [hrest] at hhead heq
        have hk := Cursor.kind_of_kinds (List.cons.inj heq).2
        rw [Option.some.inj hhead] at hk
        exact hcolon (beq_iff_eq.2 hk)
  · next hname =>
    exact (hE c hc).mono fun key d hkey =>
      ⟨hkey.1.normal, fun opened => .of_ne_ident hname (hkey.1.spelt opened)⟩

theorem gets_mapEntry (hE : Faithful 0 E) (hc : c.Proper) :
    Gets (fun x d => (x.1.normal = true ∧ x.2.normal = true) ∧
      ∀ opened, Spelt opened true (entryWords false x) c d) (mapEntry E c) := by
  unfold mapEntry
  refine (gets_mapKey hE hc).bind ?_
  rintro key d ⟨hkey, hspelt⟩
  refine gets_expect.bind ?_
  rintro _ d' ⟨hcolon, rfl⟩
  have hd := (hc.of_suffix (hspelt []).suffix).advance
  refine (hE d.advance hd).bind ?_
  rintro value d' ⟨hvalue, -⟩
  refine .pure ⟨⟨hkey, hvalue.normal⟩, fun opened => ?_⟩
  exact (hspelt opened).trans ((Spelt.token hcolon rfl).cons (hvalue.spelt opened))

theorem gets_primary (hE : Faithful 0 E) (hc : c.Proper) :
    Gets (fun e d => Accounts 5 c e d) (primary E fuel c) := by
  unfold primary
  simp only
  split
  · next name h =>
    exact .pure (accounts_token h rfl (hc.isName h) (fun _ => rfl) fun _ => .ident h)
  · next n h =>
    have hlexable := hc.lexable (by simp [h]) (by simp [h]) (by simp [h])
    rw [h] at hlexable
    exact .pure (accounts_token h rfl hlexable (fun _ => rfl) fun _ => .token h rfl)
  iterate 5
    next h => exact .pure (accounts_token h rfl rfl (fun _ => rfl) fun _ => .token h rfl)
  · next h =>
    refine (hE c.advance hc.advance).bind ?_
    rintro inner d ⟨hinner, -⟩
    refine gets_expect.bind ?_
    rintro _ d' ⟨hclose, rfl⟩
    refine .pure ⟨hinner.normal, fun opened => ?_, fun hne => absurd h hne⟩
    have hspelt : Spelt opened false ([] ++ inner.words false ++ []) c d.advance :=
      .enclosed rfl rfl h (hinner.spelt (.lParen :: opened)) hclose
    rwa [List.nil_append, List.append_nil] at hspelt
  · next h =>
    refine (gets_exprs (fun _ => rfl) (fun _ => rfl) (by decide) hE hc h).bind ?_
    rintro p d ⟨hp, hspelt⟩
    exact .pure ⟨hp, hspelt, fun _ => ⟨Nat.le_refl 5, by rw [h]; rfl⟩⟩
  · next h =>
    have hitem : ∀ opened, opened.head? = some .lBrace → ∀ c, c.Proper →
        Gets (fun x d => (x.1.normal = true ∧ x.2.normal = true) ∧
          Spelt opened (expectsKey opened) (entryWords false x) c d) (mapEntry E c) := by
      intro opened hopened d hd
      rw [show expectsKey opened = true by rw [expectsKey, hopened]; rfl]
      exact (gets_mapEntry hE hd).mono fun x d' hx => ⟨hx.1, hx.2 opened⟩
    refine (gets_listUntil (fun _ => rfl) (fun _ => rfl) hc h hitem).bind ?_
    rintro p d ⟨hp, hspelt⟩
    refine .pure ⟨(entriesNormal_iff p.1).2 hp, fun opened => ?_,
      fun _ => ⟨Nat.le_refl 5, by rw [h]; rfl⟩⟩
    rw [Expr.words, entriesWords_eq]
    exact hspelt opened
  · exact .error

/-! ## What ends an expression -/

theorem exists_symbol_of_joinLevel {k : TokenKind} (h : joinLevel k = some l) :
    ∃ s, k = .symbol s := by
  cases k with
  | symbol s => exact ⟨s, rfl⟩
  | _ => cases h

theorem ends_all (ks : List TokenKind) : Ends 6 ks := by
  intro m hm
  obtain ⟨s, hs⟩ := exists_symbol_of_joinLevel hm
  rw [hs] at hm
  cases s <;> first
    | (obtain rfl := Option.some.inj hm; decide)
    | cases hm

theorem Ends.of_joinLevel_ne (h : Ends (l + 1) c.kinds) (hne : joinLevel c.kind ≠ some l) :
    Ends l c.kinds := by
  intro m hm
  refine Nat.lt_of_le_of_ne (Nat.lt_succ_iff.1 (h m hm)) fun heq => hne ?_
  rw [Cursor.kind_eq_headD, hm, heq]

theorem Ends.of_not_continued (hparen : ¬c.isAt .lParen = true) (hdot : ¬c.isAt .dot = true) :
    Ends 5 c.kinds := by
  refine (ends_all c.kinds).of_joinLevel_ne fun h => ?_
  obtain ⟨s, hs⟩ := exists_symbol_of_joinLevel h
  rw [hs] at h
  cases s <;> first
    | exact hparen (beq_iff_eq.2 hs)
    | exact hdot (beq_iff_eq.2 hs)
    | cases h

theorem Ends.signed (h : Ends 5 c.kinds) : Ends 4 c.kinds := by
  refine h.of_joinLevel_ne fun h4 => ?_
  obtain ⟨s, hs⟩ := exists_symbol_of_joinLevel h4
  rw [hs] at h4
  cases s <;> cases h4

theorem Ends.of_not_assign (h : Ends 1 c.kinds) (hassign : ¬c.isAt .assign = true) :
    Ends 0 c.kinds := by
  refine h.of_joinLevel_ne fun h0 => ?_
  obtain ⟨s, hs⟩ := exists_symbol_of_joinLevel h0
  rw [hs] at h0
  cases s <;> first
    | exact hassign (beq_iff_eq.2 hs)
    | cases h0

theorem joinLevel_ne_of_operatorAt (hl : IsTier l) {k : TokenKind} (h : operatorAt l k = none) :
    joinLevel k ≠ some l := by
  obtain ⟨hlow, hhigh⟩ := hl
  intro hjoin
  obtain ⟨s, rfl⟩ := exists_symbol_of_joinLevel hjoin
  match l, hlow, hhigh with
  | 1, _, _ | 2, _, _ | 3, _, _ => cases s <;> first | (cases h; done) | cases hjoin

theorem eq_of_operatorAt (hl : IsTier l) {k : TokenKind} {op : BinaryOp}
    (h : operatorAt l k = some op) : k = .symbol op.symbol ∧ op.level = l := by
  obtain ⟨hlow, hhigh⟩ := hl
  match l, hlow, hhigh with
  | 1, _, _ | 2, _, _ | 3, _, _ =>
    cases k with
    | symbol s =>
      cases s <;> first
        | (obtain rfl := Option.some.inj h; exact ⟨rfl, rfl⟩)
        | cases h
    | _ => cases h

/-! ## Calls and properties -/

/-- What was read from no parenthesis needs none as an operand of its level. -/
theorem Accounts.head_append {vs : List TokenKind} (h : Accounts l c e d)
    (hc : c.kind ≠ .symbol .lParen) :
    (parenthesised (true && decide (e.level < l)) (e.words true) ++ vs).head? = some c.kind := by
  obtain ⟨hl, hhead⟩ := h.head hc
  rw [Bool.true_and, decide_eq_false (Nat.not_lt.2 hl), parenthesised, if_neg Bool.false_ne_true,
    List.head?_append, hhead]
  rfl

theorem Accounts.call {args : List Expr} {span : Text.Span} (h : Accounts 5 c e d)
    (hargs : exprsNormal args = true)
    (hspelt : ∀ opened, Spelt opened false (exprsWords false args) d d') :
    Accounts 5 c (.call e args span) d' := by
  refine ⟨?_, fun opened => (h.spelt opened).trans (hspelt opened),
    fun hc => ⟨Nat.le_refl 5, h.head_append hc⟩⟩
  rw [Expr.normal, h.normal, hargs]
  rfl

theorem Accounts.get {name : Ident} {span : Text.Span} (h : Accounts 5 c e d) (hd : d.Proper)
    (hdot : d.kind = .symbol .dot) (hname : d.advance.kind = .ident name.name) :
    Accounts 5 c (.get e name span) d.advance.advance := by
  refine ⟨?_, fun opened => ?_, fun hc => ⟨Nat.le_refl 5, h.head_append hc⟩⟩
  · rw [Expr.normal, h.normal, Ident.normal, hd.advance.isName hname]
    rfl
  · exact (h.spelt opened).trans ((Spelt.token hdot rfl).cons (.ident hname))

theorem gets_postfixes (hE : Faithful 0 E) (hc : c.Proper) : ∀ fuel e d, Accounts 5 c e d →
    Gets (fun e' d' => Accounts 5 c e' d' ∧ Ends 5 d'.kinds) (postfixes E fuel e d)
  | 0, _, _, _ => .error
  | fuel + 1, e, d, h => by
    have hd := hc.of_suffix h.suffix
    unfold postfixes
    split
    · next hparen =>
      refine (gets_exprs (fun _ => rfl) (fun _ => rfl) (by decide) hE hd
        (beq_iff_eq.1 hparen)).bind ?_
      rintro p d' ⟨hp, hspelt⟩
      refine gets_postfixes hE hc fuel _ d' (h.call hp fun opened => ?_)
      have hargs : Spelt opened false ([] ++ exprsWords false p.1 ++ []) d d' := hspelt opened
      rwa [List.nil_append, List.append_nil] at hargs
    · next hparen =>
      split
      · next hdot =>
        refine gets_ident.bind ?_
        rintro name d' ⟨hname, rfl⟩
        exact gets_postfixes hE hc fuel _ _ (h.get hd (beq_iff_eq.1 hdot) hname)
      · next hdot =>
        exact .pure ⟨h, .of_not_continued hparen hdot⟩

theorem faithful_operand (hE : Faithful 0 E) : Faithful 5 (operand E fuel) := by
  intro c hc
  unfold operand
  refine (gets_primary hE hc).bind fun e d h => ?_
  exact gets_postfixes hE hc fuel e d h

/-! ## Operators -/

theorem Accounts.unary {op : UnaryOp} {span : Text.Span} (h : Accounts 4 c.advance e d)
    (hop : c.kind = .symbol op.symbol) : Accounts 4 c (.unary op e span) d := by
  have hinert : isInert (.symbol op.symbol) = true := by cases op <;> rfl
  refine ⟨h.normal, fun opened => (Spelt.token hop hinert).cons (h.spelt opened),
    fun _ => ⟨Nat.le_refl 4, ?_⟩⟩
  rw [hop]
  rfl

theorem faithful_signed {O : Parser Expr} (hO : Faithful 5 O) : ∀ fuel, Faithful 4 (signed O fuel)
  | 0 => fun _ _ => .error
  | fuel + 1 => by
    intro c hc
    unfold signed
    split
    · exact (hO c hc).mono fun e d h => ⟨h.1.mono (by decide), h.2.signed⟩
    · next op hop =>
      refine (faithful_signed hO fuel c.advance hc.advance).bind ?_
      rintro e d ⟨he, hends⟩
      exact .pure ⟨he.unary (eq_of_unaryOp hop), hends⟩

theorem Accounts.binary {op : BinaryOp} {right : Expr} {span : Text.Span}
    (h : Accounts l c e d) (hop : d.kind = .symbol op.symbol) (hl : op.level = l)
    (hright : Accounts (l + 1) d.advance right d') :
    Accounts l c (.binary op e right span) d' := by
  subst hl
  have hinert : isInert (.symbol op.symbol) = true := by cases op <;> rfl
  refine ⟨?_, fun opened => ?_, fun hc => ⟨Nat.le_refl _, h.head_append hc⟩⟩
  · rw [Expr.normal, h.normal, hright.normal]
    rfl
  · exact (h.spelt opened).trans ((Spelt.token hop hinert).cons (hright.spelt opened))

theorem gets_chain {T : Parser Expr} (hl : IsTier l) (hT : Faithful (l + 1) T) (hc : c.Proper) :
    ∀ fuel e d, Accounts l c e d → Ends (l + 1) d.kinds →
      Gets (fun e' d' => Accounts l c e' d' ∧ Ends l d'.kinds) (chain (operatorAt l) T fuel e d)
  | 0, _, _, _, _ => .error
  | fuel + 1, e, d, h, hends => by
    have hd := hc.of_suffix h.suffix
    unfold chain
    split
    · next hop =>
      exact .pure ⟨h, hends.of_joinLevel_ne (joinLevel_ne_of_operatorAt hl hop)⟩
    · next op hop =>
      obtain ⟨hkind, hlevel⟩ := eq_of_operatorAt hl hop
      refine (hT d.advance hd.advance).bind ?_
      rintro right d' ⟨hright, hends'⟩
      exact gets_chain hl hT hc fuel _ d' (h.binary hkind hlevel hright) hends'

theorem faithful_leftAssoc {T : Parser Expr} (hl : IsTier l) (hT : Faithful (l + 1) T) :
    Faithful l (leftAssoc (operatorAt l) T fuel) := by
  intro c hc
  unfold leftAssoc
  refine (hT c hc).bind ?_
  rintro e d ⟨he, hends⟩
  exact gets_chain hl hT hc fuel e d (he.mono (Nat.le_succ l)) hends

theorem faithful_comparison (hE : Faithful 0 E) : Faithful 1 (comparison E fuel) := by
  have hsigned : Faithful 4 (signed (operand E fuel) fuel) :=
    faithful_signed (faithful_operand hE) fuel
  have hproduct : Faithful 3 (parserAt E fuel 3) := faithful_leftAssoc (by decide) hsigned
  have hsum : Faithful 2 (parserAt E fuel 2) := faithful_leftAssoc (by decide) hproduct
  exact faithful_leftAssoc (by decide) hsum

/-! ## Assignments -/

theorem Accounts.assignTo {value : Expr} (h : Accounts 1 c e d) (hd : d.kind = .symbol .assign)
    (hvalue : Accounts 0 d.advance value d') : Accounts 0 c (e.assignTo value) d' := by
  have hspelt : ∀ opened, Spelt opened false (e.words false ++ .symbol .assign :: value.words false)
      c d' := fun opened =>
    (h.spelt opened).trans ((Spelt.token hd rfl).cons (hvalue.spelt opened))
  have hnormal := h.normal
  cases e with
  | get object name span =>
    rw [Expr.normal] at hnormal
    refine ⟨?_, fun opened => ?_, fun hc => ⟨Nat.zero_le _, ?_⟩⟩
    · rw [Expr.assignTo, Expr.normal, hnormal, hvalue.normal]
      rfl
    · rw [Expr.assignTo, Expr.words_set false object value name]
      exact hspelt opened
    · rw [Expr.assignTo, Expr.words_set true object value name, List.head?_append,
        (h.head hc).2]
      rfl
  | _ =>
    refine ⟨?_, hspelt, fun hc => ⟨Nat.zero_le _, h.head_append hc⟩⟩
    rw [Expr.assignTo, Expr.normal, hnormal, hvalue.normal]
    · rfl
    · exact fun _ _ _ => Expr.noConfusion

theorem faithful_expr : ∀ fuel, Faithful 0 (expr fuel)
  | 0 => fun _ _ => .error
  | fuel + 1 => by
    intro c hc
    unfold expr
    refine (faithful_comparison (faithful_expr fuel) c hc).bind ?_
    rintro e d ⟨he, hends⟩
    simp only
    split
    · next hassign =>
      have hd := hc.of_suffix he.suffix
      refine (faithful_expr fuel d.advance hd.advance).bind ?_
      rintro value d' ⟨hvalue, hends'⟩
      exact .pure ⟨he.assignTo (beq_iff_eq.1 hassign) hvalue, hends'⟩
    · next hassign =>
      exact .pure ⟨he.mono (Nat.zero_le 1), hends.of_not_assign hassign⟩

end

end DotScript.Syntax.Parser
