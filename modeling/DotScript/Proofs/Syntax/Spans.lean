import DotScript.Proofs.Syntax.Nodes
import DotScript.Proofs.Syntax.Accounting

/-!
# Spans of expressions

The tokens of a text stand one behind the other, `laid_ofTokens`. So what a parser reads stands
between the token at which it began and the token behind it, as a row of sound nodes, and a failure
stands at a token: `Lays`. Every expression is read so: `lays_expr`.
-/

namespace DotScript.Syntax

open DotScript.Text

/-! ## Names -/

theorem withEquals_kind (joined single : Symbol) (c : Char) (cs : List Char) :
    ∃ s, (withEquals joined single c cs).kind = .symbol s := by
  unfold withEquals
  split
  · exact ⟨joined, rfl⟩
  · exact ⟨single, rfl⟩

theorem single_ne_ident (c : Char) (name : String) : single c ≠ .ident name := by
  unfold single
  split <;> exact TokenKind.noConfusion

/-- The characters of a token that is a name are the name. -/
theorem text_of_ident {c : Char} {cs : List Char} {name : String}
    (h : (lexeme c cs).kind = .ident name) : (lexeme c cs).text = name.toList := by
  have hread := readBy_lexeme c
  generalize lexeme c = read at hread h ⊢
  cases hread with
  | word =>
    simp only [word] at h ⊢
    split at h
    · cases h
    · rw [← TokenKind.ident.inj h, String.toList_ofList]
  | numeral =>
    unfold numeral at h
    simp only at h
    split at h <;> cases h
  | stringLiteral =>
    unfold stringLiteral at h
    simp only at h
    split at h <;> cases h
  | withEquals joined single =>
    obtain ⟨s, hs⟩ := withEquals_kind joined single c cs
    cases hs.symm.trans h
  | dot => cases h
  | single => exact absurd h (single_ne_ident c name)

/-- A token that is a name stands where the name does. -/
theorem between_of_ident (pos : Nat) (cs : List Char) : ∀ before, byteLength before = pos →
    pos + byteLength cs < 2 ^ 32 → ∀ t ∈ tokensFrom pos cs, ∀ name, t.kind = .ident name →
      Between (before ++ cs) t.span.start.toNat t.span.stop.toNat name.toList := by
  fun_induction tokensFrom pos cs with
  | case1 =>
    intro _ _ _ t ht name hname
    obtain rfl := List.mem_singleton.mp ht
    cases hname
  | case2 pos cs start c rest h l stop ih =>
    intro before hbefore hsize
    obtain ⟨gap, hgap, hstart, -⟩ := layout_of_skipBlanks pos cs
    rw [h, ← lexeme_append c rest] at hgap
    change cs = gap ++ (l.text ++ l.rest) at hgap
    change start = pos + byteLength gap at hstart
    have hstop : stop = pos + byteLength gap + byteLength l.text := congrArg (· + _) hstart
    have hlength := congrArg byteLength hgap
    simp only [byteLength_append] at hlength
    intro t ht name hname
    rcases List.mem_cons.mp ht with rfl | ht
    · refine ⟨before ++ gap, l.rest, ?_, ?_, ?_⟩
      · rw [hgap, ← text_of_ident hname, List.append_assoc]
      · rw [start_ofOffsets (by omega), byteLength_append, hbefore, hstart]
      · rw [stop_ofOffsets (by omega), byteLength_append, hbefore, hstop, ← text_of_ident hname]
    · have hread : byteLength (before ++ (gap ++ l.text)) = stop := by
        rw [byteLength_append, byteLength_append, hbefore, hstop, Nat.add_assoc]
      have hlater := ih _ hread (by omega) t ht name hname
      rwa [List.append_assoc, List.append_assoc, ← hgap] at hlater

/-! ## Tokens -/

namespace Cursor

/-- The tokens not yet read, with the end of file. -/
def tokens (c : Cursor) : List Token := c.rest ++ [⟨.endOfFile, c.eof⟩]

/-- Where the current token begins. -/
def here (c : Cursor) : Nat := c.span.start.toNat

/-- Where the current token ends. -/
def past (c : Cursor) : Nat := c.span.stop.toNat

/-- The tokens not yet read are those of a text. -/
structure Laid (text : String) (c : Cursor) : Prop where
  ordered : c.tokens.Pairwise fun t u => t.span.stop ≤ u.span.start
  placed : ∀ t ∈ c.tokens, Placed text t.span
  named : ∀ t ∈ c.tokens, ∀ name, t.kind = .ident name →
    Between text.toList t.span.start.toNat t.span.stop.toNat name.toList
  empty : c.eof.stop ≤ c.eof.start

variable {text : String} {c d : Cursor}

theorem tokens_advance (c : Cursor) : c.advance.tokens <:+ c.tokens :=
  List.suffix_append_self_iff.mpr c.advance_suffix

theorem exists_tokens_eq (c : Cursor) : ∃ ts, c.tokens = c.current :: ts := by
  unfold current tokens
  split
  · next h => exact ⟨[], by rw [h]; rfl⟩
  · next t ts h => exact ⟨ts ++ [⟨.endOfFile, c.eof⟩], by rw [h]; rfl⟩

theorem current_mem (c : Cursor) : c.current ∈ c.tokens := by
  obtain ⟨ts, hts⟩ := c.exists_tokens_eq
  exact hts ▸ List.mem_cons_self

namespace Laid

theorem advance (h : c.Laid text) : c.advance.Laid text where
  ordered := h.ordered.sublist c.tokens_advance.sublist
  placed t ht := h.placed t (c.tokens_advance.mem ht)
  named t ht := h.named t (c.tokens_advance.mem ht)
  empty := h.empty

theorem placed_span (h : c.Laid text) : Placed text c.span := h.placed _ c.current_mem

theorem here_le (h : c.Laid text) : c.here ≤ c.past := h.placed_span.le

/-- The next token stands behind the current one. The end of file, which stays, is empty. -/
theorem past_le (h : c.Laid text) : c.past ≤ c.advance.here := by
  unfold past here span
  cases hrest : c.rest with
  | nil =>
    have hcurrent : c.current = ⟨.endOfFile, c.eof⟩ := by
      rw [current, hrest]
    have hadvance : c.advance.current = ⟨.endOfFile, c.eof⟩ := by
      rw [current, Cursor.advance, hrest]
      rfl
    rw [hcurrent, hadvance]
    exact UInt32.le_iff_toNat_le.mp h.empty
  | cons t ts =>
    have hcurrent : c.current = t := by
      rw [current, hrest]
    have hadvance : c.tokens = t :: c.advance.tokens := by
      rw [tokens, tokens, Cursor.advance, hrest]
      rfl
    have hordered := h.ordered
    rw [hadvance] at hordered
    rw [hcurrent]
    exact UInt32.le_iff_toNat_le.mp
      ((List.pairwise_cons.mp hordered).1 _ c.advance.current_mem)

theorem le_advance (h : c.Laid text) : c.here ≤ c.advance.here := h.here_le.trans h.past_le

theorem past_mono (h : c.Laid text) (hd : d.tokens <:+ c.tokens) : c.past ≤ d.past := by
  obtain ⟨ts, hts⟩ := c.exists_tokens_eq
  obtain ⟨us, hus⟩ := d.exists_tokens_eq
  have hordered := h.ordered
  obtain ⟨read, hread⟩ := hd
  rw [← hread, hus] at hts hordered
  cases read with
  | nil =>
    have hsame : d.current = c.current := (List.cons.inj hts).1
    rw [past, past, span, span, hsame]
  | cons t read =>
    obtain rfl : t = c.current := (List.cons.inj hts).1
    have hmem : d.current ∈ read ++ d.current :: us := List.mem_append_right _ List.mem_cons_self
    have hbehind := (List.pairwise_cons.mp hordered).1 _ hmem
    have hplaced := h.placed d.current (by rw [← hread, hus]; exact List.mem_cons_of_mem _ hmem)
    exact (UInt32.le_iff_toNat_le.mp hbehind).trans hplaced.le

end Laid

end Cursor

/-- The tokens of a text stand one behind the other in it. -/
theorem laid_ofTokens {text : String} (h : text.utf8ByteSize < 2 ^ 32) :
    (Cursor.ofTokens (tokens text)).Laid text ∧
      (Cursor.ofTokens (tokens text)).tokens = tokens text := by
  have hsize : 0 + byteLength text.toList < 2 ^ 32 := by
    rwa [Nat.zero_add, byteLength_toList]
  have htiles : Tiles 0 text.toList (tokens text) := tiles_tokensFrom 0 text.toList
  obtain ⟨us, hus, -⟩ := htiles.ended hsize
  have hcursor : Cursor.ofTokens (tokens text) =
      ⟨us, .point (0 + byteLength text.toList)⟩ := by
    rw [hus, ofTokens_append]
  have htokens : (Cursor.ofTokens (tokens text)).tokens = tokens text := by
    rw [hcursor, hus]
    rfl
  refine ⟨⟨?_, ?_, ?_, ?_⟩, htokens⟩
  · rw [htokens]
    exact htiles.ordered hsize
  · rw [htokens]
    intro t ht
    have hstarts : byteLength [] = 0 := rfl
    obtain ⟨part, hpart⟩ := htiles.placed hsize hstarts t ht
    obtain ⟨hstart, hstop⟩ := edge_of_between rfl hpart
    obtain ⟨_, _, _, hbefore, hend⟩ := hpart
    exact .of_edges hstart hstop (by omega)
  · rw [htokens]
    exact between_of_ident 0 text.toList [] rfl hsize
  · rw [hcursor]
    exact UInt32.le_refl _

/-! ## Results -/

namespace Parser

/-- What is read is good, and so is the place behind it; a failure stands at a token that was still
to be read. -/
structure Lays {α : Type} (text : String) (good : α → Cursor → Prop) (c : Cursor)
    (r : Except ParseError (α × Cursor)) : Prop where
  gets : Gets (fun v d => (d.Laid text ∧ d.tokens <:+ c.tokens) ∧ good v d) r
  fails : ∀ e, r = .error e → ∃ t ∈ c.tokens, e.span = t.span

variable {text : String} {c d : Cursor}

section
variable {α β : Type} {good : α → Cursor → Prop} {fine : β → Cursor → Prop}

namespace Lays

theorem error {e : ParseError} (h : e.span = c.span) : Lays text good c (.error e) :=
  ⟨.error, fun _ heq => ⟨c.current, c.current_mem, Except.error.inj heq ▸ h⟩⟩

theorem pure {v : α} (hc : c.Laid text) (h : good v c) : Lays text good c (.ok (v, c)) :=
  ⟨.pure ⟨⟨hc, List.suffix_rfl⟩, h⟩, fun _ heq => by cases heq⟩

theorem of_suffix {r : Except ParseError (α × Cursor)} (h : Lays text good d r)
    (hd : d.tokens <:+ c.tokens) : Lays text good c r where
  gets := h.gets.mono fun _ _ hv => ⟨⟨hv.1.1, hv.1.2.trans hd⟩, hv.2⟩
  fails e he := (h.fails e he).imp fun _ ht => ⟨hd.mem ht.1, ht.2⟩

theorem advance {r : Except ParseError (α × Cursor)} (h : Lays text good c.advance r) :
    Lays text good c r := h.of_suffix c.tokens_advance

theorem bind {r : Except ParseError (α × Cursor)} {f : α × Cursor → Except ParseError (β × Cursor)}
    (h : Lays text good c r) (hf : ∀ v d, d.Laid text → good v d → Lays text fine d (f (v, d))) :
    Lays text fine c (r >>= f) := by
  cases r with
  | error e => exact ⟨.error, fun e' he => h.fails e' (congrArg _ (Except.error.inj he))⟩
  | ok p =>
    obtain ⟨⟨hd, hsuffix⟩, hgood⟩ := h.gets p.1 p.2 rfl
    exact (hf p.1 p.2 hd hgood).of_suffix hsuffix

/-- What is read ends no earlier than at the next token. -/
theorem past_le {r : Except ParseError (α × Cursor)} (h : Lays text good c r) (hc : c.Laid text) :
    Lays text (fun v d => c.past ≤ d.past ∧ good v d) c r where
  gets := h.gets.mono fun _ _ hv => ⟨hv.1, hc.past_mono hv.1.2, hv.2⟩
  fails := h.fails

end Lays

theorem lays_expect {k : TokenKind} (hc : c.Laid text) :
    Lays text (fun s d => s = c.span ∧ d = c.advance) c (expect k c) := by
  unfold expect
  split
  · exact (Lays.pure hc.advance ⟨rfl, rfl⟩).advance
  · exact .error rfl

end

/-! ## Single tokens -/

theorem row_token (n : Node) (hc : c.Laid text) (hspan : n.span = c.span)
    (hchildren : n.children = [])
    (hnamed : ∀ id, n = .ident id → ∀ file, Source.slice ⟨file, text⟩ id.span = id.name) :
    Row text c.here [n] c.past := by
  have hnode : Row text n.span.start.toNat [n] n.span.stop.toNat := by
    refine .node n ?_ (hspan ▸ hc.placed_span) hnamed
    rw [hchildren, hspan]
    exact .nil hc.here_le
  rwa [hspan] at hnode

theorem row_ident {name : String} (hc : c.Laid text) (hname : c.kind = .ident name) :
    Row text c.here [.ident ⟨name, c.span⟩] c.past := by
  refine row_token _ hc rfl rfl fun id hid file => ?_
  obtain rfl := Node.ident.inj hid
  have hslice := slice_of_between (hc.named _ c.current_mem name hname) file
  rwa [String.ofList_toList] at hslice

theorem row_var {id : Ident} {lo hi : Nat} (h : Row text lo [.ident id] hi) :
    Row text lo [.expr (.var id)] hi := by
  have hvar : Row text id.span.start.toNat [.expr (.var id)] id.span.stop.toNat :=
    .node (.expr (.var id)) h.narrow h.placed fun _ hid => Node.noConfusion hid
  exact hvar.mono h.lo_le h.le_hi

theorem lays_ident (hc : c.Laid text) :
    Lays text (fun id d => Row text c.here [.ident id] c.past ∧ d = c.advance) c (ident c) := by
  unfold ident
  split
  · next name h => exact (Lays.pure hc.advance ⟨row_ident hc h, rfl⟩).advance
  · exact .error rfl

/-! ## Items -/

section
variable {α : Type} {item : Parser α} {nodes : α → List Node} {fuel : Nat}

/-- What a parser reads is a row of nodes. -/
def ReadsRow (text : String) (nodes : α → List Node) (item : Parser α) : Prop :=
  ∀ c : Cursor, c.Laid text → Lays text (fun x d => Row text c.here (nodes x) d.here) c (item c)

theorem lays_commaSeparated (hitem : ReadsRow text nodes item) : ∀ fuel,
    ReadsRow text (fun xs => xs.flatMap nodes) (commaSeparated item fuel)
  | 0 => fun _ _ => .error rfl
  | fuel + 1 => by
    intro c hc
    unfold commaSeparated
    refine (hitem c hc).bind fun x d hd hx => ?_
    simp only
    split
    · refine .advance ((lays_commaSeparated hitem fuel d.advance hd.advance).bind ?_)
      intro xs d' hd' hxs
      exact .pure hd' (hx.append hxs hd.le_advance)
    · refine .pure hd ?_
      rw [List.flatMap_singleton]
      exact hx

theorem lays_itemsBefore {close : Symbol} (hitem : ReadsRow text nodes item) :
    ReadsRow text (fun xs => xs.flatMap nodes) (itemsBefore item close fuel) := by
  intro c hc
  unfold itemsBefore
  split
  · exact .pure hc (.nil (Nat.le_refl _))
  · exact lays_commaSeparated hitem fuel c hc

/-- Items up to a closing symbol, which stands behind them. -/
theorem lays_listUntil {close : Symbol} (hitem : ReadsRow text nodes item) (hc : c.Laid text) :
    Lays text (fun p d => Placed text p.2 ∧
        Row text c.here (p.1.flatMap nodes) p.2.start.toNat ∧ p.2.stop.toNat ≤ d.here)
      c (listUntil item close fuel c) := by
  rw [listUntil_eq]
  refine (lays_itemsBefore hitem c hc).bind fun xs d hd hxs => ?_
  refine (lays_expect hd).bind ?_
  rintro stop d' hd' ⟨rfl, rfl⟩
  exact .pure hd' ⟨hd.placed_span, hxs, hd.past_le⟩

end

/-! ## Expressions -/

section
variable {E O T : Parser Expr} {fuel : Nat} {lo : Nat}

/-- The nodes of what a parser of expressions reads. -/
def exprNodes (e : Expr) : List Node := [.expr e]

theorem flatMap_exprNodes (es : List Expr) : es.flatMap exprNodes = es.map .expr :=
  (List.map_eq_flatMap ..).symm

theorem lays_mapKey (hE : ReadsRow text exprNodes E) : ReadsRow text exprNodes (mapKey E) := by
  intro c hc
  unfold mapKey
  split
  · next name hname =>
    split
    · refine (Lays.pure hc.advance ?_).advance
      exact (row_token (.expr _) hc rfl rfl fun _ hid => Node.noConfusion hid).mono (Nat.le_refl _) hc.past_le
    · exact hE c hc
  · exact hE c hc

theorem lays_mapEntry (hE : ReadsRow text exprNodes E) :
    ReadsRow text Node.ofEntry (mapEntry E) := by
  intro c hc
  unfold mapEntry
  refine (lays_mapKey hE c hc).bind fun key d hd hkey => ?_
  refine (lays_expect hd).bind ?_
  rintro _ d' hd' ⟨-, rfl⟩
  refine (hE _ hd').bind fun value d' hd'' hvalue => ?_
  exact .pure hd'' (hkey.append hvalue hd.le_advance)

/-- A node that runs from a token to a later span, with its children behind the token. -/
theorem row_headed (n : Node) {b : Text.Span} (hc : c.Laid text)
    (hspan : n.span = c.span.cover b) (hname : ∀ id, n ≠ .ident id) (hb : Placed text b)
    (h : Row text c.advance.here n.children b.stop.toNat)
    (hle : c.advance.here ≤ b.start.toNat) : Row text c.here [n] b.stop.toNat := by
  have hchildren : Row text c.here n.children b.stop.toNat := h.mono hc.le_advance (Nat.le_refl _)
  exact .joined n hspan hname hchildren hc.placed_span hb (hc.past_le.trans hle)

/-- Items in brackets make a node that reaches from one bracket to the other. -/
theorem row_enclosed (n : Node) {stop : Text.Span} (hc : c.Laid text)
    (hspan : n.span = c.span.cover stop) (hname : ∀ id, n ≠ .ident id) (hstop : Placed text stop)
    (h : Row text c.advance.here n.children stop.start.toNat) :
    Row text c.here [n] stop.stop.toNat :=
  row_headed n hc hspan hname hstop (h.mono (Nat.le_refl _) hstop.le) h.le

theorem lays_primary (hE : ReadsRow text exprNodes E) :
    ReadsRow text exprNodes (primary E fuel) := by
  intro c hc
  have htoken : ∀ e : Expr, e.span = c.span → (Node.expr e).children = [] →
      Lays text (fun e d => Row text c.here (exprNodes e) d.here) c (.ok (e, c.advance)) := by
    intro e hspan hchildren
    refine (Lays.pure hc.advance ?_).advance
    exact (row_token (.expr e) hc hspan hchildren fun _ hid => Node.noConfusion hid).mono
      (Nat.le_refl _) hc.past_le
  unfold primary
  simp only
  split
  · next name h =>
    refine (Lays.pure hc.advance ?_).advance
    exact (row_var (row_ident hc h)).mono (Nat.le_refl _) hc.past_le
  iterate 6
    exact htoken _ rfl rfl
  · refine .advance ((hE _ hc.advance).bind fun inner d hd hinner => ?_)
    refine (lays_expect hd).bind ?_
    rintro _ d' hd' ⟨-, rfl⟩
    exact .pure hd' (hinner.mono hc.le_advance hd.le_advance)
  · refine .advance ((lays_listUntil hE hc.advance).bind ?_)
    rintro ⟨elems, stop⟩ d hd ⟨hstop, helems, hle⟩
    rw [flatMap_exprNodes] at helems
    have hlist := row_enclosed (.expr (.list elems _)) hc rfl (fun _ => Node.noConfusion) hstop helems
    exact .pure hd (hlist.mono (Nat.le_refl _) hle)
  · refine .advance ((lays_listUntil (lays_mapEntry hE) hc.advance).bind ?_)
    rintro ⟨entries, stop⟩ d hd ⟨hstop, hentries, hle⟩
    have hmap := row_enclosed (.expr (.map entries _)) hc rfl (fun _ => Node.noConfusion) hstop
      hentries
    exact .pure hd (hmap.mono (Nat.le_refl _) hle)
  · exact .error rfl

/-! ## Calls and properties -/

section
variable {e right : Expr} {name : Ident} {hi lo' hi' : Nat}

theorem row_call {args : List Expr} {stop : Text.Span} (he : Row text lo [.expr e] hi)
    (hargs : Row text lo' (args.map .expr) stop.start.toNat) (hle : hi ≤ lo')
    (hstop : Placed text stop) :
    Row text lo [.expr (.call e args (e.span.cover stop))] stop.stop.toNat := by
  have hchildren : Row text e.span.start.toNat (.expr e :: args.map .expr) stop.stop.toNat :=
    he.narrow.append (hargs.mono (Nat.le_refl _) hstop.le) (he.le_hi.trans hle)
  have hcall := Row.joined (.expr (.call e args (e.span.cover stop))) rfl
    (fun _ => Node.noConfusion) hchildren he.placed hstop (he.le_hi.trans (hle.trans hargs.le))
  exact hcall.mono he.lo_le (Nat.le_refl _)

theorem row_get (he : Row text lo [.expr e] hi) (hname : Row text lo' [.ident name] hi')
    (hle : hi ≤ lo') :
    Row text lo [.expr (.get e name (e.span.cover name.span))] hi' := by
  have hbehind : e.span.stop.toNat ≤ name.span.start.toNat :=
    he.le_hi.trans (hle.trans hname.lo_le)
  have hget := Row.joined (.expr (.get e name (e.span.cover name.span))) rfl
    (fun _ => Node.noConfusion) (he.narrow.append hname.narrow hbehind) he.placed hname.placed
    hbehind
  exact hget.mono he.lo_le hname.le_hi

theorem lays_postfixes (hE : ReadsRow text exprNodes E) : ∀ fuel e d, d.Laid text →
    Row text lo [.expr e] d.here →
      Lays text (fun e' d' => Row text lo (exprNodes e') d'.here) d (postfixes E fuel e d)
  | 0, _, _, _, _ => .error rfl
  | fuel + 1, e, d, hd, he => by
    unfold postfixes
    split
    · refine .advance ((lays_listUntil hE hd.advance).bind ?_)
      rintro ⟨args, stop⟩ d' hd' ⟨hstop, hargs, hle⟩
      rw [flatMap_exprNodes] at hargs
      have hcall := row_call he hargs hd.le_advance hstop
      exact lays_postfixes hE fuel _ d' hd' (hcall.mono (Nat.le_refl _) hle)
    · split
      · refine .advance ((lays_ident hd.advance).bind ?_)
        rintro name d' hd' ⟨hname, rfl⟩
        have hget := row_get he hname hd.le_advance
        exact lays_postfixes hE fuel _ _ hd' (hget.mono (Nat.le_refl _) hd.advance.past_le)
      · exact .pure hd he

theorem lays_operand (hE : ReadsRow text exprNodes E) :
    ReadsRow text exprNodes (operand E fuel) := by
  intro c hc
  unfold operand
  refine (lays_primary hE c hc).bind fun e d hd he => ?_
  exact lays_postfixes hE fuel e d hd he

/-! ## Operators -/

/-- A node that runs from a token to its only child. -/
theorem row_introduced (n : Node) {m : Node} (hc : c.Laid text)
    (hspan : n.span = c.span.cover m.span) (hname : ∀ id, n ≠ .ident id) (hchildren : n.children = [m])
    (h : Row text c.advance.here [m] hi) : Row text c.here [n] hi := by
  have hrow : Row text c.advance.here n.children m.span.stop.toNat :=
    hchildren ▸ h.narrow.mono h.lo_le (Nat.le_refl _)
  exact (row_headed n hc hspan hname h.placed hrow h.lo_le).mono (Nat.le_refl _) h.le_hi

theorem lays_signed (hO : ReadsRow text exprNodes O) : ∀ fuel,
    ReadsRow text exprNodes (signed O fuel)
  | 0 => fun _ _ => .error rfl
  | fuel + 1 => by
    intro c hc
    unfold signed
    split
    · exact hO c hc
    · next op _ =>
      refine .advance ((lays_signed hO fuel _ hc.advance).bind fun e d hd he => ?_)
      exact .pure hd (row_introduced (.expr (.unary op e _)) hc rfl (fun _ => Node.noConfusion) rfl he)

/-- A node whose only children are two expressions, from the one to the other. -/
theorem row_pair (n : Node) (he : Row text lo [.expr e] hi) (hright : Row text lo' [.expr right] hi')
    (hle : hi ≤ lo') (hspan : n.span = e.span.cover right.span) (hname : ∀ id, n ≠ .ident id)
    (hchildren : n.children = [.expr e, .expr right]) : Row text lo [n] hi' := by
  have hbehind : e.span.stop.toNat ≤ right.span.start.toNat :=
    he.le_hi.trans (hle.trans hright.lo_le)
  have hrow : Row text e.span.start.toNat n.children right.span.stop.toNat :=
    hchildren ▸ he.narrow.append hright.narrow hbehind
  have hnode := Row.joined n hspan hname hrow he.placed hright.placed hbehind
  exact hnode.mono he.lo_le hright.le_hi

theorem lays_chain {op : TokenKind → Option BinaryOp} (hT : ReadsRow text exprNodes T) :
    ∀ fuel e d, d.Laid text → Row text lo [.expr e] d.here →
      Lays text (fun e' d' => Row text lo (exprNodes e') d'.here) d (chain op T fuel e d)
  | 0, _, _, _, _ => .error rfl
  | fuel + 1, e, d, hd, he => by
    unfold chain
    split
    · exact .pure hd he
    · next o _ =>
      refine .advance ((hT _ hd.advance).bind fun right d' hd' hright => ?_)
      have hbinary := row_pair (.expr (.binary o e right _)) he hright hd.le_advance rfl
        (fun _ => Node.noConfusion) rfl
      exact lays_chain hT fuel _ d' hd' hbinary

theorem lays_leftAssoc {op : TokenKind → Option BinaryOp} (hT : ReadsRow text exprNodes T) :
    ReadsRow text exprNodes (leftAssoc op T fuel) := by
  intro c hc
  unfold leftAssoc
  refine (hT c hc).bind fun e d hd he => ?_
  exact lays_chain hT fuel e d hd he

theorem lays_comparison (hE : ReadsRow text exprNodes E) :
    ReadsRow text exprNodes (comparison E fuel) :=
  lays_leftAssoc (lays_leftAssoc (lays_leftAssoc (lays_signed (lays_operand hE) fuel)))

/-! ## Assignments -/

theorem row_assignTo (he : Row text lo [.expr e] hi) (hright : Row text lo' [.expr right] hi')
    (hle : hi ≤ lo') : Row text lo [.expr (e.assignTo right)] hi' := by
  cases e with
  | get object name span =>
    -- The property that was read is dropped, its parts become parts of the assignment.
    have hbehind : span.stop.toNat ≤ right.span.start.toNat :=
      he.le_hi.trans (hle.trans hright.lo_le)
    have hset := Row.joined (.expr (.set object name right (span.cover right.span))) rfl
      (fun _ => Node.noConfusion) (he.of_sound.append hright.narrow hbehind) he.placed
      hright.placed hbehind
    exact hset.mono he.lo_le hright.le_hi
  | _ => exact row_pair (.expr (.assign _ right _)) he hright hle rfl (fun _ => Node.noConfusion) rfl

theorem lays_expr : ∀ fuel, ReadsRow text exprNodes (expr fuel)
  | 0 => fun _ _ => .error rfl
  | fuel + 1 => by
    intro c hc
    unfold expr
    refine (lays_comparison (lays_expr fuel) c hc).bind fun e d hd he => ?_
    simp only
    split
    · refine .advance ((lays_expr fuel _ hd.advance).bind fun value d' hd' hvalue => ?_)
      exact .pure hd' (row_assignTo he hvalue hd.le_advance)
    · exact .pure hd he

end

end

end Parser

end DotScript.Syntax
