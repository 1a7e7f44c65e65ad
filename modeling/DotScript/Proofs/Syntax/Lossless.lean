import DotScript.Proofs.Syntax.Layout
import DotScript.Proofs.Syntax.Spelling

/-!
# Nothing of a text is lost

The tokens of a text and the layout before each of them make up the text: `Tiles` follows them from
one end to the other, `tiles_tokensFrom`. What the spans of the tokens tell about the text is read off
it, `tokens_lossless`; offsets are words of 32 bits, so the text has to be short enough for its
offsets to be words.
-/

namespace DotScript.Syntax

open DotScript.Text

/-- A text at an offset is made up of tokens, each behind a layout, and a layout at its end. -/
inductive Tiles : Nat → List Char → List Token → Prop
  | last {pos gap} (hgap : Layout true gap) :
    Tiles pos gap [⟨.endOfFile, .point (pos + byteLength gap)⟩]
  | token {pos gap text cs kind ts} (hgap : Layout false gap) (hkind : kind ≠ .endOfFile)
    (htext : text ≠ []) (h : Tiles (pos + byteLength gap + byteLength text) cs ts) :
    Tiles pos (gap ++ (text ++ cs))
      (⟨kind, .ofOffsets (pos + byteLength gap) (pos + byteLength gap + byteLength text)⟩ :: ts)

theorem tiles_tokensFrom (pos : Nat) (cs : List Char) : Tiles pos cs (tokensFrom pos cs) := by
  fun_induction tokensFrom pos cs with
  | case1 pos cs start h =>
    obtain ⟨gap, hgap, hstart, hlayout⟩ := layout_of_skipBlanks pos cs
    rw [h] at hgap hlayout
    rw [List.append_nil] at hgap
    subst hgap
    change Tiles pos cs [⟨.endOfFile, .point (skipBlanks false pos cs).1⟩]
    rw [hstart]
    exact .last hlayout
  | case2 pos cs start c rest h l stop ih =>
    obtain ⟨gap, hgap, hstart, hlayout⟩ := layout_of_skipBlanks pos cs
    rw [h] at hgap hlayout
    have hkind : l.kind ≠ .endOfFile :=
      TokenKind.Occurs.ne_endOfFile ((lexeme_occurs c rest).imp_right (Or.imp_right And.left))
    have hstart' : start = pos + byteLength gap := hstart
    simp only [stop, hstart'] at ih ⊢
    rw [hgap, ← lexeme_append c rest]
    exact .token hlayout hkind (lexeme_text_ne_nil c rest) ih

/-! ## Spans -/

/-- A part of a text, between two offsets at which characters begin or the text ends. -/
def Between (cs : List Char) (start stop : Nat) (part : List Char) : Prop :=
  ∃ before after, cs = before ++ (part ++ after) ∧ byteLength before = start ∧
    byteLength before + byteLength part = stop

/-- Whether the byte at an offset belongs to a token. -/
def Token.Holds (t : Token) (offset : Nat) : Prop :=
  t.span.start.toNat ≤ offset ∧ offset < t.span.stop.toNat

/-- The tokens behind an offset, each with the end of the one before it. -/
def joints (pos : Nat) : List Token → List (Nat × Token)
  | [] => []
  | t :: ts => (pos, t) :: joints t.span.stop.toNat ts

/-- What the spans of tokens tell about the text that they were read from. -/
structure Lossless (text : String) (ts : List Token) : Prop where
  /-- The end of file is the last token, at the end of the text; no other token is empty. -/
  ended : ∃ us, ts = us ++ [⟨.endOfFile, .point text.utf8ByteSize⟩] ∧
    ∀ t ∈ us, t.kind ≠ .endOfFile ∧ t.span.start < t.span.stop
  /-- The tokens stand one behind the other. -/
  ordered : ts.Pairwise fun t u => t.span.stop ≤ u.span.start
  /-- A token is a part of the text, which cuts no character. -/
  placed : ∀ t ∈ ts, ∃ part, Between text.toList t.span.start.toNat t.span.stop.toNat part
  /-- Between tokens there are blanks and comments only. -/
  gaps : ∀ stop t, (stop, t) ∈ joints 0 ts → ∃ gap,
    Between text.toList stop t.span.start.toNat gap ∧ Layout (t.kind = .endOfFile) gap
  /-- All that does not stand between tokens belongs to one of them, and to no other. -/
  owned : ∀ offset < text.utf8ByteSize, (∃! t, t ∈ ts ∧ t.Holds offset) ∨
    ∃ stop t, (stop, t) ∈ joints 0 ts ∧ stop ≤ offset ∧ offset < t.span.start.toNat

theorem start_ofOffsets {start stop : Nat} (h : start < 2 ^ 32) :
    (Span.ofOffsets start stop).start.toNat = start :=
  UInt32.toNat_ofNat_of_lt h

theorem stop_ofOffsets {start stop : Nat} (h : stop < 2 ^ 32) :
    (Span.ofOffsets start stop).stop.toNat = stop :=
  UInt32.toNat_ofNat_of_lt h

theorem byteLength_pos {cs : List Char} (h : cs ≠ []) : 0 < byteLength cs := by
  obtain ⟨c, cs, rfl⟩ := List.exists_cons_of_ne_nil h
  exact Nat.add_pos_left c.utf8Size_pos _

theorem utf8ByteSize_ofList (cs : List Char) : (String.ofList cs).utf8ByteSize = byteLength cs := by
  induction cs with
  | nil => rfl
  | cons c cs ih =>
    rw [String.ofList_cons, String.utf8ByteSize_append, String.utf8ByteSize_singleton, ih, byteLength]

theorem byteLength_toList (s : String) : byteLength s.toList = s.utf8ByteSize := by
  rw [← utf8ByteSize_ofList, String.ofList_toList]

namespace Tiles

variable {pos : Nat} {cs : List Char} {ts : List Token}

/-- All tokens but the last have a byte at least. -/
theorem length_le (h : Tiles pos cs ts) : ts.length ≤ byteLength cs + 1 := by
  induction h with
  | last => exact Nat.le_add_left _ _
  | token _ _ htext _ ih =>
    have hpos := byteLength_pos htext
    simp only [List.length_cons, byteLength_append]
    omega

theorem ended (h : Tiles pos cs ts) (hsize : pos + byteLength cs < 2 ^ 32) :
    ∃ us, ts = us ++ [⟨.endOfFile, .point (pos + byteLength cs)⟩] ∧
      ∀ t ∈ us, t.kind ≠ .endOfFile ∧ t.span.start < t.span.stop := by
  induction h with
  | last hgap => exact ⟨[], rfl, fun _ h => absurd h List.not_mem_nil⟩
  | @token pos gap text cs kind ts hgap hkind htext _ ih =>
    simp only [byteLength_append, ← Nat.add_assoc] at hsize ⊢
    obtain ⟨us, rfl, hus⟩ := ih hsize
    have hpos := byteLength_pos htext
    refine ⟨_ :: us, rfl, fun t ht => ?_⟩
    rcases List.mem_cons.mp ht with rfl | ht
    · refine ⟨hkind, UInt32.lt_iff_toNat_lt.mpr ?_⟩
      rw [start_ofOffsets (by omega), stop_ofOffsets (by omega)]
      omega
    · exact hus t ht

/-- The tokens of a text do not begin before it. -/
theorem le_start (h : Tiles pos cs ts) (hsize : pos + byteLength cs < 2 ^ 32) :
    ∀ t ∈ ts, pos ≤ t.span.start.toNat := by
  induction h with
  | last hgap =>
    rintro t ht
    obtain rfl := List.mem_singleton.mp ht
    exact (Nat.le_add_right ..).trans_eq (start_ofOffsets hsize).symm
  | @token pos gap text cs kind ts hgap hkind htext _ ih =>
    simp only [byteLength_append, ← Nat.add_assoc] at hsize
    intro t ht
    rcases List.mem_cons.mp ht with rfl | ht
    · rw [start_ofOffsets (by omega)]
      omega
    · have := ih hsize t ht
      omega

theorem ordered (h : Tiles pos cs ts) (hsize : pos + byteLength cs < 2 ^ 32) :
    ts.Pairwise fun t u => t.span.stop ≤ u.span.start := by
  induction h with
  | last hgap => exact List.pairwise_singleton ..
  | @token pos gap text cs kind ts hgap hkind htext h ih =>
    simp only [byteLength_append, ← Nat.add_assoc] at hsize
    refine List.pairwise_cons.mpr ⟨fun u hu => UInt32.le_iff_toNat_le.mpr ?_, ih hsize⟩
    rw [stop_ofOffsets (by omega)]
    exact h.le_start hsize u hu

theorem placed (h : Tiles pos cs ts) (hsize : pos + byteLength cs < 2 ^ 32) {before : List Char}
    (hbefore : byteLength before = pos) :
    ∀ t ∈ ts, ∃ part, Between (before ++ cs) t.span.start.toNat t.span.stop.toNat part := by
  induction h generalizing before with
  | @last pos gap hgap =>
    intro t ht
    obtain rfl := List.mem_singleton.mp ht
    have hstop : byteLength (before ++ gap) = pos + byteLength gap := by
      rw [byteLength_append, hbefore]
    refine ⟨[], before ++ gap, [], by simp, ?_, ?_⟩
    · rw [hstop]
      exact (start_ofOffsets hsize).symm
    · rw [hstop]
      exact (stop_ofOffsets hsize).symm
  | @token pos gap text cs kind ts hgap hkind htext h ih =>
    simp only [byteLength_append, ← Nat.add_assoc] at hsize
    intro t ht
    rcases List.mem_cons.mp ht with rfl | ht
    · refine ⟨text, before ++ gap, cs, by simp, ?_, ?_⟩
      · rw [start_ofOffsets (by omega), byteLength_append, hbefore]
      · rw [stop_ofOffsets (by omega), byteLength_append, hbefore]
    · have hlength : byteLength (before ++ (gap ++ text)) = pos + byteLength gap + byteLength text := by
        rw [byteLength_append, byteLength_append, hbefore, Nat.add_assoc]
      have hlater := ih hsize hlength t ht
      rwa [List.append_assoc, List.append_assoc] at hlater

theorem gaps (h : Tiles pos cs ts) (hsize : pos + byteLength cs < 2 ^ 32) {before : List Char}
    (hbefore : byteLength before = pos) :
    ∀ stop t, (stop, t) ∈ joints pos ts → ∃ gap,
      Between (before ++ cs) stop t.span.start.toNat gap ∧ Layout (t.kind = .endOfFile) gap := by
  induction h generalizing before with
  | @last pos gap hgap =>
    intro stop t ht
    obtain ⟨rfl, rfl⟩ := Prod.mk.inj (List.mem_singleton.mp ht)
    refine ⟨gap, ⟨before, [], by simp, hbefore, ?_⟩, hgap⟩
    rw [hbefore]
    exact (start_ofOffsets hsize).symm
  | @token pos gap text cs kind ts hgap hkind htext h ih =>
    simp only [byteLength_append, ← Nat.add_assoc] at hsize
    intro stop t ht
    rcases List.mem_cons.mp ht with heq | ht
    · obtain ⟨rfl, rfl⟩ := Prod.mk.inj heq
      refine ⟨gap, ⟨before, text ++ cs, rfl, hbefore, ?_⟩, ?_⟩
      · rw [start_ofOffsets (by omega), hbefore]
      · simpa only [hkind, decide_false] using hgap
    · have hstop : (Span.ofOffsets (pos + byteLength gap)
          (pos + byteLength gap + byteLength text)).stop.toNat = _ := stop_ofOffsets (by omega)
      have hlength : byteLength (before ++ (gap ++ text)) = pos + byteLength gap + byteLength text := by
        rw [byteLength_append, byteLength_append, hbefore, Nat.add_assoc]
      have hlater := ih hsize hlength stop t (hstop ▸ ht)
      rwa [List.append_assoc, List.append_assoc] at hlater

theorem owned (h : Tiles pos cs ts) (hsize : pos + byteLength cs < 2 ^ 32) {offset : Nat}
    (hpos : pos ≤ offset) (hlt : offset < pos + byteLength cs) :
    (∃ t ∈ ts, t.Holds offset) ∨
      ∃ stop t, (stop, t) ∈ joints pos ts ∧ stop ≤ offset ∧ offset < t.span.start.toNat := by
  induction h with
  | @last pos gap hgap =>
    refine .inr ⟨pos, _, List.mem_cons_self, hpos, ?_⟩
    exact hlt.trans_eq (start_ofOffsets hsize).symm
  | @token pos gap text cs kind ts hgap hkind htext h ih =>
    simp only [byteLength_append, ← Nat.add_assoc] at hsize hlt
    have hstart : (Span.ofOffsets (pos + byteLength gap)
        (pos + byteLength gap + byteLength text)).start.toNat = _ := start_ofOffsets (by omega)
    have hstop : (Span.ofOffsets (pos + byteLength gap)
        (pos + byteLength gap + byteLength text)).stop.toNat = _ := stop_ofOffsets (by omega)
    by_cases hgapped : offset < pos + byteLength gap
    · exact .inr ⟨pos, _, List.mem_cons_self, hpos, hgapped.trans_eq hstart.symm⟩
    by_cases hheld : offset < pos + byteLength gap + byteLength text
    · refine .inl ⟨_, List.mem_cons_self, ?_, ?_⟩
      · exact hstart.trans_le (Nat.not_lt.mp hgapped)
      · exact hheld.trans_eq hstop.symm
    · rcases ih hsize (Nat.not_lt.mp hheld) hlt with ⟨t, ht, hholds⟩ | ⟨stop, t, ht, hbounds⟩
      · exact .inl ⟨t, List.mem_cons_of_mem _ ht, hholds⟩
      · exact .inr ⟨stop, t, List.mem_cons_of_mem _ (hstop.symm ▸ ht), hbounds⟩

end Tiles

/-- Tokens that stand one behind the other have no byte in common. -/
theorem eq_of_holds {ts : List Token} (h : ts.Pairwise fun t u => t.span.stop ≤ u.span.start)
    {t u : Token} (ht : t ∈ ts) (hu : u ∈ ts) {offset : Nat} (hto : t.Holds offset)
    (huo : u.Holds offset) : t = u := by
  induction h with
  | nil => exact absurd ht List.not_mem_nil
  | @cons v ts hv _ ih =>
    have hapart : ∀ w ∈ ts, v.Holds offset → ¬ w.Holds offset := fun w hw hvo hwo => by
      have hle := UInt32.le_iff_toNat_le.mp (hv w hw)
      have := hvo.2
      have := hwo.1
      omega
    rcases List.mem_cons.mp ht with rfl | ht'
    · rcases List.mem_cons.mp hu with rfl | hu'
      · rfl
      · exact absurd huo (hapart u hu' hto)
    · rcases List.mem_cons.mp hu with rfl | hu'
      · exact absurd hto (hapart t ht' huo)
      · exact ih ht' hu'

/-- The tokens of a text shorter than 2 ^ 32 bytes leave out its blanks and comments, and nothing
else: all other characters belong to one token each. -/
theorem tokens_lossless (text : String) (h : text.utf8ByteSize < 2 ^ 32) :
    Lossless text (tokens text) := by
  have htiles : Tiles 0 text.toList (tokens text) := tiles_tokensFrom 0 text.toList
  have hlength := byteLength_toList text
  have hsize : 0 + byteLength text.toList < 2 ^ 32 := by
    rwa [Nat.zero_add, hlength]
  have hbefore : byteLength [] = 0 := rfl
  refine ⟨?_, htiles.ordered hsize, htiles.placed hsize hbefore, htiles.gaps hsize hbefore,
    fun offset hoffset => ?_⟩
  · have hended := htiles.ended hsize
    rwa [Nat.zero_add, hlength] at hended
  · have hlt : offset < 0 + byteLength text.toList := by
      rwa [Nat.zero_add, hlength]
    refine (htiles.owned hsize (Nat.zero_le _) hlt).imp_left fun ⟨t, ht, hholds⟩ => ?_
    exact ⟨t, ⟨ht, hholds⟩, fun u ⟨hu, huo⟩ => eq_of_holds (htiles.ordered hsize) hu ht huo hholds⟩

theorem tokens_lossless_behindComment : "# é\nx = \"é".utf8ByteSize < 2 ^ 32 ∧
    Lossless "# é\nx = \"é" (tokens "# é\nx = \"é") :=
  ⟨by decide, tokens_lossless _ (by decide)⟩

end DotScript.Syntax
