import Mathlib.Algebra.Group.Nat.Defs
import Mathlib.Data.List.GetD
import Mathlib.Data.List.Induction
import DotScript.Text.Source

/-!
# Lines and columns

The line of an offset counts the line feeds before it, and its column the bytes behind the last of
them. The table of line starts is that of a text in bytes, `lineStarts_toList`; what is in it up to an
offset are the line starts of the bytes before that offset, and the search finds how many there are,
`firstAbove_lineStarts`.

Main statement: `position_exact`.
-/

namespace DotScript.Text

/-! ## Bytes -/

/-- The byte that ends a line. -/
def lineFeed : UInt8 := 10

/-- The bytes of a text. -/
def Source.bytes (s : Source) : List UInt8 := s.text.toByteArray.data.toList

/-- The number of bytes behind the last line feed. -/
def behindLineFeed (bs : List UInt8) : Nat := (bs.reverse.takeWhile (· != lineFeed)).length

/-- The offsets behind the line feeds of bytes that begin at offset `pos`. -/
def breaks (pos : Nat) : List UInt8 → List Nat
  | [] => []
  | b :: bs => if b = lineFeed then (pos + 1) :: breaks (pos + 1) bs else breaks (pos + 1) bs

section
variable {pos : Nat} {bs cs : List UInt8}

theorem breaks_append (pos : Nat) (bs cs : List UInt8) :
    breaks pos (bs ++ cs) = breaks pos bs ++ breaks (pos + bs.length) cs := by
  induction bs generalizing pos with
  | nil => rfl
  | cons b bs ih =>
    have hpos : pos + 1 + bs.length = pos + (bs.length + 1) := by omega
    by_cases hb : b = lineFeed <;> simp [breaks, hb, ih, hpos]

theorem breaks_of_not_mem (h : lineFeed ∉ bs) (pos : Nat) : breaks pos bs = [] := by
  induction bs generalizing pos with
  | nil => rfl
  | cons b bs ih =>
    rw [List.mem_cons, not_or] at h
    rw [breaks, if_neg (Ne.symm h.1), ih h.2]

theorem length_breaks (pos : Nat) (bs : List UInt8) : (breaks pos bs).length = bs.count lineFeed := by
  induction bs generalizing pos with
  | nil => rfl
  | cons b bs ih => by_cases hb : b = lineFeed <;> simp [breaks, hb, ih]

/-- A break lies behind the byte it belongs to. -/
theorem bounds_of_mem_breaks {n : Nat} (h : n ∈ breaks pos bs) : pos < n ∧ n ≤ pos + bs.length := by
  induction bs generalizing pos with
  | nil => cases h
  | cons b bs ih =>
    have hrest : n ∈ breaks (pos + 1) bs → pos < n ∧ n ≤ pos + (b :: bs).length := by
      intro h
      obtain ⟨hlt, hle⟩ := ih h
      rw [List.length_cons]
      omega
    rw [breaks] at h
    split at h
    · rcases List.mem_cons.mp h with rfl | h
      · rw [List.length_cons]
        omega
      · exact hrest h
    · exact hrest h

/-- The last line start and what is behind it make up the bytes. -/
theorem getLast_breaks (pos : Nat) (bs : List UInt8) :
    (pos :: breaks pos bs).getLast (List.cons_ne_nil _ _) + behindLineFeed bs = pos + bs.length := by
  induction bs using List.reverseRecOn with
  | nil => rfl
  | append_singleton bs b ih =>
    by_cases hb : b = lineFeed
    · have hbreaks : breaks pos (bs ++ [b]) = breaks pos bs ++ [pos + bs.length + 1] := by
        simp [breaks_append, breaks, hb]
      have hbehind : behindLineFeed (bs ++ [b]) = 0 := by simp [behindLineFeed, hb]
      simp only [hbreaks, hbehind, ← List.cons_append, List.getLast_concat,
        List.length_append, List.length_singleton]
      omega
    · have hbehind : behindLineFeed (bs ++ [b]) = behindLineFeed bs + 1 := by
        simp [behindLineFeed, hb]
      have hbreaks : breaks pos (bs ++ [b]) = breaks pos bs := by
        simp [breaks_append, breaks, hb]
      simp only [hbreaks, hbehind, List.length_append, List.length_singleton]
      omega

end

/-! ## Line starts -/

theorem lineFeed_eq_ofNat_iff {n : Nat} : lineFeed = UInt8.ofNat n ↔ n % 256 = 10 := by
  rw [← UInt8.toNat_inj, UInt8.toNat_ofNat']
  exact eq_comm

/-- Of all bytes of characters, only that of the line feed ends a line. -/
theorem lineFeed_not_mem_utf8EncodeChar {c : Char} (hc : c ≠ '\n') :
    lineFeed ∉ String.utf8EncodeChar c := by
  have hval : c.val.toNat ≠ 10 := fun h => hc (Char.ext (UInt32.toNat_inj.mp h))
  have hlt : c.val.toNat < 1114112 := c.valid.elim (fun h => by omega) And.right
  simp only [String.utf8EncodeChar]
  split
  · simp only [List.mem_singleton, lineFeed_eq_ofNat_iff]
    omega
  -- A byte of a longer encoding is 128 at least.
  · split <;> [skip; split]
    all_goals
      simp only [List.mem_cons, List.not_mem_nil, or_false, lineFeed_eq_ofNat_iff]
      omega

/-- The line starts of characters are those of their bytes. -/
theorem startsFrom_eq (pos : Nat) (cs : List Char) :
    Source.startsFrom pos cs = (breaks pos (cs.flatMap String.utf8EncodeChar)).map Nat.toUInt32 := by
  induction cs generalizing pos with
  | nil => rfl
  | cons c cs ih =>
    rw [Source.startsFrom, List.flatMap_cons, breaks_append, List.map_append]
    by_cases hc : c = '\n'
    · subst hc
      rw [if_pos (by rfl), ih]
      rfl
    · rw [if_neg (by simpa using hc), ih, breaks_of_not_mem (lineFeed_not_mem_utf8EncodeChar hc),
        String.length_utf8EncodeChar]
      rfl

theorem lineStarts_toList (s : Source) :
    s.lineStarts.toList = (0 :: breaks 0 s.bytes).map Nat.toUInt32 := by
  have hbytes : s.text.toList.flatMap String.utf8EncodeChar = s.bytes := by
    rw [Source.bytes, ← String.utf8Encode_toList, List.utf8Encode, List.toList_data_toByteArray]
  rw [Source.lineStarts, startsFrom_eq, hbytes]
  rfl

theorem getD_lineStarts (s : Source) (j : Nat) :
    s.lineStarts.getD j 0 = ((0 :: breaks 0 s.bytes).getD j 0).toUInt32 := by
  rw [Array.getD_eq_getD_getElem?, ← Array.getElem?_toList, lineStarts_toList, List.getElem?_map,
    List.getD_eq_getElem?_getD]
  cases (0 :: breaks 0 s.bytes)[j]? <;> rfl

theorem lineCount_eq (s : Source) : s.lineCount = s.bytes.count lineFeed + 1 := by
  rw [Source.lineCount, ← Array.length_toList, lineStarts_toList, List.length_map, List.length_cons,
    length_breaks]

/-! ## The search -/

/-- The search finds where a table begins to exceed a value. -/
theorem firstAbove_eq {starts : Array UInt32} {pos : UInt32} {n lo hi : Nat}
    (hbelow : ∀ j < n, starts.getD j 0 ≤ pos)
    (habove : ∀ j, n ≤ j → j < hi → pos < starts.getD j 0) (hlo : lo ≤ n) (hhi : n ≤ hi) :
    Source.firstAbove starts pos lo hi = n := by
  fun_induction Source.firstAbove starts pos lo hi with
  | case1 lo hi hlt mid hmid ih =>
    refine ih habove ?_ hhi
    by_contra hn
    exact absurd hmid (UInt32.not_le.mpr (habove mid (by omega) (by omega)))
  | case2 lo hi hlt mid hmid ih =>
    refine ih (fun j hj hjmid => habove j hj (by omega)) hlo ?_
    by_contra hn
    exact hmid (hbelow mid (by omega))
  | case3 lo hi hlt => omega

section
variable {s : Source} {bs cs : List UInt8}

theorem toNat_toUInt32 {n : Nat} (h : n < 2 ^ 32) : n.toUInt32.toNat = n := UInt32.toNat_ofNat_of_lt h

/-- The line starts up to an offset are those of the bytes before it. -/
theorem firstAbove_lineStarts (h : s.bytes = bs ++ cs) (hsize : s.bytes.length < 2 ^ 32) :
    Source.firstAbove s.lineStarts bs.length.toUInt32 0 s.lineStarts.size =
      bs.count lineFeed + 1 := by
  have hlength : s.bytes.length = bs.length + cs.length := by rw [h, List.length_append]
  have hsplit : 0 :: breaks 0 s.bytes = (0 :: breaks 0 bs) ++ breaks bs.length cs := by
    rw [h, breaks_append, Nat.zero_add, List.cons_append]
  have hcount : (0 :: breaks 0 bs).length = bs.count lineFeed + 1 := by
    rw [List.length_cons, length_breaks]
  have hstarts : s.lineStarts.size = bs.count lineFeed + 1 + (breaks bs.length cs).length := by
    rw [← Array.length_toList, lineStarts_toList, List.length_map, hsplit, List.length_append, hcount]
  refine firstAbove_eq (fun j hj => ?_) (fun j hj hjsize => ?_) (Nat.zero_le _) (by omega)
  · rw [getD_lineStarts, hsplit, List.getD_append _ _ _ _ (by omega),
      List.getD_eq_getElem _ _ (by omega)]
    have hmem := List.getElem_mem (l := 0 :: breaks 0 bs) (n := j) (by omega)
    have hle : (0 :: breaks 0 bs)[j] ≤ bs.length := by
      rcases List.mem_cons.mp hmem with hzero | hmem
      · omega
      · have := bounds_of_mem_breaks hmem
        omega
    rw [UInt32.le_iff_toNat_le, toNat_toUInt32 (by omega), toNat_toUInt32 (by omega)]
    exact hle
  · rw [getD_lineStarts, hsplit, List.getD_append_right _ _ _ _ (by omega), hcount,
      List.getD_eq_getElem _ _ (by omega)]
    have hbounds := bounds_of_mem_breaks
      (List.getElem_mem (l := breaks bs.length cs) (n := j - (bs.count lineFeed + 1)) (by omega))
    rw [UInt32.lt_iff_toNat_lt, toNat_toUInt32 (by omega), toNat_toUInt32 (by omega)]
    exact hbounds.1

/-- Line and column of the offset behind some bytes, and where the line starts. -/
theorem position_eq (h : s.bytes = bs ++ cs) (hsize : s.bytes.length < 2 ^ 32 - 1) :
    (s.position bs.length.toUInt32).line.toNat = 1 + bs.count lineFeed ∧
      (s.position bs.length.toUInt32).column.toNat = 1 + behindLineFeed bs ∧
      ∃ start, s.lineStarts[bs.count lineFeed]? = some start ∧
        start.toNat + behindLineFeed bs = bs.length := by
  have hlength : s.bytes.length = bs.length + cs.length := by rw [h, List.length_append]
  have hcount : bs.count lineFeed ≤ bs.length := List.count_le_length
  obtain ⟨last, hlast⟩ : ∃ last, last = (0 :: breaks 0 bs).getLast (List.cons_ne_nil _ _) := ⟨_, rfl⟩
  have hsum : last + behindLineFeed bs = bs.length := by
    rw [hlast, getLast_breaks, Nat.zero_add]
  have hget : (0 :: breaks 0 s.bytes)[bs.count lineFeed]? = some last := by
    rw [h, breaks_append, Nat.zero_add, ← List.cons_append,
      List.getElem?_append_left (by simp [length_breaks]), hlast, List.getLast_eq_getElem,
      ← List.getElem?_eq_getElem]
    congr 1
    simp [length_breaks]
  have hstart : s.lineStarts[bs.count lineFeed]? = some last.toUInt32 := by
    rw [← Array.getElem?_toList, lineStarts_toList, List.getElem?_map, hget]
    rfl
  have hstartD : s.lineStarts.getD (bs.count lineFeed) 0 = last.toUInt32 := by
    rw [Array.getD_eq_getD_getElem?, hstart, Option.getD_some]
  simp only [Source.position, Source.lineIndex, firstAbove_lineStarts h (by omega),
    Nat.add_sub_cancel, hstartD]
  refine ⟨?_, ?_, _, hstart, ?_⟩
  · rw [toNat_toUInt32 (by omega), Nat.add_comm]
  · have hlastNat : last.toUInt32.toNat = last := toNat_toUInt32 (by omega)
    have hposNat : bs.length.toUInt32.toNat = bs.length := toNat_toUInt32 (by omega)
    split
    · next hle =>
      rw [UInt32.le_iff_toNat_le, hlastNat, hposNat] at hle
      have hzero : behindLineFeed bs = 0 := by omega
      rw [hzero]
      rfl
    · next hlt =>
      rw [UInt32.not_le, UInt32.lt_iff_toNat_lt, hlastNat, hposNat] at hlt
      have hsub : (bs.length.toUInt32 - last.toUInt32).toNat = behindLineFeed bs := by
        rw [UInt32.toNat_sub_of_le _ _ (UInt32.le_iff_toNat_le.mpr (by omega)), hlastNat, hposNat]
        omega
      rw [UInt32.toNat_add, hsub, UInt32.toNat_one]
      omega
  · rw [toNat_toUInt32 (by omega), hsum]

end

/-! ## Positions -/

/-- A position comes before another one: in an earlier line, or earlier in the same line. -/
def Position.Before (a b : Position) : Prop :=
  a.line < b.line ∨ a.line = b.line ∧ a.column < b.column

/-- A position is that of an offset. -/
structure Source.Exact (s : Source) (offset : Nat) (p : Position) : Prop where
  line : p.line.toNat = 1 + (s.bytes.take offset).count lineFeed
  column : p.column.toNat = 1 + behindLineFeed (s.bytes.take offset)
  /-- The start of the line and the column give the offset back. -/
  start : ∃ start, s.lineStarts[p.line.toNat - 1]? = some start ∧
    start.toNat + (p.column.toNat - 1) = offset
  line_le : p.line.toNat ≤ s.lineCount

section
variable {s : Source} {offset later : Nat}

theorem exact_position (hsize : s.bytes.length < 2 ^ 32 - 1) (hoffset : offset ≤ s.bytes.length) :
    s.Exact offset (s.position offset.toUInt32) := by
  have hlength : (s.bytes.take offset).length = offset :=
    List.length_take_of_le hoffset
  obtain ⟨hline, hcolumn, start, hstart, hsum⟩ :=
    position_eq (List.take_append_drop offset s.bytes).symm hsize
  rw [hlength] at hline hcolumn hsum
  refine ⟨hline, hcolumn, ⟨start, ?_, ?_⟩, ?_⟩
  · rw [hline, Nat.add_sub_cancel_left]
    exact hstart
  · rw [hcolumn, Nat.add_sub_cancel_left]
    exact hsum
  · have hcount := (List.take_sublist offset s.bytes).count_le lineFeed
    rw [hline, lineCount_eq]
    omega

theorem Source.Exact.before {p q : Position} (hp : s.Exact offset p) (hq : s.Exact later q)
    (hlt : offset < later) : p.Before q := by
  have hcount : (s.bytes.take offset).count lineFeed ≤ (s.bytes.take later).count lineFeed :=
    (List.take_sublist_take_left (Nat.le_of_lt hlt)).count_le lineFeed
  have hlines : p.line.toNat ≤ q.line.toNat := by
    rw [hp.line, hq.line]
    omega
  rcases Nat.lt_or_eq_of_le hlines with hline | hline
  · exact .inl (UInt32.lt_iff_toNat_lt.mpr hline)
  · -- In the same line both columns count from the same start.
    obtain ⟨start, hstart, hsum⟩ := hp.start
    obtain ⟨start', hstart', hsum'⟩ := hq.start
    rw [hline, hstart', Option.some.injEq] at hstart
    subst hstart
    have hcolumn := hp.column
    refine .inr ⟨UInt32.toNat_inj.mp hline, UInt32.lt_iff_toNat_lt.mpr ?_⟩
    omega

end

/-- Lines and columns are exact. The line of an offset is the number of line feeds before it, and its
column the number of bytes behind the last of them, both counted from one; so the start of the line
gives the offset back. Positions are ordered as offsets are, and there is no line behind the last. -/
theorem position_exact (s : Source) (hsize : s.text.utf8ByteSize < 2 ^ 32 - 1) :
    (∀ offset ≤ s.text.utf8ByteSize, s.Exact offset (s.position offset.toUInt32)) ∧
      ∀ offset later, offset < later → later ≤ s.text.utf8ByteSize →
        (s.position offset.toUInt32).Before (s.position later.toUInt32) := by
  have hbytes : s.bytes.length = s.text.utf8ByteSize := rfl
  rw [← hbytes] at hsize ⊢
  refine ⟨fun offset hoffset => exact_position hsize hoffset, fun offset later hlt hlater => ?_⟩
  exact (exact_position hsize (by omega)).before (exact_position hsize hlater) hlt

/-- A blank line behind a character of two bytes. -/
theorem position_exact_blankLine :
    let s : Source := ⟨"main", "é\n\nb"⟩
    s.text.utf8ByteSize < 2 ^ 32 - 1 ∧ s.Exact 3 (s.position 3) ∧
      (s.position 3).Before (s.position 4) := by
  intro s
  have hsize : s.text.utf8ByteSize = 5 := by decide
  have hlt : s.text.utf8ByteSize < 2 ^ 32 - 1 := by omega
  obtain ⟨hexact, hbefore⟩ := position_exact s hlt
  exact ⟨hlt, hexact 3 (by omega), hbefore 3 4 (by decide) (by omega)⟩

end DotScript.Text
