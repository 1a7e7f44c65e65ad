import DotScript.Json.Reader
import DotScript.Proofs.Json.Standard
import DotScript.Proofs.Number.Literal
import Mathlib.Data.List.TakeWhile

/-!
# The reader keeps to the standard

The reader of this library takes every standard text, up to what follows it. Behind a document this may be
the end, white space, a comma or a closing bracket, `Ends`, which is where a number stops. A text as long as
the fuel is read before the fuel runs out, since every step takes a character or closes an array or object.

* `Takes`: a reader takes a text and gives something for it;
* `takes_number`, `takes_string`: the texts of integers and of strings;
* `Reads`, `ReadsItems`, `ReadsFields`: the texts of documents, and what follows an item or a field; one
  lemma for each rule of the standard.

Main statement: `read_of_spelledBy`.
-/

namespace DotScript.Json

variable {α : Type} {rest : List Char} {off : Nat}

/-- The characters that end a number. -/
def endings : List Char := [' ', '\n', '\t', '\r', ',', ']', '\x7d']

/-- What may follow a document. -/
def Ends (rest : List Char) : Prop := ∀ c, rest.head? = some c → c ∈ endings

theorem ends_nil : Ends [] := nofun

theorem ends_cons {c : Char} (h : c ∈ endings) : Ends (c :: rest) := by
  rintro d ⟨⟩
  exact h

theorem ends_blank {b : List Char} (hb : Blank b) (h : Ends rest) : Ends (b ++ rest) := by
  cases b with
  | nil => exact h
  | cons c b =>
    have hc : isSpace c = true := hb c List.mem_cons_self
    simp only [isSpace, Bool.or_eq_true, beq_iff_eq] at hc
    obtain ((rfl | rfl) | rfl) | rfl := hc <;> exact ends_cons (by decide)

theorem ends_append {b : List Char} (hb : Blank b) {c : Char} (h : c ∈ endings) (t rest : List Char) :
    Ends (b ++ c :: t ++ rest) := by
  rw [List.append_assoc]
  exact ends_blank hb (ends_cons h)

/-- A reader takes a text, whatever admissible follows, and gives something for it. -/
def Takes (follows : List Char → Prop) (r : Reader α) (text : List Char) (a : α) : Prop :=
  ∀ rest off, follows rest → ∃ off', r ⟨text ++ rest, off⟩ = .ok (a, ⟨rest, off'⟩)

/-! ## White space -/

theorem skipSpace_cons {c : Char} (h : isSpace c = false) :
    skipSpace ⟨c :: rest, off⟩ = ⟨c :: rest, off⟩ := by
  simp [skipSpace, h]

theorem skipSpace_blank {b : List Char} (hb : Blank b) {c : Char} (h : isSpace c = false)
    (rest : List Char) (off : Nat) :
    ∃ off', skipSpace ⟨b ++ c :: rest, off⟩ = ⟨c :: rest, off'⟩ := by
  refine ⟨off + b.length, ?_⟩
  rw [skipSpace, List.dropWhile_append_of_pos hb, List.takeWhile_append_of_pos hb]
  simp [h]

theorem skipSpace_all {b : List Char} (hb : Blank b) (off : Nat) :
    ∃ off', skipSpace ⟨b, off⟩ = ⟨[], off'⟩ :=
  ⟨_, congrArg (fun cs => Cursor.mk cs _) (List.dropWhile_eq_nil_iff.mpr hb)⟩

/-! ## Numbers -/

theorem le_ofDigitChars (ds : List Char) (n : Nat) : n ≤ Nat.ofDigitChars 10 ds n := by
  induction ds generalizing n with
  | nil => exact Nat.le_refl n
  | cons d ds ih => exact Nat.le_trans (by omega) (ih (10 * n + (d.toNat - '0'.toNat)))

/-- Digits whose value fits are all kept. -/
theorem appendDigits_eq {ds : List Char} {n : Nat} (h : Nat.ofDigitChars 10 ds n ≤ maxSignificand) :
    appendDigits n ds = (Nat.ofDigitChars 10 ds n, ds.length) := by
  induction ds generalizing n with
  | nil => rfl
  | cons d ds ih =>
    have hnext : 10 * n + (d.toNat - '0'.toNat) ≤ maxSignificand :=
      Nat.le_trans (le_ofDigitChars ds _) h
    simp only [appendDigits, if_pos hnext, ih h, List.length_cons]
    rfl

theorem appendDigits_toDigits {k : Nat} (h : k ≤ maxSignificand) :
    appendDigits 0 (Nat.toDigits 10 k) = (k, (Nat.toDigits 10 k).length) := by
  have hvalue : Nat.ofDigitChars 10 (Nat.toDigits 10 k) 0 = k := Nat.ofDigitChars_ten_toDigits
  rw [appendDigits_eq (hvalue.symm ▸ h), hvalue]

/-- Behind its digits an integer ends. -/
theorem readFraction_toDigits (negative : Bool) {k : Nat} (h : k ≤ maxSignificand)
    (hrest : Ends rest) (off : Nat) : readFraction negative (Nat.toDigits 10 k) ⟨rest, off⟩ =
      .ok (numberOfInteger negative k, ⟨rest, off⟩) := by
  have hnone : ∀ c, rest.head? = some c → c ≠ '.' ∧ c ≠ 'e' ∧ c ≠ 'E' := by
    intro c hc
    have hends : ∀ c ∈ endings, c ≠ '.' ∧ c ≠ 'e' ∧ c ≠ 'E' := by simp [endings]
    exact hends c (hrest c hc)
  simp only [readFraction, appendDigits_toDigits h, Int.sub_self, if_true]
  split
  · exact absurd rfl (hnone '.' rfl).1
  · exact absurd rfl (hnone 'e' rfl).2.1
  · exact absurd rfl (hnone 'E' rfl).2.2
  · rfl

theorem head_toDigits {k : Nat} (hk : 0 < k) : (Nat.toDigits 10 k).head? ≠ some '0' := by
  induction k using Nat.strongRecOn with
  | ind k ih =>
    rw [Nat.toDigits_eq_if (by decide)]
    split
    · intro h
      have hzero := Nat.digitChar_eq_zero.mp (Option.some.inj h)
      omega
    · next hge =>
      rw [List.head?_append_of_ne_nil _ Nat.toDigits_ne_nil]
      exact ih (k / 10) (by omega) (by omega)

theorem isDigit_of_mem_toDigits {k : Nat} {c : Char} (h : c ∈ Nat.toDigits 10 k) :
    c.isDigit = true := Nat.isDigit_of_mem_toDigits (by decide) (by decide) h

theorem Ends.isDigit_eq_false (h : Ends rest) {c : Char} (hc : rest.head? = some c) :
    c.isDigit = false := by
  have hends : ∀ c ∈ endings, c.isDigit = false := by simp [endings]
  exact hends c (h c hc)

theorem digits_toDigits (k : Nat) (hrest : Ends rest) (off : Nat) :
    digits ⟨Nat.toDigits 10 k ++ rest, off⟩ =
      (Nat.toDigits 10 k, ⟨rest, off + (Nat.toDigits 10 k).length⟩) := by
  have hstop : rest.takeWhile Char.isDigit = [] ∧ rest.dropWhile Char.isDigit = rest := by
    cases rest with
    | nil => exact ⟨rfl, rfl⟩
    | cons c cs => simp [hrest.isDigit_eq_false rfl]
  have hall : ∀ c ∈ Nat.toDigits 10 k, c.isDigit = true := fun c => isDigit_of_mem_toDigits
  simp only [digits, List.takeWhile_append_of_pos hall, List.dropWhile_append_of_pos hall, hstop,
    List.append_nil]

theorem takes_number (negative : Bool) {k : Nat} (h : k ≤ maxSignificand) :
    Takes Ends (readNumber negative) (Nat.toDigits 10 k) (numberOfInteger negative k) := by
  intro rest off hrest
  rcases Nat.eq_zero_or_pos k with rfl | hk
  · rw [Nat.toDigits_zero, List.singleton_append]
    refine ⟨off + 1, ?_⟩
    have hend := readFraction_toDigits negative h hrest (off + 1)
    rw [Nat.toDigits_zero] at hend
    cases rest with
    | nil => exact hend
    | cons c cs =>
      refine (if_neg ?_).trans hend
      exact Bool.eq_false_iff.mp (hrest.isDigit_eq_false rfl)
  · cases hdigits : Nat.toDigits 10 k with
    | nil => exact absurd hdigits Nat.toDigits_ne_nil
    | cons d ds =>
      have hd : d.isDigit = true := isDigit_of_mem_toDigits (hdigits ▸ List.mem_cons_self)
      have hzero : d ≠ '0' := by
        rintro rfl
        exact head_toDigits hk (hdigits ▸ rfl)
      have hall := digits_toDigits k hrest off
      rw [hdigits, List.cons_append] at hall
      refine ⟨off + (d :: ds).length, ?_⟩
      rw [List.cons_append, readNumber]
      split
      · next heq => cases heq
      · next heq =>
        cases heq
        exact absurd rfl hzero
      · next heq =>
        cases heq
        rw [if_pos hd, hall]
        exact hdigits ▸ readFraction_toDigits negative h hrest _

/-! ## Strings -/

theorem readHex_cons {a b d e : Char} {n : Nat} (h : hexValue? a b d e = some n) (cs : List Char)
    (off : Nat) : readHex ⟨a :: b :: d :: e :: cs, off⟩ = .ok (n, ⟨cs, off + 4⟩) := by
  have hsize : ¬ bytes [a, b, d, e] < 4 := by
    have ha := a.utf8Size_pos
    have hb := b.utf8Size_pos
    have hd := d.utf8Size_pos
    have he := e.utf8Size_pos
    simp only [bytes, List.foldl_cons, List.foldl_nil]
    omega
  simp only [readHex, List.take_succ_cons, List.take_zero, if_neg hsize, h]

/-- A character that is written by its code alone. -/
theorem readCode_code {a b d e c : Char} (h : hexValue? a b d e = some c.toNat) (cs : List Char)
    (off : Nat) : readCode ⟨a :: b :: d :: e :: cs, off⟩ = .ok (c, ⟨cs, off + 4⟩) := by
  have hvalid : ¬ (0xD800 ≤ c.toNat ∧ c.toNat ≤ 0xDFFF) := by
    have hrange : c.toNat < 0xD800 ∨ 0xDFFF < c.toNat ∧ c.toNat < 0x110000 := c.valid
    omega
  rw [readCode, readHex_cons h]
  simp only [bind, Except.bind]
  rw [if_neg (by omega), if_pos (by omega), Char.ofNat_toNat]

/-- A character that is written by two surrogates. -/
theorem readCode_pair {a b d e a' b' d' e' c : Char} {high low : Nat} (hhigh : high < 0x400)
    (hlow : low < 0x400) (h : hexValue? a b d e = some (0xD800 + high))
    (h' : hexValue? a' b' d' e' = some (0xDC00 + low))
    (hc : c.toNat = 0x10000 + high * 0x400 + low) (cs : List Char) (off : Nat) :
    readCode ⟨a :: b :: d :: e :: '\\' :: 'u' :: a' :: b' :: d' :: e' :: cs, off⟩ =
      .ok (c, ⟨cs, off + 4 + '\\'.utf8Size + 'u'.utf8Size + 4⟩) := by
  have hcode : (0xD800 + high - 0xD800) * 0x400 + (0xDC00 + low - 0xDC00) + 0x10000 = c.toNat := by
    omega
  rw [readCode, readHex_cons h]
  simp only [bind, Except.bind]
  rw [if_neg (by omega), if_neg (by omega)]
  simp only [expectPart, if_true, Cursor.advance, readHex_cons h']
  rw [if_neg (by omega), hcode, Char.ofNat_toNat]

theorem readStringFrom_escape (read : List Char) (fuel : Nat) {c : Char} {cs : List Char}
    {c' : Cursor} (h : readEscape ⟨cs, off + 1⟩ = .ok (c, c')) :
    readStringFrom read (fuel + 1) ⟨'\\' :: cs, off⟩ = readStringFrom (c :: read) fuel c' := by
  show (readEscape ⟨cs, off + 1⟩ >>= fun r => readStringFrom (r.1 :: read) fuel r.2) = _
  rw [h]
  rfl

/-- Each character is read from any of its spellings. -/
theorem readStringFrom_char {c : Char} {t : List Char} (h : SpellsChar c t) (read : List Char)
    (fuel : Nat) (rest : List Char) (off : Nat) :
    ∃ off', readStringFrom read (fuel + 1) ⟨t ++ rest, off⟩ =
      readStringFrom (c :: read) fuel ⟨rest, off'⟩ := by
  cases h with
  | plain hcontrol hquote hescape =>
    refine ⟨off + c.utf8Size, ?_⟩
    rw [List.singleton_append, readStringFrom]
    split
    · next heq => cases heq
    · next heq =>
      cases heq
      exact absurd rfl hquote
    · next heq =>
      cases heq
      exact absurd rfl hescape
    · next heq =>
      cases heq
      exact if_neg (Nat.not_lt.mpr hcontrol)
  | @short e c h =>
    simp only [shortEscapes, List.mem_cons, Prod.mk.injEq, List.not_mem_nil, or_false] at h
    obtain ⟨rfl, rfl⟩ | ⟨rfl, rfl⟩ | ⟨rfl, rfl⟩ | ⟨rfl, rfl⟩ | ⟨rfl, rfl⟩ | ⟨rfl, rfl⟩ | ⟨rfl, rfl⟩ |
      ⟨rfl, rfl⟩ := h <;> exact ⟨off + 2, rfl⟩
  | code h => exact ⟨_, readStringFrom_escape read fuel (readCode_code h rest (off + 1 + 1))⟩
  | pair hhigh hlow h h' hc =>
    exact ⟨_, readStringFrom_escape read fuel (readCode_pair hhigh hlow h h' hc rest (off + 1 + 1))⟩

theorem SpellsChars.length_le {cs t : List Char} (h : SpellsChars cs t) : cs.length ≤ t.length := by
  induction h with
  | nil => exact Nat.le_refl 0
  | @cons c t cs ts hc _ ih =>
    have hpos : 0 < t.length := by
      cases hc <;> exact Nat.succ_pos _
    rw [List.length_cons, List.length_append]
    omega

theorem readStringFrom_chars {cs t : List Char} (h : SpellsChars cs t) (read : List Char) {fuel : Nat}
    (hfuel : cs.length < fuel) (rest : List Char) (off : Nat) :
    ∃ off', readStringFrom read fuel ⟨t ++ '"' :: rest, off⟩ =
      .ok (String.ofList (read.reverse ++ cs), ⟨rest, off'⟩) := by
  induction h generalizing read fuel off with
  | nil =>
    obtain ⟨fuel, rfl⟩ := Nat.exists_eq_add_one_of_ne_zero (Nat.ne_zero_of_lt hfuel)
    exact ⟨off + 1, by rw [List.append_nil]; rfl⟩
  | @cons c t cs ts hc _ ih =>
    obtain ⟨fuel, rfl⟩ := Nat.exists_eq_add_one_of_ne_zero (Nat.ne_zero_of_lt hfuel)
    obtain ⟨off₁, hchar⟩ := readStringFrom_char hc read fuel (ts ++ '"' :: rest) off
    obtain ⟨off₂, hchars⟩ := ih (c :: read) (Nat.lt_of_succ_lt_succ hfuel) off₁
    refine ⟨off₂, ?_⟩
    rw [List.append_assoc, hchar, hchars, List.reverse_cons, List.append_assoc, List.singleton_append]

theorem takes_string {s : String} {t : List Char} (h : SpellsChars s.toList t) :
    Takes (fun _ => True) readString (t ++ ['"']) s := by
  intro rest off _
  have hlength := h.length_le
  obtain ⟨off', hread⟩ := readStringFrom_chars h []
    (Nat.lt_succ_of_le (Nat.le_trans hlength (Nat.le_add_right _ ('"' :: rest).length))) rest off
  refine ⟨off', ?_⟩
  rw [List.append_assoc, List.singleton_append, readString]
  rw [← List.length_append] at hread
  rw [hread, List.reverse_nil, List.nil_append, String.ofList_toList]

/-! ## Documents -/

variable {depth : Nat}

/-- A text is read as a document, with so many levels left to open. -/
structure Reads (depth : Nat) (j : Json) (text : List Char) : Prop where
  begins : ∃ c cs, text = c :: cs ∧ isSpace c = false ∧ c ≠ ']'
  takes : ∀ fuel, text.length ≤ fuel → Takes Ends (readValue depth fuel) text j

/-- White space before a document makes no difference. -/
theorem Reads.takes_blank {j : Json} {t b : List Char} (h : Reads depth j t) (hb : Blank b)
    {fuel : Nat} (hfuel : t.length ≤ fuel) : Takes Ends (readValue depth fuel) (b ++ t) j := by
  intro rest off hrest
  obtain ⟨c, cs, rfl, hspace, -⟩ := h.begins
  obtain ⟨fuel, rfl⟩ := Nat.exists_eq_add_one_of_ne_zero (Nat.ne_zero_of_lt hfuel)
  obtain ⟨off', hskip⟩ := skipSpace_blank hb hspace (cs ++ rest) off
  obtain ⟨off'', hread⟩ := h.takes _ hfuel rest off' hrest
  refine ⟨off'', ?_⟩
  rw [List.cons_append, readValue, skipSpace_cons hspace] at hread
  rw [List.append_assoc, List.cons_append, readValue, hskip]
  exact hread

theorem expectWord_append (word rest : List Char) (off : Nat) :
    ∃ off', expectWord word ⟨word ++ rest, off⟩ = .ok ⟨rest, off'⟩ := by
  induction word generalizing off with
  | nil => exact ⟨off, rfl⟩
  | cons c word ih =>
    obtain ⟨off', h⟩ := ih (off + c.utf8Size)
    exact ⟨off', (if_pos rfl).trans h⟩

/-- A word that the first letter tells. -/
theorem reads_word {j : Json} {c : Char} {word : List Char} (hspace : isSpace c = false)
    (hclose : c ≠ ']') (hread : ∀ fuel rest off, readValue depth (fuel + 1) ⟨c :: rest, off⟩ =
      (expectWord word ⟨rest, off + c.utf8Size⟩).map (j, ·)) : Reads depth j (c :: word) where
  begins := ⟨c, word, rfl, hspace, hclose⟩
  takes
    | fuel + 1, _, rest, off, _ => by
      obtain ⟨off', h⟩ := expectWord_append word rest (off + c.utf8Size)
      refine ⟨off', ?_⟩
      rw [List.cons_append, hread, h]
      rfl

theorem reads_null : Reads depth null "null".toList := by
  have htext : "null".toList = 'n' :: "ull".toList := by decide
  rw [htext]
  refine reads_word rfl (by decide) fun fuel rest off => ?_
  rw [readValue, skipSpace_cons rfl]
  rfl

theorem reads_bool (b : Bool) : Reads depth (bool b) (boolText b).toList := by
  cases b with
  | true =>
    have htext : (boolText true).toList = 't' :: "rue".toList := by decide
    rw [htext]
    refine reads_word rfl (by decide) fun fuel rest off => ?_
    rw [readValue, skipSpace_cons rfl]
    rfl
  | false =>
    have htext : (boolText false).toList = 'f' :: "alse".toList := by decide
    rw [htext]
    refine reads_word rfl (by decide) fun fuel rest off => ?_
    rw [readValue, skipSpace_cons rfl]
    rfl

theorem reads_str {s : String} {t : List Char} (h : SpellsChars s.toList t) :
    Reads depth (str s) ('"' :: (t ++ ['"'])) where
  begins := ⟨'"', _, rfl, rfl, by decide⟩
  takes
    | fuel + 1, _, rest, off, _ => by
      obtain ⟨off', hread⟩ := takes_string h rest (off + 1) trivial
      refine ⟨off', ?_⟩
      rw [List.cons_append, readValue, skipSpace_cons rfl]
      show (readString ⟨t ++ ['"'] ++ rest, off + 1⟩ >>= fun r => pure (str r.1, r.2)) = _
      rw [hread]
      rfl

theorem isSpace_of_isDigit {c : Char} (h : c.isDigit = true) : isSpace c = false := by
  simp only [isSpace, Bool.or_eq_false_iff, beq_eq_false_iff_ne]
  refine ⟨⟨⟨?_, ?_⟩, ?_⟩, ?_⟩ <;>
  · rintro rfl
    cases h

/-- A digit begins a number. -/
theorem readValue_digit (depth fuel : Nat) {c : Char} (h : c.isDigit = true) (cs : List Char)
    (off : Nat) : readValue depth (fuel + 1) ⟨c :: cs, off⟩ = readNumber false ⟨c :: cs, off⟩ := by
  have hspace := isSpace_of_isDigit h
  rw [readValue, skipSpace_cons hspace]
  simp only
  split <;> exact if_pos h

theorem reads_natural {k : Nat} (h : k ≤ maxSignificand) :
    Reads depth (int k) (Nat.toDigits 10 k) := by
  obtain ⟨d, ds, hdigits⟩ : ∃ d ds, Nat.toDigits 10 k = d :: ds :=
    List.exists_cons_of_ne_nil Nat.toDigits_ne_nil
  have hd : d.isDigit = true := isDigit_of_mem_toDigits (hdigits ▸ List.mem_cons_self)
  refine ⟨⟨d, ds, hdigits, isSpace_of_isDigit hd, ?_⟩, fun fuel hfuel rest off hrest => ?_⟩
  · rintro rfl
    cases hd
  · rw [hdigits] at hfuel
    obtain ⟨fuel, rfl⟩ := Nat.exists_eq_add_one_of_ne_zero (Nat.ne_zero_of_lt hfuel)
    obtain ⟨off', hread⟩ := takes_number false h rest off hrest
    refine ⟨off', ?_⟩
    rw [hdigits, List.cons_append] at hread ⊢
    rw [readValue_digit depth fuel hd, hread]
    rfl

theorem reads_negative {k : Nat} (hpos : 0 < k) (h : k ≤ 0x8000000000000000) :
    Reads depth (int (-k)) ('-' :: Nat.toDigits 10 k) where
  begins := ⟨'-', _, rfl, rfl, by decide⟩
  takes
    | fuel + 1, _, rest, off, hrest => by
      have hkept : ¬ (k = 0 ∨ 0x8000000000000000 < k) := by omega
      have hnumber : numberOfInteger true k = int (-k) := if_neg hkept
      obtain ⟨off', hread⟩ := takes_number true (Nat.le_trans h (by decide)) rest (off + 1) hrest
      refine ⟨off', ?_⟩
      rw [List.cons_append, readValue, skipSpace_cons rfl, ← hnumber]
      exact hread

theorem reads_int {i : Int} (hmin : -0x8000000000000000 ≤ i) (hmax : i ≤ 0xFFFFFFFFFFFFFFFF) :
    Reads depth (int i) (toString i).toList := by
  cases i with
  | ofNat k =>
    have htext : (toString (Int.ofNat k)).toList = Nat.toDigits 10 k := String.toList_ofList
    rw [htext]
    exact reads_natural (Int.ofNat_le.mp hmax)
  | negSucc k =>
    have htext : (toString (Int.negSucc k)).toList = '-' :: Nat.toDigits 10 (k + 1) := by
      rw [Int.toString_eq_repr, Int.repr, String.toList_append, Nat.toList_repr]
      rfl
    rw [htext]
    exact reads_negative (Nat.succ_pos k) (by omega)

/-! ## Arrays -/

/-- Behind an opening bracket stand the items, with one level less. -/
theorem readValue_array {fuel : Nat} {cs : List Char} {js : List Json} {c : Cursor} (hdepth : 0 < depth)
    (h : readFirstItem depth fuel ⟨cs, off + 1⟩ = .ok (js, c)) :
    readValue (depth + 1) (fuel + 1) ⟨'[' :: cs, off⟩ = .ok (array js, c) := by
  have hlevel : ¬ depth + 1 ≤ 1 := by omega
  rw [readValue, skipSpace_cons rfl]
  refine (if_neg hlevel).trans ?_
  show (readFirstItem depth fuel ⟨cs, off + 1⟩ >>= fun r => pure (array r.1, r.2)) = _
  rw [h]
  rfl

/-- What stands behind an item is read as further items. -/
structure ReadsItems (depth : Nat) (js : List Json) (text : List Char) : Prop where
  ends : ∀ rest, Ends (text ++ rest)
  length_pos : 0 < text.length
  takes : ∀ fuel, text.length ≤ fuel → Takes (fun _ => True) (readMoreItems depth fuel) text js

theorem readsItems_close {b : List Char} (hb : Blank b) : ReadsItems depth [] (b ++ [']']) where
  ends := ends_append hb (by decide) _
  length_pos := by
    rw [List.length_append]
    exact Nat.succ_pos _
  takes fuel hfuel rest off _ := by
    rw [List.length_append] at hfuel
    obtain ⟨fuel, rfl⟩ := Nat.exists_eq_add_one_of_ne_zero (Nat.ne_zero_of_lt hfuel)
    obtain ⟨off', hskip⟩ := skipSpace_blank (c := ']') hb rfl rest off
    refine ⟨off' + 1, ?_⟩
    rw [List.append_assoc, List.singleton_append, readMoreItems, hskip]
    rfl

section
variable {b b' t ts : List Char} {j : Json} {js : List Json}

/-- An item and what stands behind it. -/
theorem takes_items (h : Reads depth j t) (hs : ReadsItems depth js ts) (fuel : Nat)
    (hfuel : t.length ≤ fuel) (hfuel' : ts.length ≤ fuel) (rest : List Char) (off : Nat) :
    ∃ off', (do
      let (j, c) ← readValue depth fuel ⟨t ++ (ts ++ rest), off⟩
      let (js, c) ← readMoreItems depth fuel c
      return (j :: js, c)) = Except.ok (j :: js, ⟨rest, off'⟩) := by
  obtain ⟨off₁, h₁⟩ := h.takes fuel hfuel (ts ++ rest) off (hs.ends rest)
  obtain ⟨off₂, h₂⟩ := hs.takes fuel hfuel' rest off₁ trivial
  refine ⟨off₂, ?_⟩
  simp only [h₁, bind, Except.bind, h₂]
  rfl

/-- Behind a comma stands an item. -/
theorem readsItems_more (hb : Blank b) (hb' : Blank b') (h : Reads depth j t)
    (hs : ReadsItems depth js ts) : ReadsItems depth (j :: js) (b ++ ',' :: (b' ++ (t ++ ts))) where
  ends := ends_append hb (by decide) _
  length_pos := by
    rw [List.length_append]
    exact Nat.lt_add_left _ (Nat.succ_pos _)
  takes fuel hfuel rest off _ := by
    obtain ⟨c, cs, rfl, hspace, hclose⟩ := h.begins
    simp only [List.length_append, List.length_cons] at hfuel
    obtain ⟨fuel, rfl⟩ : ∃ n, fuel = n + 1 := ⟨fuel - 1, by omega⟩
    obtain ⟨off₁, hskip⟩ := skipSpace_blank (c := ',') hb rfl (b' ++ (c :: cs ++ (ts ++ rest))) off
    obtain ⟨off₂, hskip'⟩ := skipSpace_blank hb' hspace (cs ++ (ts ++ rest)) (off₁ + 1)
    obtain ⟨off₃, hitems⟩ := takes_items h hs fuel (by simp only [List.length_cons]; omega)
      (by omega) rest off₂
    have hnext : skipSpace (Cursor.advance ⟨',' :: (b' ++ (c :: cs ++ (ts ++ rest))), off₁⟩) =
        ⟨c :: (cs ++ (ts ++ rest)), off₂⟩ := hskip'
    refine ⟨off₃, ?_⟩
    rw [List.append_assoc, List.cons_append, List.append_assoc, List.append_assoc, readMoreItems, hskip]
    simp only [hnext]
    split
    · next heq => cases heq
    · next heq => exact absurd (List.cons.inj heq).1 hclose
    · exact hitems

/-- An array takes one level more than its items. -/
theorem reads_array (hb : Blank b) (hdepth : 0 < depth) (h : Reads depth j t)
    (hs : ReadsItems depth js ts) :
    Reads (depth + 1) (array (j :: js)) ('[' :: (b ++ (t ++ ts))) where
  begins := ⟨'[', _, rfl, rfl, by decide⟩
  takes fuel hfuel rest off _ := by
    have hpos := hs.length_pos
    obtain ⟨c, cs, rfl, hspace, hclose⟩ := h.begins
    simp only [List.length_append, List.length_cons] at hfuel
    obtain ⟨fuel, rfl⟩ : ∃ n, fuel = n + 1 + 1 := ⟨fuel - 2, by omega⟩
    obtain ⟨off₁, hskip⟩ := skipSpace_blank hb hspace (cs ++ (ts ++ rest)) (off + 1)
    obtain ⟨off₂, hitems⟩ := takes_items h hs fuel (by simp only [List.length_cons]; omega)
      (by omega) rest off₁
    have hfirst : readFirstItem depth (fuel + 1) ⟨b ++ (c :: cs ++ (ts ++ rest)), off + 1⟩ =
        .ok (j :: js, ⟨rest, off₂⟩) := by
      rw [readFirstItem, List.cons_append, hskip]
      simp only
      split
      · next heq => cases heq
      · next heq => exact absurd (List.cons.inj heq).1 hclose
      · exact hitems
    refine ⟨off₂, ?_⟩
    rw [List.cons_append, List.append_assoc, List.append_assoc]
    exact readValue_array hdepth hfirst

end

theorem reads_emptyArray {b : List Char} (hb : Blank b) (hdepth : 0 < depth) :
    Reads (depth + 1) (array []) ('[' :: (b ++ [']'])) where
  begins := ⟨'[', _, rfl, rfl, by decide⟩
  takes fuel hfuel rest off _ := by
    simp only [List.length_append, List.length_cons, List.length_nil] at hfuel
    obtain ⟨fuel, rfl⟩ : ∃ n, fuel = n + 1 + 1 := ⟨fuel - 2, by omega⟩
    obtain ⟨off', hskip⟩ := skipSpace_blank (c := ']') hb rfl rest (off + 1)
    refine ⟨off' + 1, ?_⟩
    rw [List.cons_append, List.append_assoc, List.singleton_append]
    refine readValue_array hdepth ?_
    rw [readFirstItem, hskip]
    rfl

/-! ## Objects -/

/-- Behind an opening brace stand the fields, with one level less. -/
theorem readValue_object {fuel : Nat} {cs : List Char} {table : Table String Json} {c : Cursor}
    (hdepth : 0 < depth) (h : readFirstField depth fuel ⟨cs, off + 1⟩ = .ok (table, c)) :
    readValue (depth + 1) (fuel + 1) ⟨'\x7b' :: cs, off⟩ = .ok (object table, c) := by
  have hlevel : ¬ depth + 1 ≤ 1 := by omega
  rw [readValue, skipSpace_cons rfl]
  refine (if_neg hlevel).trans ?_
  show (readFirstField depth fuel ⟨cs, off + 1⟩ >>= fun r => pure (object r.1, r.2)) = _
  rw [h]
  rfl

/-- A field is read and stored, before what stands behind it is read. -/
structure ReadsField (depth : Nat) (f : String × Json) (text : List Char) : Prop where
  begins : ∃ cs, text = '"' :: cs ∧ 2 ≤ cs.length
  takes : ∀ fuel, text.length ≤ fuel + 2 → ∀ table rest off, Ends rest →
    ∃ off', readField depth (fuel + 1) table ⟨text ++ rest, off⟩ =
      readMoreFields depth fuel (table.insert f.1 f.2) ⟨rest, off'⟩

theorem readsField_mk {k : String} {j : Json} {key b b' t : List Char}
    (hk : SpellsChars k.toList key) (hb : Blank b) (hb' : Blank b') (h : Reads depth j t) :
    ReadsField depth (k, j) ('"' :: (key ++ '"' :: (b ++ ':' :: (b' ++ t)))) where
  begins := ⟨_, rfl, by
    simp only [List.length_append, List.length_cons]
    omega⟩
  takes fuel hfuel table rest off hrest := by
    simp only [List.length_append, List.length_cons] at hfuel
    obtain ⟨off₁, hkey⟩ := takes_string hk (b ++ ':' :: (b' ++ (t ++ rest))) (off + 1) trivial
    obtain ⟨off₂, hskip⟩ := skipSpace_blank (c := ':') hb rfl (b' ++ (t ++ rest)) off₁
    obtain ⟨off₃, hvalue⟩ := h.takes_blank hb' (by omega : t.length ≤ fuel) rest (off₂ + 1) hrest
    rw [List.append_assoc, List.singleton_append] at hkey
    rw [List.append_assoc] at hvalue
    refine ⟨off₃, ?_⟩
    simp only [List.cons_append, List.append_assoc]
    rw [readField]
    show (readString ⟨key ++ '"' :: (b ++ ':' :: (b' ++ (t ++ rest))), off + 1⟩ >>= _) = _
    rw [hkey]
    simp only [bind, Except.bind]
    rw [hskip]
    show (readValue depth fuel ⟨b' ++ (t ++ rest), off₂ + 1⟩).bind _ = _
    rw [hvalue]
    rfl

/-- What stands behind a field is read as further fields. -/
structure ReadsFields (depth : Nat) (fs : List (String × Json)) (text : List Char) : Prop where
  ends : ∀ rest, Ends (text ++ rest)
  length_pos : 0 < text.length
  takes : ∀ fuel, text.length ≤ fuel → ∀ table,
    Takes (fun _ => True) (readMoreFields depth fuel table) text
      (fs.foldl (fun t f => t.insert f.1 f.2) table)

theorem readsFields_close {b : List Char} (hb : Blank b) : ReadsFields depth [] (b ++ ['\x7d']) where
  ends := ends_append hb (by decide) _
  length_pos := by
    rw [List.length_append]
    exact Nat.succ_pos _
  takes fuel hfuel table rest off _ := by
    rw [List.length_append] at hfuel
    obtain ⟨fuel, rfl⟩ := Nat.exists_eq_add_one_of_ne_zero (Nat.ne_zero_of_lt hfuel)
    obtain ⟨off', hskip⟩ := skipSpace_blank (c := '\x7d') hb rfl rest off
    refine ⟨off' + 1, ?_⟩
    rw [List.append_assoc, List.singleton_append, readMoreFields, hskip]
    rfl

section
variable {b b' t ts : List Char} {f : String × Json} {fs : List (String × Json)}

/-- A field and what stands behind it. -/
theorem takes_fields (h : ReadsField depth f t) (hs : ReadsFields depth fs ts) (fuel : Nat)
    (hfuel : t.length ≤ fuel + 2) (hfuel' : ts.length ≤ fuel) (table : Table String Json)
    (rest : List Char) (off : Nat) :
    ∃ off', readField depth (fuel + 1) table ⟨t ++ (ts ++ rest), off⟩ =
      .ok ((f :: fs).foldl (fun t f => t.insert f.1 f.2) table, ⟨rest, off'⟩) := by
  obtain ⟨off₁, h₁⟩ := h.takes fuel hfuel table (ts ++ rest) off (hs.ends rest)
  obtain ⟨off₂, h₂⟩ := hs.takes fuel hfuel' (table.insert f.1 f.2) rest off₁ trivial
  exact ⟨off₂, h₁.trans h₂⟩

/-- Behind a comma stands a field. -/
theorem readsFields_more (hb : Blank b) (hb' : Blank b') (h : ReadsField depth f t)
    (hs : ReadsFields depth fs ts) :
    ReadsFields depth (f :: fs) (b ++ ',' :: (b' ++ (t ++ ts))) where
  ends := ends_append hb (by decide) _
  length_pos := by
    rw [List.length_append]
    exact Nat.lt_add_left _ (Nat.succ_pos _)
  takes fuel hfuel table rest off _ := by
    obtain ⟨cs, rfl, hlength⟩ := h.begins
    simp only [List.length_append, List.length_cons] at hfuel
    have hpos := hs.length_pos
    obtain ⟨fuel, rfl⟩ : ∃ n, fuel = n + 1 + 1 := ⟨fuel - 2, by omega⟩
    obtain ⟨off₁, hskip⟩ := skipSpace_blank (c := ',') hb rfl (b' ++ ('"' :: cs ++ (ts ++ rest))) off
    obtain ⟨off₂, hskip'⟩ := skipSpace_blank (c := '"') hb' rfl (cs ++ (ts ++ rest)) (off₁ + 1)
    obtain ⟨off₃, hfields⟩ := takes_fields h hs fuel
      (by simp only [List.length_cons]; omega) (by omega) table rest off₂
    have hnext : skipSpace (Cursor.advance ⟨',' :: (b' ++ ('"' :: cs ++ (ts ++ rest))), off₁⟩) =
        ⟨'"' :: (cs ++ (ts ++ rest)), off₂⟩ := hskip'
    refine ⟨off₃, ?_⟩
    rw [List.append_assoc, List.cons_append, List.append_assoc, List.append_assoc, readMoreFields, hskip]
    simp only [hnext]
    exact hfields

/-- An object takes one level more than its fields. -/
theorem reads_object (hb : Blank b) (hdepth : 0 < depth) (h : ReadsField depth f t)
    (hs : ReadsFields depth fs ts) (hdistinct : (⟨f :: fs⟩ : Table String Json).Distinct) :
    Reads (depth + 1) (object ⟨f :: fs⟩) ('\x7b' :: (b ++ (t ++ ts))) where
  begins := ⟨'\x7b', _, rfl, rfl, by decide⟩
  takes fuel hfuel rest off _ := by
    have hpos := hs.length_pos
    obtain ⟨cs, rfl, hlength⟩ := h.begins
    simp only [List.length_append, List.length_cons] at hfuel
    obtain ⟨fuel, rfl⟩ : ∃ n, fuel = n + 1 + 1 + 1 := ⟨fuel - 3, by omega⟩
    obtain ⟨off₁, hskip⟩ := skipSpace_blank (c := '"') hb rfl (cs ++ (ts ++ rest)) (off + 1)
    obtain ⟨off₂, hfields⟩ := takes_fields h hs fuel
      (by simp only [List.length_cons]; omega) (by omega) {} rest off₁
    have hfirst : readFirstField depth (fuel + 1 + 1) ⟨b ++ ('"' :: cs ++ (ts ++ rest)), off + 1⟩ =
        .ok (⟨f :: fs⟩, ⟨rest, off₂⟩) := by
      have htable : (f :: fs).foldl (fun t f => t.insert f.1 f.2) ({} : Table String Json) = ⟨f :: fs⟩ :=
        congrArg Table.mk (Table.entries_ofList hdistinct)
      rw [readFirstField, List.cons_append, hskip, ← htable]
      exact hfields
    refine ⟨off₂, ?_⟩
    rw [List.cons_append, List.append_assoc, List.append_assoc]
    exact readValue_object hdepth hfirst

end

theorem reads_emptyObject {b : List Char} (hb : Blank b) (hdepth : 0 < depth) :
    Reads (depth + 1) (object ⟨[]⟩) ('\x7b' :: (b ++ ['\x7d'])) where
  begins := ⟨'\x7b', _, rfl, rfl, by decide⟩
  takes fuel hfuel rest off _ := by
    simp only [List.length_append, List.length_cons, List.length_nil] at hfuel
    obtain ⟨fuel, rfl⟩ : ∃ n, fuel = n + 1 + 1 := ⟨fuel - 2, by omega⟩
    obtain ⟨off', hskip⟩ := skipSpace_blank (c := '\x7d') hb rfl rest (off + 1)
    refine ⟨off' + 1, ?_⟩
    rw [List.cons_append, List.append_assoc, List.singleton_append]
    refine readValue_object hdepth ?_
    rw [readFirstField, hskip]
    rfl

/-! ## Texts -/

mutual

theorem reads_of_spells {d depth : Nat} (hd : d < depth) : {j : Json} → {t : List Char} → Spells j t →
    j.Exact d → Reads depth j t
  | _, _, .null, _ => reads_null
  | _, _, .bool b, _ => reads_bool b
  | _, _, .int _, .int hmin hmax => reads_int hmin hmax
  | _, _, .str h, _ => reads_str h
  | _, _, .emptyArray hb, .array _ => by
    obtain ⟨depth, rfl⟩ := Nat.exists_eq_add_one_of_ne_zero (Nat.ne_zero_of_lt hd)
    exact reads_emptyArray hb (by omega)
  | _, _, .array hb h hs, .array hitems => by
    obtain ⟨depth, rfl⟩ := Nat.exists_eq_add_one_of_ne_zero (Nat.ne_zero_of_lt hd)
    obtain ⟨hj, hjs⟩ := List.forall_mem_cons.mp hitems
    exact reads_array hb (by omega) (reads_of_spells (Nat.lt_of_succ_lt_succ hd) h hj)
      (readsItems_of_spells (Nat.lt_of_succ_lt_succ hd) hs hjs)
  | _, _, .emptyObject hb, .object _ _ => by
    obtain ⟨depth, rfl⟩ := Nat.exists_eq_add_one_of_ne_zero (Nat.ne_zero_of_lt hd)
    exact reads_emptyObject hb (by omega)
  | _, _, .object hb h hs, .object hdistinct hfields => by
    obtain ⟨depth, rfl⟩ := Nat.exists_eq_add_one_of_ne_zero (Nat.ne_zero_of_lt hd)
    obtain ⟨hf, hfs⟩ := List.forall_mem_cons.mp hfields
    exact reads_object hb (by omega) (readsField_of_spells (Nat.lt_of_succ_lt_succ hd) h hf)
      (readsFields_of_spells (Nat.lt_of_succ_lt_succ hd) hs hfs) hdistinct

theorem readsItems_of_spells {d depth : Nat} (hd : d < depth) : {js : List Json} → {ts : List Char} →
    SpellsItems js ts → (∀ j ∈ js, j.Exact d) → ReadsItems depth js ts
  | _, _, .close hb, _ => readsItems_close hb
  | _, _, .more hb hb' h hs, hitems => by
    obtain ⟨hj, hjs⟩ := List.forall_mem_cons.mp hitems
    exact readsItems_more hb hb' (reads_of_spells hd h hj) (readsItems_of_spells hd hs hjs)

theorem readsField_of_spells {d depth : Nat} (hd : d < depth) : {f : String × Json} →
    {t : List Char} → SpellsField f t → f.2.Exact d → ReadsField depth f t
  | _, _, .mk hk hb hb' h, hf => readsField_mk hk hb hb' (reads_of_spells hd h hf)

theorem readsFields_of_spells {d depth : Nat} (hd : d < depth) : {fs : List (String × Json)} →
    {ts : List Char} → SpellsFields fs ts → (∀ f ∈ fs, f.2.Exact d) → ReadsFields depth fs ts
  | _, _, .close hb, _ => readsFields_close hb
  | _, _, .more hb hb' h hs, hfields => by
    obtain ⟨hf, hfs⟩ := List.forall_mem_cons.mp hfields
    exact readsFields_more hb hb' (readsField_of_spells hd h hf) (readsFields_of_spells hd hs hfs)

end

/-- Every standard text of an exact document is read as it, if there are enough levels. -/
theorem read_of_spelledBy {d : Nat} {j : Json} {text : String} (h : j.Exact d) (hd : d < maxDepth)
    (htext : j.SpelledBy text) : read text = .ok j := by
  obtain ⟨before, inner, behind, hbefore, hspells, hbehind, heq⟩ := htext
  have hfuel : inner.length ≤ 3 * text.toList.length + 3 := by
    rw [heq, List.length_append, List.length_append]
    omega
  have hends : Ends behind := by
    have := ends_blank hbehind ends_nil
    rwa [List.append_nil] at this
  obtain ⟨off, hvalue⟩ := (reads_of_spells hd hspells h).takes_blank hbefore hfuel behind 0 hends
  obtain ⟨off', hskip⟩ := skipSpace_all hbehind off
  have hall : readAll ⟨text.toList, 0⟩ = .ok (j, ⟨[], off'⟩) := by
    rw [List.append_assoc, ← heq] at hvalue
    rw [readAll, hvalue]
    simp only [bind, Except.bind, hskip]
    rfl
  rw [read, hall]

end DotScript.Json
