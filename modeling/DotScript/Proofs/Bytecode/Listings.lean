import DotScript.Bytecode.Listing
import DotScript.Compile.Builder
import DotScript.Proofs.Text.Lines

/-!
# Reading listings

What a line of a listing shows can be read back from its words: the address, the mnemonic or the
invalid word, the operand and the target of a jump. Padding and the texts of constants do not get in
the way of that.

* `Shown`: what a line shows; `readLine?`, `readListing?`: reading it back;
* `Item.words`: the words that a line stands for; `Tiled`: words that are those of given items.

Main statements: `readLine?_line`, `readListing?_listing`, and `Chunk.Whole.tiled`, which says that
the items listed make up the code.
-/

namespace DotScript.Bytecode

open DotScript.Text DotScript.Number DotScript.TestFile

/-! ## Words and numbers -/

/-- The words of a text, between blanks. -/
def blankWords (cs : List Char) : List (List Char) := (cs.splitOn ' ').filter (· ≠ [])

/-- The number that decimal digits stand for. -/
def readNat? (cs : List Char) : Option Nat :=
  if cs ≠ [] ∧ cs.all Char.isDigit then some (Nat.ofDigitChars 10 cs 0) else none

/-- The number that decimal digits stand for, with or without a minus sign. -/
def readInt? : List Char → Option Int
  | '-' :: cs => (readNat? cs).map fun n : Nat => -(n : Int)
  | cs => (readNat? cs).map fun n : Nat => (n : Int)

/-- A number as a code word. -/
def readWord? (cs : List Char) : Option Word := (readInt? cs).bind Compile.word?

section
variable {w rest : List Char}

theorem blankWords_blank (rest : List Char) : blankWords (' ' :: rest) = blankWords rest := by
  simp [blankWords, List.splitOn_cons_eq_if_modifyHead]

theorem blankWords_blanks (n : Nat) (rest : List Char) :
    blankWords (List.replicate n ' ' ++ rest) = blankWords rest := by
  induction n with
  | zero => rfl
  | succ n ih => rw [List.replicate_succ, List.cons_append, blankWords_blank, ih]

theorem blankWords_word (hw : ' ' ∉ w) (hne : w ≠ []) (rest : List Char) :
    blankWords (w ++ ' ' :: rest) = w :: blankWords rest := by
  simp [blankWords, List.splitOn_append_cons_self_of_not_mem hw, hne]

theorem blankWords_single (hw : ' ' ∉ w) (hne : w ≠ []) : blankWords w = [w] := by
  simp [blankWords, List.splitOn_eq_singleton hw, hne]

theorem readNat?_isDigit {n : Nat} (h : readNat? w = some n) : ∀ c ∈ w, c.isDigit = true := by
  simp only [readNat?, Option.ite_none_right_eq_some] at h
  exact List.all_eq_true.mp h.1.2

/-- Digits with zeros in front of them. -/
theorem readNat?_digits (k n : Nat) :
    readNat? (List.replicate k '0' ++ Nat.toDigits 10 n) = some n := by
  have hdigits : ∀ c ∈ Nat.toDigits 10 n, c.isDigit = true := fun c hc =>
    Nat.isDigit_of_mem_toDigits (by decide) (by decide) hc
  have hvalue : Nat.ofDigitChars 10 (List.replicate k '0' ++ Nat.toDigits 10 n) 0 = n := by
    rw [Nat.ofDigitChars_append, Nat.ofDigitChars_replicate_zero, Nat.mul_zero,
      Nat.ofDigitChars_ten_toDigits]
  have hall : (List.replicate k '0' ++ Nat.toDigits 10 n).all Char.isDigit = true := by
    simp only [List.all_append, Bool.and_eq_true, List.all_eq_true]
    refine ⟨fun c hc => ?_, hdigits⟩
    rw [List.eq_of_mem_replicate hc]
    rfl
  rw [readNat?, if_pos ⟨by simp [Nat.toDigits_ne_nil], hall⟩, hvalue]

end

/-- The digits of a number behind its sign, with zeros in front of them. -/
def signedDigits (zeros : Nat) (n : Int) : List Char :=
  (if n < 0 then ['-'] else []) ++ (List.replicate zeros '0' ++ Nat.toDigits 10 n.natAbs)

section
variable {zeros : Nat} {n : Int} {c : Char}

theorem toList_zeroPadded (width : Nat) (n : Int) :
    ∃ zeros, (zeroPadded width n).toList = signedDigits zeros n := by
  refine ⟨width - (toString n.natAbs).length - (if n < 0 then "-" else "").length, ?_⟩
  by_cases hn : n < 0 <;> simp [zeroPadded, signedDigits, hn, Nat.toList_repr]

theorem toList_toString (n : Int) : (toString n).toList = signedDigits 0 n := by
  rw [Int.toString_eq_repr, Int.repr_eq_if]
  split
  · next hn =>
    have hnot : ¬ n < 0 := by omega
    have habs : n.toNat = n.natAbs := by omega
    simp [signedDigits, hnot, habs, Nat.toList_repr]
  · next hn =>
    have hneg : n < 0 := by omega
    have habs : (-n).toNat = n.natAbs := by omega
    simp [signedDigits, hneg, habs, Nat.toList_repr]

theorem readInt?_signedDigits (zeros : Nat) (n : Int) : readInt? (signedDigits zeros n) = some n := by
  have hread := readNat?_digits zeros n.natAbs
  by_cases hn : n < 0
  · have habs : -(n.natAbs : Int) = n := by omega
    rw [signedDigits, if_pos hn, List.singleton_append, readInt?, hread, Option.map_some, habs]
  · have habs : (n.natAbs : Int) = n := by omega
    have hhead : ∀ cs, List.replicate zeros '0' ++ Nat.toDigits 10 n.natAbs ≠ '-' :: cs := by
      intro cs heq
      have hdigit := (readNat?_isDigit (heq ▸ hread)) '-' List.mem_cons_self
      cases hdigit
    simp only [signedDigits, if_neg hn, List.nil_append]
    rw [readInt?]
    · rw [hread, Option.map_some, habs]
    · exact hhead

theorem mem_signedDigits (h : c ∈ signedDigits zeros n) : c = '-' ∨ c.isDigit = true := by
  simp only [signedDigits, List.mem_append, List.mem_replicate] at h
  obtain h | ⟨-, rfl⟩ | h := h
  · split at h
    · exact .inl (List.mem_singleton.mp h)
    · cases h
  · exact .inr rfl
  · exact .inr (Nat.isDigit_of_mem_toDigits (by decide) (by decide) h)

theorem signedDigits_ne_nil : signedDigits zeros n ≠ [] := by
  simp [signedDigits, Nat.toDigits_ne_nil]

theorem blank_notMem_signedDigits : ' ' ∉ signedDigits zeros n := by
  intro h
  rcases mem_signedDigits h with h | h <;> cases h

theorem lineFeed_notMem_signedDigits : '\n' ∉ signedDigits zeros n := by
  intro h
  rcases mem_signedDigits h with h | h <;> cases h

end

theorem readWord?_signedDigits (zeros : Nat) (w : Word) :
    readWord? (signedDigits zeros w.toInt) = some w := by
  have hlo := Int32.le_toInt w
  have hhi := Int32.toInt_lt w
  have hrange : -2147483648 ≤ w.toInt ∧ w.toInt ≤ 2147483647 := by omega
  rw [readWord?, readInt?_signedDigits, Option.bind_some, Compile.word?, if_pos hrange,
    Int32.ofInt_toInt]

/-! ## Lines -/

/-- What a line of a listing shows. -/
structure Shown where
  address : Nat
  item : Item
  /-- The target of a jump. -/
  target? : Option Int
  deriving DecidableEq, Repr

/-- The target of a jump, by the words behind the operand. -/
def readTarget? (op : Opcode) : List (List Char) → Option Int
  | [_, target] => if op.isJump then readInt? target else none
  | _ => none

/-- What stands behind the address, by its words. -/
def readItem? : List (List Char) → Option (Item × Option Int)
  | [name] => (Opcode.ofName? (String.ofList name)).map fun op => (.plain op, none)
  | name :: operand :: more =>
    if String.ofList name = "<invalid" then
      (readWord? operand.dropLast).map fun w => (.invalid w, none)
    else do
      let op ← Opcode.ofName? (String.ofList name)
      let w ← readWord? operand
      return (.withOperand op w, readTarget? op more)
  | [] => none

/-- What a line shows, if it is one that shows an instruction or an invalid word. -/
def readLine? (line : String) : Option Shown :=
  match blankWords line.toList with
  | address :: more => do
    let address ← readNat? address
    let (item, target?) ← readItem? more
    return ⟨address, item, target?⟩
  | [] => none

/-- Where the jump of an item leads to. -/
def Item.target? (address : Nat) : Item → Option Int
  | withOperand op operand => if op.isJump then some (address + 2 + operand.toInt) else none
  | _ => none

/-- What the line of an item shows. -/
def Item.shown (address : Nat) (item : Item) : Shown := ⟨address, item, item.target? address⟩

theorem Opcode.ofName?_name (op : Opcode) : ofName? op.name = some op := by
  cases op <;> decide

theorem Opcode.name_plain (op : Opcode) :
    op.name.length < 16 ∧ op.name.toList ≠ [] ∧ ' ' ∉ op.name.toList ∧ '\n' ∉ op.name.toList ∧
      op.name ≠ "<invalid" := by
  cases op <;> decide

section
variable {c : Chunk} {a : Nat} {op : Opcode} {w : Word}

/-- What stands behind an operand is divided from it by a blank. -/
theorem annotate_cases (c : Chunk) (a : Nat) (op : Opcode) (w : Word) :
    (c.annotate a op w).toList = [] ∨ ∃ more, (c.annotate a op w).toList = ' ' :: more := by
  unfold Chunk.annotate
  split
  · exact .inr ⟨_, String.toList_append⟩
  · split
    · split
      · exact .inr ⟨_, String.toList_append⟩
      · exact .inr ⟨_, rfl⟩
    · exact .inl rfl

theorem annotate_jump (hop : op.isJump = true) (c : Chunk) (a : Nat) (w : Word) :
    ∃ zeros, (c.annotate a op w).toList =
      ' ' :: (['-', '>'] ++ ' ' :: signedDigits zeros (a + 2 + w.toInt)) := by
  obtain ⟨zeros, hzeros⟩ := toList_zeroPadded 4 (a + 2 + w.toInt)
  exact ⟨zeros, by simp [Chunk.annotate, hop, hzeros]⟩

/-- An operand and what is added behind it. -/
theorem blankWords_operand (c : Chunk) (a : Nat) (op : Opcode) (w : Word) :
    blankWords (signedDigits 0 w.toInt ++ (c.annotate a op w).toList) =
      signedDigits 0 w.toInt :: blankWords (c.annotate a op w).toList := by
  obtain h | ⟨more, h⟩ := annotate_cases c a op w
  · rw [h, List.append_nil, blankWords_single blank_notMem_signedDigits signedDigits_ne_nil]
    rfl
  · rw [h, blankWords_word blank_notMem_signedDigits signedDigits_ne_nil, blankWords_blank]

theorem blankWords_annotate (hop : op.isJump = true) (c : Chunk) (a : Nat) (w : Word) :
    ∃ zeros, blankWords (c.annotate a op w).toList =
      [['-', '>'], signedDigits zeros (a + 2 + w.toInt)] := by
  obtain ⟨zeros, h⟩ := annotate_jump hop c a w
  refine ⟨zeros, ?_⟩
  rw [h, blankWords_blank, blankWords_word (by decide) (by decide),
    blankWords_single blank_notMem_signedDigits signedDigits_ne_nil]

theorem readTarget?_of_not_jump (hop : op.isJump = false) (more : List (List Char)) :
    readTarget? op more = none := by
  unfold readTarget?
  split
  · rw [hop]
    rfl
  · rfl

/-- A mnemonic with blanks behind it, an operand with blanks in front of it, and what is added. -/
theorem toList_withOperand (c : Chunk) (a : Nat) (op : Opcode) (w : Word) :
    ∃ n m, (padRight 16 op.name ++ padLeft 5 (toString w.toInt) ++ c.annotate a op w).toList =
      op.name.toList ++ ' ' :: (List.replicate n ' ' ++ (List.replicate m ' ' ++
        (signedDigits 0 w.toInt ++ (c.annotate a op w).toList))) := by
  obtain ⟨n, hn⟩ := Nat.exists_eq_add_of_lt op.name_plain.1
  refine ⟨n, 5 - (toString w.toInt).length, ?_⟩
  have hpad : 16 - op.name.length = n + 1 := by omega
  simp only [padRight, padLeft, hpad, toList_toString, String.toList_append, String.toList_ofList,
    List.replicate_succ, List.append_assoc, List.cons_append]

/-- The address is the first word of a line. -/
theorem readLine?_of_item {line text : String} {item : Item} {target? : Option Int}
    (hline : line = zeroPadded 4 a ++ "  " ++ text)
    (hitem : readItem? (blankWords text.toList) = some (item, target?)) :
    readLine? line = some ⟨a, item, target?⟩ := by
  obtain ⟨zeros, hzeros⟩ := toList_zeroPadded 4 a
  have haddress : readNat? (signedDigits zeros a) = some a := by
    have hnot : ¬ (a : Int) < 0 := by omega
    simpa [signedDigits, hnot] using readNat?_digits zeros a
  have hwords : blankWords line.toList = signedDigits zeros a :: blankWords text.toList := by
    subst hline
    simp only [String.toList_append, hzeros, List.append_assoc]
    change blankWords (signedDigits zeros a ++ ' ' :: ' ' :: text.toList) = _
    rw [blankWords_word blank_notMem_signedDigits signedDigits_ne_nil, blankWords_blank]
  simp [readLine?, hwords, haddress, hitem]

theorem readItem?_withOperand (c : Chunk) (a : Nat) (op : Opcode) (w : Word) :
    readItem? (blankWords (padRight 16 op.name ++ padLeft 5 (toString w.toInt) ++
      c.annotate a op w).toList) =
        some (.withOperand op w, Item.target? a (.withOperand op w)) := by
  obtain ⟨n, m, htext⟩ := toList_withOperand c a op w
  obtain ⟨-, hne, hblank, -, hvalid⟩ := op.name_plain
  rw [htext, blankWords_word hblank hne, blankWords_blanks, blankWords_blanks, blankWords_operand]
  have hword := readWord?_signedDigits 0 w
  cases hop : op.isJump with
  | true =>
    obtain ⟨zeros, hwords⟩ := blankWords_annotate hop c a w
    simp [readItem?, hvalid, Opcode.ofName?_name, hword, hwords, readTarget?, hop, Item.target?,
      readInt?_signedDigits]
  | false =>
    simp [readItem?, hvalid, Opcode.ofName?_name, hword, readTarget?_of_not_jump hop, Item.target?,
      hop]

theorem readLine?_line (c : Chunk) (a : Nat) (item : Item) :
    readLine? (c.line a item) = some (item.shown a) := by
  cases item with
  | invalid w =>
    refine readLine?_of_item rfl ?_
    have htext : ("<invalid " ++ toString w.toInt ++ ">").toList =
        "<invalid".toList ++ ' ' :: (signedDigits 0 w.toInt ++ ['>']) := by
      simp only [String.toList_append, toList_toString]
      simp
    have hblank : ' ' ∉ signedDigits 0 w.toInt ++ ['>'] := by
      simp [blank_notMem_signedDigits]
    rw [htext, blankWords_word (by decide) (by decide), blankWords_single hblank (by simp)]
    simp [readItem?, readWord?_signedDigits, Item.target?]
  | plain op =>
    refine readLine?_of_item rfl ?_
    obtain ⟨-, hne, hblank, -, -⟩ := op.name_plain
    rw [blankWords_single hblank hne]
    simp [readItem?, Opcode.ofName?_name, Item.target?]
  | withOperand op w => exact readLine?_of_item rfl (readItem?_withOperand c a op w)

end

/-! ## Texts on one line -/

section
variable {s : String}

theorem lineFeed_notMem_hexDigits (n : Nat) : '\n' ∉ (hexDigits n).toList := by
  have hdigit : ∀ k < 16, Nat.digitChar k ≠ '\n' := by decide
  have h : '\n' ∉ Nat.toDigits 16 n := by
    induction n using Nat.strongRecOn with
    | ind n ih =>
      rw [Nat.toDigits_eq_if (by decide)]
      split
      · next hn => exact fun h => hdigit n hn (List.mem_singleton.mp h).symm
      · next hn =>
        rw [List.mem_append, not_or]
        exact ⟨ih (n / 16) (Nat.div_lt_self (by omega) (by decide)), fun h =>
          hdigit (n % 16) (Nat.mod_lt n (by decide)) (List.mem_singleton.mp h).symm⟩
  simpa [hexDigits] using h

theorem lineFeed_notMem_quoteChar (c : Char) : '\n' ∉ (quoteChar c).toList := by
  unfold quoteChar
  by_cases hc : c = '\n'
  · subst hc
    decide
  · have hhex := lineFeed_notMem_hexDigits c.toNat
    repeat' split
    all_goals first | decide | skip
    · simpa using hhex
    · simpa using Ne.symm hc

theorem toList_foldl_append (f : Char → String) (cs : List Char) (acc : String) :
    (cs.foldl (fun acc c => acc ++ f c) acc).toList =
      acc.toList ++ cs.flatMap fun c => (f c).toList := by
  induction cs generalizing acc with
  | nil => simp
  | cons c cs ih => simp [ih]

/-- A quoted text stands on one line. -/
theorem lineFeed_notMem_quote (s : String) : '\n' ∉ (quote s).toList := by
  simp [quote, toList_foldl_append, lineFeed_notMem_quoteChar]

theorem lineFeed_notMem_toDigits (n : Nat) : '\n' ∉ Nat.toDigits 10 n := fun h =>
  nomatch Nat.isDigit_of_mem_toDigits (by decide) (by decide) h

theorem lineFeed_notMem_write (d : Decimal) : '\n' ∉ Layout.write plain d := by
  have hdigits := lineFeed_notMem_toDigits d.digits
  have htake (n : Nat) : '\n' ∉ (Nat.toDigits 10 d.digits).take n := fun h =>
    hdigits (List.mem_of_mem_take h)
  have hdrop (n : Nat) : '\n' ∉ (Nat.toDigits 10 d.digits).drop n := fun h =>
    hdigits (List.mem_of_mem_drop h)
  simp only [Layout.write, Layout.positional, plain, zeros, Nat.toString_eq_repr, Nat.toList_repr,
    Option.all_none, Bool.and_self, if_true]
  split
  · simp [hdigits]
  · split
    · simp [hdigits]
    · simp [htake, hdrop]

theorem lineFeed_notMem_text (x : Number) : '\n' ∉ x.text.toList := by
  unfold Number.text finiteText
  repeat' split
  all_goals first | decide | skip
  · simp [lineFeed_notMem_write]
  · simp [lineFeed_notMem_write]

end

/-- No name that a listing shows is broken into lines. -/
structure Chunk.OneLineNames (c : Chunk) : Prop where
  name : '\n' ∉ c.name.toList
  functions : ∀ f, Constant.function f ∈ c.constants → '\n' ∉ f.name.toList

section
variable {c : Chunk}

theorem lineFeed_notMem_zeroPadded (width : Nat) (n : Int) :
    '\n' ∉ (zeroPadded width n).toList := by
  obtain ⟨zeros, h⟩ := toList_zeroPadded width n
  exact h ▸ lineFeed_notMem_signedDigits

theorem lineFeed_notMem_repr (n : Int) : '\n' ∉ n.repr.toList := by
  rw [← Int.toString_eq_repr, toList_toString]
  exact lineFeed_notMem_signedDigits

theorem lineFeed_notMem_describe {k : Constant}
    (h : ∀ f, k = .function f → '\n' ∉ f.name.toList) : '\n' ∉ k.describe.toList := by
  cases k with
  | null => decide
  | bool b => cases b <;> decide
  | number x => exact lineFeed_notMem_text x
  | str s => exact lineFeed_notMem_quote s
  | function f =>
    simp [Constant.describe, h f rfl, lineFeed_notMem_zeroPadded, lineFeed_notMem_toDigits,
      Nat.toList_repr]

theorem lineFeed_notMem_annotate (h : c.OneLineNames) (a : Nat) (op : Opcode) (w : Word) :
    '\n' ∉ (c.annotate a op w).toList := by
  unfold Chunk.annotate
  split
  · simp [lineFeed_notMem_zeroPadded]
  · split
    · split
      · next k hk =>
        have hmem : k ∈ c.constants := by
          simp only [Chunk.constantAt?, Option.ite_none_left_eq_some] at hk
          exact Array.mem_of_getElem? hk.2
        simp [lineFeed_notMem_describe fun f hf => h.functions f (hf ▸ hmem)]
      · decide
    · simp

/-- A line of a listing is one line. -/
theorem lineFeed_notMem_line (h : c.OneLineNames) (a : Nat) (item : Item) :
    '\n' ∉ (c.line a item).toList := by
  cases item with
  | invalid w => simp [Chunk.line, lineFeed_notMem_zeroPadded, lineFeed_notMem_repr]
  | plain op => simp [Chunk.line, lineFeed_notMem_zeroPadded, op.name_plain]
  | withOperand op w =>
    simp [Chunk.line, lineFeed_notMem_zeroPadded, lineFeed_notMem_repr, op.name_plain, padRight,
      padLeft, lineFeed_notMem_annotate h]

end

/-! ## Listings -/

/-- The name in the header of a listing. -/
def headerName? (header : List Char) : Option String :=
  let name := String.ofList ((header.drop 3).take (header.length - 6))
  if String.ofList header = "== " ++ name ++ " ==" then some name else none

/-- The name of the chunk that a listing is of, and what its lines show. -/
def readListing? (listing : String) : Option (String × List Shown) :=
  match listing.toList.splitOn '\n' with
  | header :: lines => do
    let name ← headerName? header
    let shown ← (lines.dropLast.map String.ofList).mapM readLine?
    return (name, shown)
  | [] => none

/-- The words that a line of a listing stands for. -/
def Item.words : Item → List Word
  | invalid w => [w]
  | plain op => [op.encode]
  | withOperand op operand => [op.encode, operand]

/-- An invalid word is no opcode, and an instruction has an operand exactly if its opcode takes one. -/
def Item.Valid : Item → Prop
  | invalid w => Opcode.decode? w = none
  | plain op => op.hasOperand = false
  | withOperand op _ => op.hasOperand = true

/-- Decoding does not end inside of an instruction: the words of all lines are in the code. -/
def Chunk.Whole (c : Chunk) : Prop := ∀ e ∈ c.items, e.1 + e.2.words.length ≤ c.code.size

theorem headerName?_header (name : String) :
    headerName? ("== " ++ name ++ " ==").toList = some name := by
  have hname : String.ofList ((("== " ++ name ++ " ==").toList.drop 3).take
      (("== " ++ name ++ " ==").toList.length - 6)) = name := by
    simp [String.toList_append]
  simp only [headerName?, hname, String.ofList_toList, if_true]

/-- Texts with a line feed behind each of them. -/
theorem splitOn_flatMap_concat {ls : List (List Char)} (h : ∀ l ∈ ls, '\n' ∉ l) :
    (ls.flatMap (· ++ ['\n'])).splitOn '\n' = ls ++ [[]] := by
  induction ls with
  | nil => rfl
  | cons l ls ih =>
    obtain ⟨hl, hls⟩ := List.forall_mem_cons.mp h
    rw [List.flatMap_cons, List.append_assoc, List.singleton_append,
      List.splitOn_append_cons_self_of_not_mem hl, ih hls, List.cons_append]

/-- A listing shows the name of the chunk and the items decoded. -/
theorem readListing?_listing {c : Chunk} (h : c.OneLineNames) :
    readListing? c.listing = some (c.name, c.items.map fun e => e.2.shown e.1) := by
  have hlines : ∀ l ∈ c.listingLines.map String.toList, '\n' ∉ l := by
    simp only [Chunk.listingLines, List.map_cons, List.map_map, List.forall_mem_cons,
      List.forall_mem_map]
    exact ⟨by simp [h.name], fun e _ => lineFeed_notMem_line h e.1 e.2⟩
  have hsplit : c.listing.toList.splitOn '\n' = c.listingLines.map String.toList ++ [[]] := by
    change (joinLines c.listingLines).toList.splitOn '\n' = _
    rw [toList_joinLines, splitOn_flatMap_concat hlines]
  have hread : (fun e : Nat × Item => readLine? (c.line e.1 e.2)) =
      fun e => pure (e.2.shown e.1) := by
    funext e
    exact readLine?_line c e.1 e.2
  simp only [readListing?, hsplit, Chunk.listingLines, List.map_cons, List.cons_append,
    headerName?_header, List.dropLast_concat, List.map_map, List.mapM_map, Function.comp_def,
    String.ofList_toList, hread, List.mapM_pure]
  rfl

/-- Words from an address on that are those of given items, one behind the other. -/
inductive Tiled : Nat → List (Nat × Item) → List Word → Prop
  | nil {a} : Tiled a [] []
  | cons {a es ws} (item : Item) (h : item.Valid) (hrest : Tiled (a + item.words.length) es ws) :
    Tiled a ((a, item) :: es) (item.words ++ ws)

section
variable {a hi : Nat} {ws : List Word} {es : List (Nat × Item)} {e : Nat × Item}

/-- Words are those of the items decoded unless the last of these goes beyond the end. -/
theorem tiled_decodeFrom (hhi : hi = a + ws.length)
    (h : ∀ e ∈ decodeFrom a ws, e.1 + e.2.words.length ≤ hi) : Tiled a (decodeFrom a ws) ws := by
  fun_induction decodeFrom a ws with
  | case1 => exact .nil
  | case2 a w hop => exact .cons (.invalid w) hop .nil
  | case3 a w op hop =>
    obtain rfl := Opcode.encode_of_decode? hop
    cases hoperand : op.hasOperand with
    | true =>
      simp only [hoperand, if_true, List.forall_mem_singleton, Item.words, List.length_cons,
        List.length_nil] at h hhi
      omega
    | false => exact .cons (.plain op) hoperand .nil
  | case4 a w o ws hop ih =>
    obtain ⟨-, hrest⟩ := List.forall_mem_cons.mp h
    refine .cons (.invalid w) hop (ih ?_ hrest)
    simp only [hhi, List.length_cons]
    omega
  | case5 a w o ws op hop hoperand ih =>
    obtain rfl := Opcode.encode_of_decode? hop
    obtain ⟨-, hrest⟩ := List.forall_mem_cons.mp h
    refine .cons (.withOperand op o) hoperand (ih ?_ hrest)
    simp only [hhi, List.length_cons]
    omega
  | case6 a w o ws op hop hoperand ih =>
    obtain rfl := Opcode.encode_of_decode? hop
    obtain ⟨-, hrest⟩ := List.forall_mem_cons.mp h
    refine .cons (.plain op) (by simpa [Item.Valid] using hoperand) (ih ?_ hrest)
    simp only [hhi, List.length_cons]
    omega

theorem Tiled.flatMap_words (h : Tiled a es ws) : es.flatMap (fun e => e.2.words) = ws := by
  induction h with
  | nil => rfl
  | cons item _ _ ih => rw [List.flatMap_cons, ih]

theorem Tiled.valid (h : Tiled a es ws) (he : e ∈ es) : e.2.Valid := by
  induction h with
  | nil => cases he
  | cons item hvalid _ ih =>
    rcases List.mem_cons.mp he with rfl | he
    · exact hvalid
    · exact ih he

theorem Tiled.words_at (h : Tiled a es ws) (he : e ∈ es) :
    a ≤ e.1 ∧ e.2.words <+: ws.drop (e.1 - a) := by
  induction h with
  | nil => cases he
  | @cons a es ws item _ _ ih =>
    rcases List.mem_cons.mp he with rfl | he
    · exact ⟨Nat.le_refl a, by simp⟩
    · obtain ⟨hle, hwords⟩ := ih he
      have hskip : e.1 - a = item.words.length + (e.1 - (a + item.words.length)) := by omega
      refine ⟨by omega, ?_⟩
      rw [hskip, List.drop_length_add_append]
      exact hwords

end

/-- What is listed makes up the code. -/
theorem Chunk.Whole.tiled {c : Chunk} (h : c.Whole) : Tiled 0 c.items c.code.toList :=
  tiled_decodeFrom (by simp) h

end DotScript.Bytecode
