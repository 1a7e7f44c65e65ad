import DotScript.Proofs.Compile.Compiled

/-!
# Journals of building

What is done to a chunk under construction can be written down as a journal: constants are looked up
or added, words are written, slots are reserved for the operands of forward jumps and filled in later.
Every piece of building leaves such a journal, whether it succeeds or fails midway.

* `Entry`, `Journal es c c'`: a chunk `c` becomes `c'` by what the entries say;
* `Placed`: slots are filled in only after they have been reserved;
* `Records`: a piece of building leaves a journal in which this is so.

Main statements: `Journal.soundPool` says what a journal tells of the constants, and `stmt_records`
that the code of a statement leaves one.
-/

namespace DotScript.Compile

open DotScript.Bytecode DotScript.Syntax

/-! ## Journals -/

/-- One thing done to a chunk under construction. -/
inductive Entry
  /-- The index of a constant was given. -/
  | constant (k : Constant) (index : Nat)
  | write (address : Nat) (w : Word)
  /-- A word was appended that is to become the operand of a jump. -/
  | reserve (slot : Nat)
  | patch (slot : Nat) (w : Word)

namespace Entry

/-- The slots that are reserved by an entry. -/
def reserved : Entry → List Nat
  | reserve slot => [slot]
  | _ => []

/-- The function that an entry adds, with its index. -/
def defined? : Entry → Option (Prototype × Nat)
  | constant (.function proto) index => some (proto, index)
  | _ => none

/-- What an entry does to a chunk. -/
inductive Turns : Entry → Chunk → Chunk → Prop
  | listed {c : Chunk} {k : Constant} {index : Nat} (plain : k.isFunction = false)
    (denotes : c.constants[index]? = some k) : Turns (constant k index) c c
  | added {c : Chunk} {k : Constant} (new : k.isFunction = false → k ∉ c.constants) :
    Turns (constant k c.constants.size) c (c.addConstant k)
  | write {c : Chunk} {w : Word} : Turns (write c.code.size w) c (c.write w)
  | reserve {c : Chunk} : Turns (reserve c.code.size) c (c.write 0)
  | patch {c : Chunk} {slot : Nat} {w : Word} : Turns (patch slot w) c (c.patch slot w)

end Entry

/-- How one chunk became another, the first entry first. -/
inductive Journal : List Entry → Chunk → Chunk → Prop
  | nil {c : Chunk} : Journal [] c c
  | cons {e : Entry} {es : List Entry} {c c' c'' : Chunk} : e.Turns c c' → Journal es c' c'' →
    Journal (e :: es) c c''

/-- The functions of a chunk with their indices, from left to right. -/
def functionsOf (c : Chunk) : List (Prototype × Nat) :=
  c.constants.toList.zipIdx.filterMap fun
    | (.function proto, index) => some (proto, index)
    | _ => none

/-- Constants that are no functions are all different. -/
def Distinct (c : Chunk) : Prop :=
  ∀ {k : Constant} {i j : Nat}, c.constants[i]? = some k → c.constants[j]? = some k →
    k.isFunction = false → i = j

/-- Constants stay where they are, and a word changes only if it is filled in. -/
structure Keeps (c : Chunk) (es : List Entry) (c' : Chunk) : Prop where
  constants : ∀ {i : Nat} {k : Constant}, c.constants[i]? = some k → c'.constants[i]? = some k
  size : c.code.size ≤ c'.code.size
  code : ∀ {a}, a < c.code.size → (∀ w, .patch a w ∉ es) → c'.code[a]? = c.code[a]?

section
variable {e : Entry} {es es' : List Entry} {c c' c'' : Chunk}

namespace Keeps

theorem refl (c : Chunk) : Keeps c es c := ⟨id, Nat.le_refl _, fun _ _ => rfl⟩

theorem trans (h : Keeps c es c') (h' : Keeps c' es' c'') : Keeps c (es ++ es') c'' where
  constants hi := h'.constants (h.constants hi)
  size := Nat.le_trans h.size h'.size
  code := by
    intro a ha hnever
    simp only [List.mem_append, not_or] at hnever
    rw [h'.code (Nat.lt_of_lt_of_le ha h.size) fun w => (hnever w).2, h.code ha fun w => (hnever w).1]

theorem addConstant (c : Chunk) (k : Constant) : Keeps c es (c.addConstant k) where
  constants := by
    intro i k' hi
    have hlt : i < c.constants.size := (Array.getElem?_eq_some_iff.mp hi).1
    rw [Chunk.addConstant, Array.getElem?_push_lt hlt, ← hi, Array.getElem?_eq_getElem hlt]
  size := Nat.le_refl _
  code _ _ := rfl

theorem write (c : Chunk) (w : Word) : Keeps c es (c.write w) where
  constants := id
  size := by simp [Chunk.write]
  code ha _ := by rw [Chunk.write, Array.getElem?_push_lt ha, Array.getElem?_eq_getElem ha]

theorem patch (c : Chunk) (slot : Nat) (w : Word) :
    Keeps c [.patch slot w] (c.patch slot w) where
  constants := id
  size := by simp [Chunk.patch]
  code := by
    intro a _ hnever
    have hne : slot ≠ a := by
      rintro rfl
      exact hnever w (List.mem_singleton_self _)
    rw [Chunk.patch, Array.getElem?_setIfInBounds_ne hne]

end Keeps

/-- A constant that is a function or new comes in behind the others. -/
theorem Distinct.add {k : Constant} (hc : Distinct c) (hk : k.isFunction = false → k ∉ c.constants) :
    Distinct (c.addConstant k) := by
  have hnew {k' : Constant} {i : Nat} (hi : c.constants[i]? = some k') (hk' : k'.isFunction = false) :
      k ≠ k' := by
    rintro rfl
    exact hk hk' (Array.mem_iff_getElem?.mpr ⟨i, hi⟩)
  intro k' i j hi hj hk'
  simp only [Chunk.addConstant, Array.getElem?_push] at hi hj
  split at hi <;> split at hj
  · next hi' hj' => exact hi'.trans hj'.symm
  · exact absurd (Option.some.inj hi) (hnew hj hk')
  · exact absurd (Option.some.inj hj) (hnew hi hk')
  · exact hc hi hj hk'

namespace Entry.Turns

theorem keeps (h : e.Turns c c') : Keeps c [e] c' := by
  cases h with
  | listed => exact .refl c
  | added => exact .addConstant c _
  | write | reserve => exact .write c _
  | patch => exact .patch c _ _

/-- The index that is given for a constant denotes it. -/
theorem denotes {k : Constant} {i : Nat} (h : (constant k i).Turns c c') :
    c'.constants[i]? = some k := by
  cases h with
  | listed _ hdenotes => exact hdenotes
  | added => exact Array.getElem?_push_size

theorem functionsOf (h : e.Turns c c') :
    functionsOf c' = Compile.functionsOf c ++ e.defined?.toList := by
  cases h with
  | @listed _ k _ hplain =>
    cases k with
    | function => cases hplain
    | _ => simp [defined?]
  | @added _ k =>
    cases k <;> simp [Compile.functionsOf, Chunk.addConstant, List.zipIdx_append, defined?]
  | _ => simp [Compile.functionsOf, Chunk.write, Chunk.patch, defined?]

theorem distinct (h : e.Turns c c') (hc : Distinct c) : Distinct c' := by
  cases h with
  | added hnew => exact hc.add hnew
  | listed | write | reserve | patch => exact hc

end Entry.Turns

namespace Journal

theorem single (h : e.Turns c c') : Journal [e] c c' := .cons h .nil

theorem append (h : Journal es c c') (h' : Journal es' c' c'') : Journal (es ++ es') c c'' := by
  induction h with
  | nil => exact h'
  | cons hturns _ ih => exact .cons hturns (ih h')

/-- A journal can be read up to any entry. -/
theorem split (h : Journal (es ++ es') c c'') : ∃ c', Journal es c c' ∧ Journal es' c' c'' := by
  induction es generalizing c with
  | nil => exact ⟨c, .nil, h⟩
  | cons e es ih =>
    obtain _ | ⟨hturns, hrest⟩ := h
    obtain ⟨c', hfirst, hlast⟩ := ih hrest
    exact ⟨c', .cons hturns hfirst, hlast⟩

theorem keeps (h : Journal es c c') : Keeps c es c' := by
  induction h with
  | nil => exact .refl _
  | cons hturns _ ih => exact hturns.keeps.trans ih

theorem denotes {k : Constant} {i : Nat} (h : Journal es c c') (hk : .constant k i ∈ es) :
    c'.constants[i]? = some k := by
  induction h with
  | nil => cases hk
  | cons hturns hrest ih =>
    obtain _ | ⟨_, hk⟩ := hk
    · exact hrest.keeps.constants hturns.denotes
    · exact ih hk

theorem functionsOf (h : Journal es c c') :
    functionsOf c' = Compile.functionsOf c ++ es.filterMap Entry.defined? := by
  induction h with
  | nil => simp
  | @cons e es _ _ _ hturns _ ih =>
    rw [ih, hturns.functionsOf, List.append_assoc]
    cases hdefined : e.defined? <;> simp [hdefined]

theorem distinct (h : Journal es c c') (hc : Distinct c) : Distinct c' := by
  induction h with
  | nil => exact hc
  | cons hturns _ ih => exact ih (hturns.distinct hc)

end Journal

end

/-- What the journal of a new chunk says of its constants. -/
structure SoundPool (es : List Entry) (c : Chunk) : Prop where
  denotes : ∀ {k i}, .constant k i ∈ es → c.constants[i]? = some k
  distinct : Distinct c
  /-- Each function that was added is there, at an index of its own. -/
  functions : functionsOf c = es.filterMap Entry.defined?
  ascending : ((functionsOf c).map (·.2)).Pairwise (· < ·)

theorem functionsOf_ascending (c : Chunk) : ((functionsOf c).map (·.2)).Pairwise (· < ·) := by
  have hindices : c.constants.toList.zipIdx.Pairwise fun p q => p.2 < q.2 := by
    rw [← List.pairwise_map, List.zipIdx_map_snd]
    exact List.pairwise_lt_range'
  rw [functionsOf, List.pairwise_map, List.pairwise_filterMap]
  refine hindices.imp ?_
  rintro ⟨k, i⟩ ⟨k', j⟩ hlt f hf g hg
  cases k <;> cases hf
  cases k' <;> cases hg
  exact hlt

theorem Journal.soundPool {es : List Entry} {name : String} {c : Chunk} (h : Journal es { name } c) :
    SoundPool es c where
  denotes := h.denotes
  distinct := h.distinct fun hi => by simp at hi
  functions := h.functionsOf
  ascending := functionsOf_ascending c

/-! ## Slots -/

/-- Only slots are filled in that are given or have been reserved before. -/
def Placed : List Nat → List Entry → Prop
  | _, [] => True
  | given, e :: es => (∀ slot w, e = .patch slot w → slot ∈ given) ∧ Placed (e.reserved ++ given) es

theorem append_subset_append {α : Type} {as as' bs bs' : List α} (has : as ⊆ as') (hbs : bs ⊆ bs') :
    as ++ bs ⊆ as' ++ bs' :=
  List.append_subset.mpr ⟨List.subset_append_of_subset_left _ has,
    List.subset_append_of_subset_right _ hbs⟩

namespace Placed

variable {given given' : List Nat} {es es' : List Entry}

theorem mono (h : Placed given es) (hgiven : given ⊆ given') : Placed given' es := by
  induction es generalizing given given' with
  | nil => trivial
  | cons e es ih =>
    exact ⟨fun slot w he => hgiven (h.1 slot w he),
      ih h.2 (append_subset_append (List.Subset.refl _) hgiven)⟩

theorem append (h : Placed given es) (h' : Placed (es.flatMap Entry.reserved ++ given) es') :
    Placed given (es ++ es') := by
  induction es generalizing given with
  | nil => exact h'
  | cons e es ih =>
    refine ⟨h.1, ih h.2 (h'.mono fun slot hslot => ?_)⟩
    simp only [List.flatMap_cons, List.mem_append] at hslot ⊢
    rwa [or_assoc, or_left_comm] at hslot

theorem of_notMem (h : ∀ slot w, .patch slot w ∉ es) : Placed given es := by
  induction es generalizing given with
  | nil => trivial
  | cons e es ih =>
    refine ⟨?_, ih fun slot w hmem => h slot w (List.mem_cons_of_mem _ hmem)⟩
    rintro slot w rfl
    exact absurd List.mem_cons_self (h slot w)

end Placed

/-! ## Building -/

/-- The builder that is left, whether building fails or not. -/
def left {α : Type} : EStateM.Result CompileError Builder α → Builder
  | .ok _ b => b
  | .error _ b => b

/-- Building leaves a journal, also if it fails. If some slots are given to it then it fills in only
these and its own, and the slots that it gives have been reserved. -/
def Records {α : Type} (given : List Nat) (x : Build α) (slots : α → List Nat) : Prop :=
  ∀ b, ∃ es, Journal es b.chunk (left (x b)).chunk ∧ Placed given es ∧
    ∀ {a b'}, x b = .ok a b' → slots a ⊆ es.flatMap Entry.reserved

/-- No slots are given to others. -/
def noSlots {α : Type} : α → List Nat := fun _ => []

/-- Building that gives no slots and needs none. -/
abbrev Sealed {α : Type} (x : Build α) : Prop := Records [] x noSlots

namespace Records

variable {α β : Type} {given given' : List Nat} {x : Build α} {f : α → Build β} {slots : α → List Nat}
  {slots' : β → List Nat}

theorem mono (h : Records given x slots) (hgiven : given ⊆ given') : Records given' x slots := by
  intro b
  obtain ⟨es, hjournal, hplaced, hslots⟩ := h b
  exact ⟨es, hjournal, hplaced.mono hgiven, hslots⟩

theorem bind (h : Records given x slots) (hf : ∀ a, Records (slots a ++ given) (f a) slots') :
    Records given (x >>= f) slots' := by
  intro b
  obtain ⟨es, hjournal, hplaced, hslots⟩ := h b
  rw [bind_apply]
  cases hrun : x b with
  | error e b' =>
    rw [hrun] at hjournal
    exact ⟨es, hjournal, hplaced, nofun⟩
  | ok a b' =>
    rw [hrun] at hjournal
    obtain ⟨es', hjournal', hplaced', hslots'⟩ := hf a b'
    refine ⟨es ++ es', hjournal.append hjournal', hplaced.append (hplaced'.mono ?_), fun h => ?_⟩
    · exact append_subset_append (hslots hrun) (List.Subset.refl _)
    · rw [List.flatMap_append]
      exact List.subset_append_of_subset_right _ (hslots' h)

/-- Building that leaves the chunk alone. -/
theorem of_chunk (h : ∀ b, (left (x b)).chunk = b.chunk) : Records given x noSlots := by
  intro b
  refine ⟨[], ?_, trivial, fun _ => List.nil_subset _⟩
  rw [h b]
  exact .nil

theorem pure (a : α) : Records given (pure a : Build α) noSlots := of_chunk fun _ => rfl

theorem throw (e : CompileError) : Records given (throw e : Build α) noSlots := of_chunk fun _ => rfl

theorem get {f : Builder → Build α} (hf : ∀ b, Records given (f b) slots) :
    Records given (do f (← get)) slots := fun b => hf b b

/-- Building in front of which a sealed piece stands. -/
theorem before {x : Build α} (h : Sealed x) (hf : ∀ a, Records given (f a) slots') :
    Records given (x >>= f) slots' := (h.mono (List.nil_subset _)).bind hf

end Records

/-! ## Pieces of building -/

section
variable {given : List Nat} {x y z : Build Unit}

theorem intern_journal {k : Constant} (hk : k.isFunction = false) (b : Builder) :
    ∃ index b', intern k b = .ok index b' ∧ Journal [.constant k index] b.chunk b'.chunk := by
  obtain hlisted | ⟨i, hlisted⟩ := Option.eq_none_or_eq_some (b.indices.get? k)
  · refine ⟨_, _, intern_new hlisted, .single (.added fun _ hmem => ?_)⟩
    obtain ⟨i, hi⟩ := Array.mem_iff_getElem?.mp hmem
    cases hlisted.symm.trans (b.indexed.lists hi hk)
  · exact ⟨i, b, intern_listed hlisted, .single (.listed hk (b.indexed.denotes hlisted))⟩

theorem addConstant_journal (k : Constant) (b : Builder) :
    ∃ index b', addConstant k b = .ok index b' ∧ Journal [.constant k index] b.chunk b'.chunk := by
  cases k with
  | function proto => exact ⟨_, _, rfl, .single (.added (by rintro ⟨⟩))⟩
  | _ => exact intern_journal rfl b

theorem emitOp_journal (op : Opcode) (b : Builder) :
    ∃ b', emitOp op b = .ok b.chunk.code.size b' ∧
      Journal [.write b.chunk.code.size op.encode] b.chunk b'.chunk :=
  ⟨_, rfl, .single .write⟩

/-- An operand either fits into a word or not. -/
theorem fit_cases (n : Int) (operand : Nat) (b : Builder) :
    (∃ w, w.toInt = n ∧ fit n operand b = .ok w b) ∨
      fit n operand b = .error (.operandOverflow operand) b := by
  unfold fit
  cases hw : word? n with
  | some w => exact .inl ⟨w, word?_eq_some hw, rfl⟩
  | none => exact .inr rfl

theorem emitWith_journal (op : Opcode) (operand : Nat) (b : Builder) :
    (∃ w b', w.toInt = (operand : Int) ∧ emitWith op operand b = .ok b.chunk.code.size b' ∧
      Journal [.write b.chunk.code.size op.encode, .write (b.chunk.code.size + 1) w]
        b.chunk b'.chunk) ∨
      emitWith op operand b = .error (.operandOverflow operand) b := by
  unfold emitWith
  obtain ⟨w, hw, hfit⟩ | hfit := fit_cases operand operand b
  · refine .inl ⟨w, { b with chunk := (b.chunk.writeOp op).write w }, hw, ?_, .cons .write ?_⟩
    · rw [bind_of_ok hfit]
      rfl
    · have hsize : b.chunk.code.size + 1 = (b.chunk.writeOp op).code.size := by
        simp [Chunk.writeOp, Chunk.write]
      rw [hsize]
      exact .single .write
  · exact .inr (bind_of_error hfit)

theorem emitConstant_journal (index : Nat) (b : Builder) :
    (∃ w b', emitConstant index b = .ok () b' ∧
      Journal [.write b.chunk.code.size Opcode.constant.encode, .write (b.chunk.code.size + 1) w]
        b.chunk b'.chunk) ∨
      emitConstant index b = .error (.operandOverflow index) b := by
  obtain ⟨w, b', -, hemit, hjournal⟩ | hemit := emitWith_journal .constant index b
  · exact .inl ⟨w, b', discard_of_ok hemit, hjournal⟩
  · exact .inr (bind_of_error (f := fun _ => pure ()) hemit)

theorem emitJump_journal (op : Opcode) (b : Builder) :
    ∃ b', emitJump op b = .ok (b.chunk.code.size + 1) b' ∧
      Journal [.write b.chunk.code.size op.encode, .reserve (b.chunk.code.size + 1)]
        b.chunk b'.chunk := by
  have hsize : (b.chunk.writeOp op).code.size = b.chunk.code.size + 1 := by
    simp [Chunk.writeOp, Chunk.write]
  rw [← hsize]
  exact ⟨_, rfl, .cons .write (.single .reserve)⟩

theorem patchJump_journal (slot : Nat) (b : Builder) :
    (∃ w b', patchJump slot b = .ok () b' ∧ Journal [.patch slot w] b.chunk b'.chunk) ∨
      patchJump slot b = .error (.operandOverflow b.chunk.code.size) b := by
  unfold patchJump
  rw [bind_of_ok (show here b = .ok b.chunk.code.size b from rfl)]
  obtain ⟨w, -, hfit⟩ | hfit := fit_cases (b.chunk.code.size - slot - 1 : Int) b.chunk.code.size b
  · rw [bind_of_ok hfit]
    exact .inl ⟨w, _, rfl, .single .patch⟩
  · exact .inr (bind_of_error hfit)

theorem emitLoop_journal (start : Nat) (b : Builder) :
    (∃ w b', emitLoop start b = .ok () b' ∧
      Journal [.write b.chunk.code.size Opcode.jump.encode, .write (b.chunk.code.size + 1) w]
        b.chunk b'.chunk) ∨
      ∃ b', emitLoop start b = .error (.operandOverflow start) b' ∧
        Journal [.write b.chunk.code.size Opcode.jump.encode] b.chunk b'.chunk := by
  obtain ⟨b', hop, hjournal⟩ := emitOp_journal .jump b
  unfold emitLoop
  rw [bind_of_ok hop]
  have hsize : b.chunk.code.size + 1 = b'.chunk.code.size := by
    cases hop
    simp [Chunk.write]
  obtain ⟨w, -, hfit⟩ | hfit := fit_cases (start - (b.chunk.code.size + 2) : Int) start b'
  · rw [bind_of_ok hfit, hsize]
    exact .inl ⟨w, _, rfl, hjournal.append (.single .write)⟩
  · exact .inr ⟨b', bind_of_error hfit, hjournal⟩

/-- Building that fills in nothing. -/
theorem Records.of_journal {α : Type} {x : Build α}
    (h : ∀ b, ∃ es, Journal es b.chunk (left (x b)).chunk ∧ ∀ slot w, .patch slot w ∉ es) :
    Sealed x := by
  intro b
  obtain ⟨es, hjournal, hnever⟩ := h b
  exact ⟨es, hjournal, .of_notMem hnever, fun _ => List.nil_subset _⟩

theorem addConstant_records (k : Constant) : Sealed (addConstant k) := by
  refine .of_journal fun b => ?_
  obtain ⟨index, b', hadd, hjournal⟩ := addConstant_journal k b
  rw [hadd]
  exact ⟨_, hjournal, by simp⟩

theorem intern_records {k : Constant} (hk : k.isFunction = false) : Sealed (intern k) := by
  have hadd : intern k = addConstant k := by
    cases k with
    | function => cases hk
    | _ => rfl
  rw [hadd]
  exact addConstant_records k

theorem emitWord_records (w : Word) : Sealed (emitWord w) :=
  .of_journal fun _ => ⟨_, .single .write, by simp⟩

theorem emit_records (op : Opcode) : Sealed (emit op) := emitWord_records op.encode

theorem discard_records {x : Build Nat} (h : Sealed x) : Sealed (discard x) :=
  h.before (f := fun _ => pure ()) fun _ => .pure ()

theorem emitWith_records (op : Opcode) (operand : Nat) : Sealed (discard (emitWith op operand)) := by
  refine discard_records (.of_journal fun b => ?_)
  obtain ⟨w, b', -, hemit, hjournal⟩ | hemit := emitWith_journal op operand b
  · rw [hemit]
    exact ⟨_, hjournal, by simp⟩
  · rw [hemit]
    exact ⟨[], .nil, by simp⟩

/-- An instruction with a constant that is interned first. -/
theorem interned_records (op : Opcode) {k : Constant} (hk : k.isFunction = false) :
    Sealed (do discard (emitWith op (← intern k))) :=
  (intern_records hk).before fun _ => emitWith_records op _

theorem emitVariable_records (onLocal onGlobal : Opcode) (name : String) :
    Sealed (emitVariable onLocal onGlobal name) := by
  refine .get fun b => ?_
  cases b.scope.resolve name with
  | some slot => exact emitWith_records onLocal slot
  | none => exact interned_records onGlobal (k := .str name) rfl

theorem emitJump_records (op : Opcode) : Records [] (emitJump op) fun slot => [slot] := by
  intro b
  obtain ⟨b', hemit, hjournal⟩ := emitJump_journal op b
  rw [hemit]
  refine ⟨_, hjournal, .of_notMem (by simp), ?_⟩
  rintro _ _ ⟨⟩
  simp [Entry.reserved]

theorem patchJump_records {slot : Nat} (h : slot ∈ given) :
    Records given (patchJump slot) noSlots := by
  intro b
  obtain ⟨w, b', hpatch, hjournal⟩ | hpatch := patchJump_journal slot b
  · rw [hpatch]
    refine ⟨_, hjournal, ⟨?_, trivial⟩, fun _ => List.nil_subset _⟩
    rintro _ _ ⟨⟩
    exact h
  · rw [hpatch]
    exact ⟨[], .nil, trivial, fun _ => List.nil_subset _⟩

theorem emitLoop_records (start : Nat) : Sealed (emitLoop start) := by
  refine .of_journal fun b => ?_
  obtain ⟨w, b', hloop, hjournal⟩ | ⟨b', hloop, hjournal⟩ := emitLoop_journal start b
  · rw [hloop]
    exact ⟨_, hjournal, by simp⟩
  · rw [hloop]
    exact ⟨_, hjournal, by simp⟩

theorem emitPops_records : (n : Nat) → Sealed (emitPops n)
  | 0 => .pure ()
  | n + 1 => (emit_records .pop).before fun _ => emitPops_records n

theorem leaveScope_records : Sealed leaveScope :=
  .get fun _ => (Records.of_chunk fun _ => rfl).before fun _ => emitPops_records _

theorem withScope_records {α : Type} (scope : Scope) {x : Build α} (h : Sealed x) :
    Sealed (withScope scope x) := by
  refine fun b => ?_
  obtain ⟨es, hjournal, hplaced, -⟩ := h { b with scope }
  unfold withScope
  cases hrun : x { b with scope } with
  | ok a b' =>
    rw [hrun] at hjournal
    exact ⟨es, hjournal, hplaced, fun _ => List.nil_subset _⟩
  | error e b' =>
    rw [hrun] at hjournal
    exact ⟨es, hjournal, hplaced, nofun⟩

/-! ## Expressions -/

theorem self_records (span : Text.Span) : Sealed (expr (.self span)) := by
  simp only [expr]
  refine .get fun b => ?_
  cases b.scope.resolve "this" with
  | some slot => exact emitWith_records .getLocal slot
  | none => exact .throw _

mutual

theorem expr_records : (e : Expr) → Sealed (expr e)
  | .var id => emitVariable_records _ _ id.name
  | .null _ => interned_records .constant (k := .null) rfl
  | .bool b _ => interned_records .constant (k := .bool b) rfl
  | .number n _ => interned_records .constant (k := .number n) rfl
  | .str s _ => interned_records .constant (k := .str s) rfl
  | .assign target value _ => by
    cases target with
    | var id => exact (expr_records value).before fun _ => emitVariable_records _ _ id.name
    | _ => exact .throw _
  | .set object name value _ => (expr_records object).before fun _ =>
    (expr_records value).before fun _ => interned_records _ (k := .str name.name) rfl
  | .get object name _ => (expr_records object).before fun _ =>
    interned_records _ (k := .str name.name) rfl
  | .binary op left right _ => (expr_records left).before fun _ =>
    (expr_records right).before fun _ => emit_records _
  | .unary op operand _ => (expr_records operand).before fun _ => emit_records _
  | .call callee args _ => (expr_records callee).before fun _ =>
    (exprs_records args).before fun _ => emitWith_records .call _
  | .list elems _ => (exprs_records elems).before fun _ => emitWith_records .buildList _
  | .map entries _ => (pairs_records entries).before fun _ => emitWith_records .buildMap _
  | .self span => self_records span
  | .spawn operand _ => by
    cases operand with
    | call callee args _ =>
      exact (expr_records callee).before fun _ =>
        (exprs_records args).before fun _ => emitWith_records .spawn _
    | _ => exact .throw _

theorem exprs_records : (es : List Expr) → Sealed (exprs es)
  | [] => .pure ()
  | e :: es => (expr_records e).before fun _ => exprs_records es

theorem pairs_records : (es : List (Expr × Expr)) → Sealed (pairs es)
  | [] => .pure ()
  | (key, value) :: es => (expr_records key).before fun _ =>
    (expr_records value).before fun _ => pairs_records es

end

/-! ## Statements -/

theorem conditional_records (hx : Sealed x) (hy : Sealed y) (hz : Sealed z) :
    Sealed (conditional x y z) :=
  hx.before fun _ => (emitJump_records _).bind fun _ => hy.before fun _ =>
    ((emitJump_records _).mono (List.nil_subset _)).bind fun _ =>
      (patchJump_records (by simp)).bind fun _ => (hz.before fun _ => patchJump_records (by simp))

theorem functionWith_records {isMethod : Bool} {name : Ident} {params : List Ident} {body : List Stmt}
    {bodySpan span : Text.Span} (hbody : Sealed (functionBody body)) :
    Sealed (function isMethod ⟨name, params, ⟨body, bodySpan⟩, span⟩) :=
  (emitJump_records .jump).bind fun _ => .get fun _ => (withScope_records _ hbody).before fun _ =>
    (patchJump_records (by simp)).bind fun _ => (addConstant_records _).mono (List.nil_subset _)

/-- A function, the constant that pushes it, and an instruction that names it. -/
theorem define_records {f : Build Nat} (hf : Sealed f) (op : Opcode) (name : String)
    (hx : Sealed x) :
    Sealed (do
      let proto ← f
      let index ← internStr name
      emitConstant proto
      discard (emitWith op index)
      x) :=
  hf.before fun _ => (intern_records (k := .str name) rfl).before fun _ =>
    (emitWith_records .constant _).before fun _ => (emitWith_records op _).before fun _ => hx

theorem enterScope_records : Sealed enterScope := .of_chunk fun _ => rfl

theorem declare_records (name : String) : Sealed (declare name) := .of_chunk fun _ => rfl

theorem emitNull_records : Sealed emitNull := interned_records .constant (k := .null) rfl

mutual

theorem stmt_records : (s : Stmt) → Sealed (stmt s)
  | .expr e => (expr_records e).before fun _ => emit_records _
  | .print value _ => (expr_records value).before fun _ => emit_records _
  | .function decl => define_records (function_records false decl) _ _ (emit_records .pop)
  | .classDecl name methods _ => (interned_records _ (k := .str name.name) rfl).before fun _ =>
    (methods_records methods).before fun _ => emit_records _
  | .block body => block_records body
  | .ifElse cond thenBlock elseBlock _ => by
    cases elseBlock with
    | some b =>
      exact conditional_records (expr_records cond) (block_records thenBlock) (block_records b)
    | none => exact conditional_records (expr_records cond) (block_records thenBlock) (.pure ())
  | .whileLoop cond body _ => .get fun _ => (expr_records cond).before fun _ =>
    (emitJump_records _).bind fun _ => (block_records body).before fun _ =>
      (emitLoop_records _).before fun _ => patchJump_records (by simp)
  | .ret value _ => by
    cases value with
    | some e => exact (expr_records e).before fun _ => emit_records _
    | none => exact emitNull_records.before fun _ => emit_records _
  | .importUnit path _ => (expr_records path).before fun _ => emit_records _
  | .tryCatch body errorVar handler _ =>
    (emitJump_records _).bind fun _ => (block_records body).before fun _ =>
      (emit_records _).before fun _ => ((emitJump_records _).mono (List.nil_subset _)).bind fun _ =>
        (patchJump_records (by simp)).bind fun _ => enterScope_records.before fun _ =>
          (declare_records errorVar.name).before fun _ => (block_records handler).before fun _ =>
            leaveScope_records.before fun _ => patchJump_records (by simp)

theorem stmts_records : (ss : List Stmt) → Sealed (stmts ss)
  | [] => .pure ()
  | s :: ss => (stmt_records s).before fun _ => stmts_records ss

theorem block_records : (b : Block) → Sealed (block b)
  | ⟨ss, _⟩ => enterScope_records.before fun _ => (stmts_records ss).before fun _ => leaveScope_records

theorem methods_records : (ms : List FunctionDecl) → Sealed (methodDefs ms)
  | [] => .pure ()
  | m :: ms => define_records (function_records true m) _ _ (methods_records ms)

theorem function_records (isMethod : Bool) : (decl : FunctionDecl) → Sealed (function isMethod decl)
  | ⟨name, params, ⟨body, _⟩, _⟩ => by
    refine functionWith_records ?_
    rw [functionBody_eq]
    split
    · exact stmts_records body
    · exact (value_records body).before fun _ => emit_records _

theorem value_records : (ss : List Stmt) → Sealed (valueOf ss)
  | [] => emitNull_records
  | [s] => by
    have hs := stmt_records s
    cases s with
    | expr e => exact expr_records e
    | ifElse cond thenBlock elseBlock span =>
      match thenBlock, elseBlock with
      | ⟨thenStmts, _⟩, some ⟨elseStmts, _⟩ =>
        exact conditional_records (expr_records cond) (value_records thenStmts)
          (value_records elseStmts)
      | ⟨thenStmts, _⟩, none =>
        exact conditional_records (expr_records cond) (value_records thenStmts) emitNull_records
    | _ => exact hs.before fun _ => emitNull_records
  | s :: s' :: ss => (stmt_records s).before fun _ => value_records (s' :: ss)

end

end

end DotScript.Compile
