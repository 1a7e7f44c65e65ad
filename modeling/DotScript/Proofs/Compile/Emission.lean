import DotScript.Proofs.Compile.Layout
import DotScript.Proofs.Computation

/-!
# What building emits

A builder only appends words, except that the operand of a forward jump is filled in later. So a
fact about the words a piece of building has appended stays a fact about the finished chunk, as long
as it does not read an operand that is still open.

* `Emits opens n c c' P`: between `c` and `c'`, `n` words were appended, and every chunk that agrees
  with `c'` on them outside of the addresses `opens` satisfies `P`;
* `Lays x n P`: running the builder `x` appends `n` words with the property `P`, whatever was
  emitted before, and leaves the scope as it was.
-/

namespace DotScript.Compile

open DotScript.Bytecode DotScript.Syntax

/-! ## Scopes -/

theorem slotOf_lt {name : String} {ns : List String} {slot : Nat}
    (h : slotOf name ns = some slot) : slot < ns.length := by
  induction ns with
  | nil => cases h
  | cons n ns ih =>
    simp only [slotOf] at h
    split at h
    · cases h
      exact Nat.lt_succ_self _
    · exact Nat.lt_succ_of_lt (ih h)

namespace Scope

/-- The names of the locals, the newest first. -/
def names (s : Scope) : List String := s.locals.map (·.name)

/-- Every local was declared in a block that is still open. -/
def Tidy (s : Scope) : Prop := ∀ l ∈ s.locals, l.depth ≤ s.depth

@[simp] theorem names_enter (s : Scope) : s.enter.names = s.names := rfl

@[simp] theorem names_declare (s : Scope) (name : String) :
    (s.declare name).names = name :: s.names := rfl

theorem resolve_eq_slotOf (s : Scope) (name : String) : s.resolve name = slotOf name s.names := by
  obtain ⟨locals, depth⟩ := s
  simp only [resolve, names]
  induction locals with
  | nil => rfl
  | cons l ls ih => simp only [slot?, List.map_cons, slotOf, List.length_map, ih]

theorem Tidy.enter {s : Scope} (h : s.Tidy) : s.enter.Tidy :=
  fun l hl => Nat.le_succ_of_le (h l hl)

theorem Tidy.declare {s : Scope} (h : s.Tidy) (name : String) : (s.declare name).Tidy := by
  intro l hl
  rcases List.mem_cons.mp hl with rfl | hl
  · exact Nat.le_refl _
  · exact h l hl

theorem Tidy.dropWhile {s : Scope} (h : s.Tidy) :
    s.locals.dropWhile (fun l => decide (s.depth < l.depth)) = s.locals := by
  obtain ⟨locals, depth⟩ := s
  cases locals with
  | nil => rfl
  | cons l ls =>
    have hl : l.depth ≤ depth := h l (List.mem_cons_self ..)
    have : ¬ depth < l.depth := by omega
    simp [this]

/-- Leaving a block that declared nothing. -/
theorem Tidy.leave_enter {s : Scope} (h : s.Tidy) : s.enter.leave = s := by
  change (⟨s.locals.dropWhile (fun l => decide (s.depth < l.depth)), s.depth⟩ : Scope) = s
  rw [h.dropWhile]

/-- Leaving a block that declared one local. -/
theorem Tidy.leave_declare {s : Scope} (h : s.Tidy) (name : String) :
    (s.enter.declare name).leave = s := by
  change (⟨(⟨name, s.depth + 1⟩ :: s.locals).dropWhile (fun l => decide (s.depth < l.depth)),
    s.depth⟩ : Scope) = s
  rw [List.dropWhile_cons_of_pos (by simp), h.dropWhile]

theorem foldl_declare (params : List String) (s : Scope) (h : s.Tidy) :
    (params.foldl Scope.declare s).names = params.reverse ++ s.names ∧
      (params.foldl Scope.declare s).Tidy := by
  induction params generalizing s with
  | nil => exact ⟨rfl, h⟩
  | cons p ps ih =>
    obtain ⟨hnames, htidy⟩ := ih (s.declare p) (h.declare p)
    refine ⟨?_, htidy⟩
    rw [List.foldl_cons, hnames]
    simp

theorem tidy_empty : ({} : Scope).Tidy := fun _ hl => nomatch hl

theorem names_ofParams (isMethod : Bool) (params : List String) :
    (ofParams isMethod params).names = bodyNames isMethod params := by
  cases isMethod
  · exact (foldl_declare params {} tidy_empty).1
  · exact (foldl_declare params _ (tidy_empty.declare "this")).1

theorem tidy_ofParams (isMethod : Bool) (params : List String) :
    (ofParams isMethod params).Tidy := by
  cases isMethod
  · exact (foldl_declare params {} tidy_empty).2
  · exact (foldl_declare params _ (tidy_empty.declare "this")).2

end Scope

/-! ## Emitted words -/

/-- `c` agrees with `c'` on its words from `lo` on outside of `opens`, and on its constants. -/
structure Agrees (c c' : Chunk) (lo : Nat) (opens : List Nat) : Prop where
  code : ∀ i, lo ≤ i → i < c'.code.size → i ∉ opens → c.code[i]? = c'.code[i]?
  constants : ∀ (i : Nat) (k : Constant), c'.constants[i]? = some k → c.constants[i]? = some k
  size : c'.code.size ≤ c.code.size

/-- Between two chunks `n` words with the property `P` were emitted. The words at `opens` are still
to be filled in, and `P` does not depend on them. -/
structure Emits (opens : List Nat) (n : Nat) (c c' : Chunk) (P : Chunk → Prop) : Prop where
  size : c'.code.size = c.code.size + n
  kept : ∀ i, i < c.code.size → c'.code[i]? = c.code[i]?
  constants : ∀ (i : Nat) (k : Constant), c.constants[i]? = some k → c'.constants[i]? = some k
  inside : ∀ i ∈ opens, c.code.size ≤ i ∧ i < c'.code.size
  holds : ∀ d, Agrees d c' c.code.size opens → P d

namespace Emits

variable {opens opens' : List Nat} {n m : Nat} {c c' c'' : Chunk} {P Q : Chunk → Prop}

theorem mono (h : Emits opens n c c' P) (himp : ∀ d, P d → Q d) : Emits opens n c c' Q :=
  { h with holds := fun d hd => himp d (h.holds d hd) }

theorem cast (h : Emits opens n c c' P) (hnm : n = m) : Emits opens m c c' P := hnm ▸ h

theorem refl (c : Chunk) : Emits [] 0 c c (fun _ => True) where
  size := rfl
  kept := fun _ _ => rfl
  constants := fun _ _ h => h
  inside := fun _ h => nomatch h
  holds := fun _ _ => trivial

theorem trans (h : Emits opens n c c' P) (h' : Emits opens' m c' c'' Q) :
    Emits (opens ++ opens') (n + m) c c'' (fun d => P d ∧ Q d) where
  size := by rw [h'.size, h.size, Nat.add_assoc]
  kept := by
    intro i hi
    rw [h'.kept i (by have := h.size; omega), h.kept i hi]
  constants := fun i k hk => h'.constants i k (h.constants i k hk)
  inside := by
    intro i hi
    have hsize := h.size
    have hsize' := h'.size
    rcases List.mem_append.mp hi with hi | hi
    · have := h.inside i hi; omega
    · have := h'.inside i hi; omega
  holds := by
    intro d hd
    have hsize := h.size
    have hsize' := h'.size
    constructor
    · -- The words of the first part are still there in `c''`, and none of them is newly open.
      refine h.holds d ⟨?_, fun i k hk => hd.constants i k (h'.constants i k hk), ?_⟩
      · intro i hlo hhi hopen
        rw [hd.code i hlo (by omega) ?_, h'.kept i hhi]
        intro hmem
        rcases List.mem_append.mp hmem with hmem | hmem
        · exact hopen hmem
        · have := h'.inside i hmem; omega
      · have := hd.size; omega
    · refine h'.holds d ⟨?_, hd.constants, hd.size⟩
      intro i hlo hhi hopen
      refine hd.code i (by omega) hhi fun hmem => ?_
      rcases List.mem_append.mp hmem with hmem | hmem
      · have := h.inside i hmem; omega
      · exact hopen hmem

/-- Filling in an open word. -/
theorem patch {slot : Nat} (h : Emits (slot :: opens) n c c' P) (hslot : slot ∉ opens) (w : Word) :
    Emits opens n c (c'.patch slot w) (fun d => P d ∧ d.code[slot]? = some w ∧
      c'.code.size ≤ d.code.size) where
  size := by simpa [Chunk.patch] using h.size
  kept := by
    intro i hi
    have := (h.inside slot (List.mem_cons_self ..)).1
    rw [← h.kept i hi]
    simp only [Chunk.patch, Array.getElem?_setIfInBounds]
    rw [if_neg (by omega)]
  constants := h.constants
  inside := by
    intro i hi
    simpa [Chunk.patch] using h.inside i (List.mem_cons_of_mem _ hi)
  holds := by
    intro d hd
    have hsize : c'.code.size ≤ d.code.size := by simpa [Chunk.patch] using hd.size
    have hin := h.inside slot (List.mem_cons_self ..)
    refine ⟨h.holds d ⟨?_, hd.constants, hsize⟩, ?_, hsize⟩
    · intro i hlo hhi hopen
      have hne : slot ≠ i := fun e => hopen (e ▸ List.mem_cons_self ..)
      rw [hd.code i hlo (by simpa [Chunk.patch] using hhi)
        fun hmem => hopen (List.mem_cons_of_mem _ hmem)]
      simp only [Chunk.patch, Array.getElem?_setIfInBounds, if_neg hne]
    · rw [hd.code slot hin.1 (by simpa [Chunk.patch] using hin.2) hslot]
      simp [Chunk.patch, hin.2]

end Emits

theorem emits_write (c : Chunk) (w : Word) :
    Emits [] 1 c (c.write w) (fun d => d.code[c.code.size]? = some w) where
  size := by simp [Chunk.write]
  kept := by
    intro i hi
    simp only [Chunk.write, Array.getElem?_push]
    rw [if_neg (by omega)]
  constants := fun _ _ h => h
  inside := fun _ h => nomatch h
  holds := by
    intro d hd
    rw [hd.code _ (Nat.le_refl _) (by simp [Chunk.write]) (by simp)]
    simp [Chunk.write]

/-- Appending a word that is to be filled in. -/
theorem emits_write_open (c : Chunk) (w : Word) :
    Emits [c.code.size] 1 c (c.write w) (fun _ => True) where
  size := by simp [Chunk.write]
  kept := (emits_write c w).kept
  constants := fun _ _ h => h
  inside := by
    intro i hi
    rw [List.mem_singleton.mp hi]
    simp [Chunk.write]
  holds := fun _ _ => trivial

theorem emits_addConstant (c : Chunk) (k : Constant) :
    Emits [] 0 c (c.addConstant k) (fun d => d.constants[c.constants.size]? = some k) where
  size := rfl
  kept := fun _ _ => rfl
  constants := by
    intro i k' h
    simp only [Chunk.addConstant, Array.getElem?_push]
    rw [if_neg ?_, h]
    intro e
    rw [e] at h
    simp at h
  inside := fun _ h => nomatch h
  holds := by
    intro d hd
    exact hd.constants _ _ (by simp [Chunk.addConstant])

/-! ## Operands -/

theorem word?_eq_some {n : Int} {w : Word} (h : word? n = some w) : w.toInt = n := by
  simp only [word?, Option.ite_none_right_eq_some, Option.some.injEq] at h
  obtain ⟨⟨hlo, hhi⟩, rfl⟩ := h
  exact Int32.toInt_ofInt_of_le hlo (by omega)

theorem fit_eq_ok {n : Int} {operand : Nat} {b b' : Builder} {w : Word}
    (h : fit n operand b = .ok w b') : b = b' ∧ w.toInt = n := by
  unfold fit at h
  cases hw : word? n with
  | some w' =>
    rw [hw] at h
    cases h
    exact ⟨rfl, word?_eq_some hw⟩
  | none =>
    rw [hw] at h
    cases h

/-! ## Pieces of building -/

/-- Running `x` appends `n` words with the property `P`, which may depend on the names in scope and
on the address of the first word. The scope stays as it was. -/
structure Lays (x : Build Unit) (n : Nat) (P : List String → Nat → Chunk → Prop) : Prop where
  out : ∀ {b b' : Builder}, b.scope.Tidy → x b = .ok () b' →
    b'.scope = b.scope ∧ Emits [] n b.chunk b'.chunk (P b.scope.names b.chunk.code.size)

namespace Lays

variable {x y : Build Unit} {n m : Nat} {P Q : List String → Nat → Chunk → Prop}

theorem cast (h : Lays x n P) (hnm : n = m) : Lays x m P := hnm ▸ h

theorem nothing : Lays (pure ()) 0 (fun _ _ _ => True) := by
  refine ⟨fun {b b'} _ h => ?_⟩
  cases h
  exact ⟨rfl, .refl _⟩

theorem fails (e : CompileError) : Lays (throw e) n P :=
  ⟨fun _ h => nomatch h⟩

/-- One piece behind the other. -/
theorem seq (hx : Lays x n P) (hy : Lays y m Q) :
    Lays (do x; y) (n + m) (fun ns a c => P ns a c ∧ Q ns (a + n) c) := by
  refine ⟨fun {b b''} hb h => ?_⟩
  obtain ⟨⟨⟩, b', hx', hy'⟩ := bind_eq_ok.mp h
  obtain ⟨hscope, hemits⟩ := hx.out hb hx'
  obtain ⟨hscope', hemits'⟩ := hy.out (by rwa [hscope]) hy'
  rw [hscope, hemits.size] at hemits'
  exact ⟨hscope'.trans hscope, hemits.trans hemits'⟩

end Lays

/-! ## Instructions -/

theorem emit_lays (op : Opcode) : Lays (emit op) 1 (fun _ a c => OpAt c a op) := by
  refine ⟨fun {b b'} _ h => ?_⟩
  cases h
  exact ⟨rfl, emits_write _ _⟩

theorem emitWith_emits {op : Opcode} {operand r : Nat} {b b' : Builder}
    (h : emitWith op operand b = .ok r b') :
    b'.scope = b.scope ∧
      Emits [] 2 b.chunk b'.chunk (fun c => InstrAt c b.chunk.code.size op operand) := by
  unfold emitWith at h
  simp only [bind_eq_ok] at h
  obtain ⟨w, _, hfit, _, _, ⟨⟩, _, _, ⟨⟩, ⟨⟩⟩ := h
  obtain ⟨rfl, hw⟩ := fit_eq_ok hfit
  refine ⟨rfl, ((emits_write b.chunk op.encode).trans (emits_write _ w)).mono ?_⟩
  rintro c ⟨hop, hoperand⟩
  refine ⟨hop, w, ?_, hw⟩
  simpa [Chunk.write] using hoperand

theorem emitWith_lays (op : Opcode) (operand : Nat) :
    Lays (discard (emitWith op operand)) 2 (fun _ a c => InstrAt c a op operand) := by
  refine ⟨fun {b b'} _ h => ?_⟩
  cases hw : emitWith op operand b with
  | ok r b'' =>
    simp only [discard, Functor.discard, Functor.mapConst, EStateM.map, Function.comp, hw] at h
    cases h
    exact emitWith_emits hw
  | error e b'' =>
    simp only [discard, Functor.discard, Functor.mapConst, EStateM.map, Function.comp, hw] at h
    cases h

theorem exists_intern (k : Constant) (b : Builder) : ∃ n b', intern k b = .ok n b' := by
  cases hlisted : b.indices.get? k with
  | some i => exact ⟨i, b, intern_listed hlisted⟩
  | none => exact ⟨_, _, intern_new hlisted⟩

/-- Interning finds or adds a constant. -/
theorem intern_emits {k : Constant} {index : Nat} {b b' : Builder}
    (h : intern k b = .ok index b') :
    b'.scope = b.scope ∧ Emits [] 0 b.chunk b'.chunk (fun c => c.constants[index]? = some k) := by
  cases hlisted : b.indices.get? k with
  | some i =>
    rw [intern_listed hlisted] at h
    cases h
    exact ⟨rfl, { Emits.refl b.chunk with
      holds := fun c hc => hc.constants index k (b.indexed.denotes hlisted) }⟩
  | none =>
    rw [intern_new hlisted] at h
    cases h
    exact ⟨rfl, emits_addConstant _ _⟩

/-- An instruction with a constant that is interned first. -/
theorem intern_lays (op : Opcode) (k : Constant) :
    Lays (do discard (emitWith op (← intern k))) 2 (fun _ a c => ConstAt c a op k) := by
  refine ⟨fun {b b''} hb h => ?_⟩
  obtain ⟨index, b', hintern, hemit⟩ := bind_eq_ok.mp h
  obtain ⟨hscope, hemits⟩ := intern_emits hintern
  obtain ⟨hscope', hemits'⟩ := (emitWith_lays op index).out (by rwa [hscope]) hemit
  refine ⟨hscope'.trans hscope, ((hemits.trans hemits').mono ?_).cast (Nat.zero_add 2)⟩
  rintro c ⟨hk, hinstr⟩
  rw [hemits.size] at hinstr
  exact ⟨index, hinstr, hk⟩

theorem emitNull_lays : Lays emitNull 2 (fun _ a c => ConstAt c a .constant .null) :=
  intern_lays .constant .null

theorem emitName_lays (op : Opcode) (name : String) :
    Lays (emitName op name) 2 (fun _ a c => ConstAt c a op (.str name)) :=
  intern_lays op (.str name)

theorem emitVariable_lays (onLocal onGlobal : Opcode) (name : String) :
    Lays (emitVariable onLocal onGlobal name) 2
      (fun ns a c => VariableAt c ns a onLocal onGlobal name) := by
  refine ⟨fun {b b'} hb h => ?_⟩
  unfold emitVariable at h
  obtain ⟨_, _, ⟨⟩, h⟩ := bind_eq_ok.mp h
  rw [Scope.resolve_eq_slotOf] at h
  simp only [VariableAt]
  cases hslot : slotOf name b.scope.names with
  | some slot =>
    rw [hslot] at h
    exact (emitWith_lays onLocal slot).out hb h
  | none =>
    rw [hslot] at h
    exact (emitName_lays onGlobal name).out hb h

/-! ## Jumps -/

theorem emitJump_emits {op : Opcode} {slot : Nat} {b b' : Builder}
    (h : emitJump op b = .ok slot b') :
    b'.scope = b.scope ∧ slot = b.chunk.code.size + 1 ∧
      Emits [slot] 2 b.chunk b'.chunk (fun c => OpAt c b.chunk.code.size op) := by
  cases h
  have hopen := emits_write_open (b.chunk.writeOp op) 0
  refine ⟨rfl, by simp [Chunk.write], ?_⟩
  exact ((emits_write b.chunk op.encode).trans hopen).mono fun c h => h.1

/-- Filling in a forward jump whose opcode stands before the open word. -/
theorem patchJump_emits {slot : Nat} {opens : List Nat} {n : Nat} {c : Chunk} {P : Chunk → Prop}
    {b b' : Builder} (h : patchJump slot b = .ok () b')
    (hemits : Emits (slot :: opens) n c b.chunk P) (hslot : slot ∉ opens) :
    b'.scope = b.scope ∧ b'.chunk.code.size = b.chunk.code.size ∧
      Emits opens n c b'.chunk (fun d => P d ∧ ∃ w : Word, d.code[slot]? = some w ∧
        (slot : Int) + 1 + w.toInt = b.chunk.code.size ∧ b.chunk.code.size ≤ d.code.size) := by
  unfold patchJump at h
  simp only [bind_eq_ok] at h
  obtain ⟨_, _, ⟨⟩, w, _, hfit, ⟨⟩⟩ := h
  obtain ⟨rfl, hw⟩ := fit_eq_ok hfit
  refine ⟨rfl, by simp [Chunk.patch], (hemits.patch hslot w).mono ?_⟩
  rintro d ⟨hP, hword, hsize⟩
  exact ⟨hP, w, hword, by omega, hsize⟩

theorem emitLoop_emits {start : Nat} {b b' : Builder} (h : emitLoop start b = .ok () b') :
    b'.scope = b.scope ∧ Emits [] 2 b.chunk b'.chunk (fun c =>
      OpAt c b.chunk.code.size .jump ∧ ∃ w : Word, c.code[b.chunk.code.size + 1]? = some w ∧
        (b.chunk.code.size : Int) + 2 + w.toInt = start) := by
  unfold emitLoop at h
  simp only [bind_eq_ok] at h
  obtain ⟨_, _, ⟨⟩, w, _, hfit, ⟨⟩⟩ := h
  obtain ⟨rfl, hw⟩ := fit_eq_ok hfit
  refine ⟨rfl, ((emits_write b.chunk Opcode.jump.encode).trans (emits_write _ w)).mono ?_⟩
  rintro c ⟨hop, hoperand⟩
  refine ⟨hop, w, by simpa [Chunk.write] using hoperand, by omega⟩

end DotScript.Compile
