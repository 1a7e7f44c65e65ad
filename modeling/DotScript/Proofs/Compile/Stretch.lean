import DotScript.Bytecode.Listing
import DotScript.Proofs.Semantics.Declared

/-!
# Stretches of code

Code as a list of whole instructions, and what can be said of a part of it by itself. A `Stretch`
reads as instructions from its first address to the one behind it. The functions declared in it have
their code in regions of their own, and its jumps stay inside and in the same region, apart from
those to given addresses. Stretches that follow each other make up one stretch, and the code of a
function becomes a region of the stretch around it.
-/

namespace DotScript.Bytecode

/-! ## Instructions -/

/-- An opcode with its operand, which counts as zero where there is none, and where it stands. -/
structure Instruction where
  address : Nat
  opcode : Opcode
  operand : Word := 0
  deriving DecidableEq, Repr

namespace Instruction

/-- The address behind an instruction. -/
def next (i : Instruction) : Nat := i.address + if i.opcode.hasOperand then 2 else 1

/-- Where a jump goes. -/
def target (i : Instruction) : Int := i.address + 2 + i.operand.toInt

def jumpsBack (i : Instruction) : Bool := i.opcode.isJump && i.target ≤ i.address

/-- An instruction as a listing has it. -/
def item (i : Instruction) : Item :=
  if i.opcode.hasOperand then .withOperand i.opcode i.operand else .plain i.opcode

end Instruction

/-- Words from an address on as instructions, if they are nothing but whole ones. -/
def instructionsFrom? (a : Nat) : List Word → Option (List Instruction)
  | [] => some []
  | [w] =>
    match Opcode.decode? w with
    | some op => if op.hasOperand then none else some [⟨a, op, 0⟩]
    | none => none
  | w :: o :: ws =>
    match Opcode.decode? w with
    | some op =>
      if op.hasOperand then (instructionsFrom? (a + 2) ws).map (⟨a, op, o⟩ :: ·)
      else (instructionsFrom? (a + 1) (o :: ws)).map (⟨a, op, 0⟩ :: ·)
    | none => none

/-- The code of a chunk as instructions, if it is nothing but whole ones. -/
def Chunk.instructions? (c : Chunk) : Option (List Instruction) :=
  instructionsFrom? 0 c.code.toList

/-- Words that are whole instructions are listed as these. -/
theorem decodeFrom_of_instructionsFrom? {a : Nat} {ws : List Word} {is : List Instruction}
    (h : instructionsFrom? a ws = some is) :
    decodeFrom a ws = is.map fun i => (i.address, i.item) := by
  fun_induction instructionsFrom? a ws generalizing is with
  | case1 a =>
    cases h
    rfl
  | case2 | case4 | case7 => cases h
  | case3 a w op hop hoperand =>
    cases h
    simp [decodeFrom, hop, hoperand, Instruction.item]
  | case5 a w o ws op hop hoperand ih | case6 a w o ws op hop hoperand ih =>
    obtain ⟨rest, hrest, rfl⟩ := Option.map_eq_some_iff.mp h
    simp [decodeFrom, hop, hoperand, ih hrest, Instruction.item]

/-- A chunk that is nothing but whole instructions is listed as these. -/
theorem Chunk.items_of_instructions? {c : Chunk} {is : List Instruction}
    (h : c.instructions? = some is) : c.items = is.map fun i => (i.address, i.item) :=
  decodeFrom_of_instructionsFrom? h

/-- An instruction stands in a chunk. -/
structure Instruction.At (c : Chunk) (i : Instruction) : Prop where
  opcode : c.code[i.address]? = some i.opcode.encode
  operand : if i.opcode.hasOperand then c.code[i.address + 1]? = some i.operand else i.operand = 0

/-- The code from one address to another is made up of given instructions. -/
inductive Reads (c : Chunk) : Nat → List Instruction → Nat → Prop
  | nil {a} : Reads c a [] a
  | cons {i a is hi} (ha : i.address = a) (h : i.At c) (hrest : Reads c i.next is hi) :
    Reads c a (i :: is) hi

theorem Instruction.lt_next (i : Instruction) : i.address < i.next := by
  simp only [Instruction.next]
  split <;> omega

namespace Reads

variable {c : Chunk} {lo mid hi : Nat} {is is' : List Instruction} {i j : Instruction}

theorem append (h : Reads c lo is mid) (h' : Reads c mid is' hi) : Reads c lo (is ++ is') hi := by
  induction h with
  | nil => exact h'
  | cons ha hi _ ih => exact .cons ha hi (ih h')

theorem le (h : Reads c lo is hi) : lo ≤ hi := by
  induction h with
  | nil => exact Nat.le_refl _
  | @cons i a is hi ha _ _ ih =>
    have := i.lt_next
    omega

theorem bounds (h : Reads c lo is hi) (hmem : i ∈ is) : lo ≤ i.address ∧ i.next ≤ hi := by
  induction h with
  | nil => cases hmem
  | @cons j a is hi ha _ hrest ih =>
    rcases List.mem_cons.mp hmem with rfl | hmem
    · exact ⟨Nat.le_of_eq ha.symm, hrest.le⟩
    · have := j.lt_next
      have := ih hmem
      omega

theorem at_of_mem (h : Reads c lo is hi) (hmem : i ∈ is) : i.At c := by
  induction h with
  | nil => cases hmem
  | cons _ hat _ ih =>
    rcases List.mem_cons.mp hmem with rfl | hmem
    · exact hat
    · exact ih hmem

/-- An instruction is the last one, or another one follows. -/
theorem follows (h : Reads c lo is hi) (hmem : i ∈ is) :
    i.next = hi ∨ ∃ j ∈ is, j.address = i.next := by
  induction h with
  | nil => cases hmem
  | @cons j a is hi _ _ hrest ih =>
    rcases List.mem_cons.mp hmem with rfl | hmem
    · cases hrest with
      | nil => exact .inl rfl
      | @cons k _ is _ ha => exact .inr ⟨k, by simp, ha⟩
    · exact (ih hmem).imp_right fun ⟨k, hk, heq⟩ => ⟨k, List.mem_cons_of_mem _ hk, heq⟩

theorem exists_first (h : Reads c lo is hi) (hlt : lo < hi) : ∃ i ∈ is, i.address = lo := by
  cases h with
  | nil => exact absurd hlt (Nat.lt_irrefl _)
  | @cons i _ is _ ha => exact ⟨i, List.mem_cons_self, ha⟩

/-- Instructions do not overlap. -/
theorem disjoint (h : Reads c lo is hi) (hmem : i ∈ is) (hmem' : j ∈ is) :
    i = j ∨ i.next ≤ j.address ∨ j.next ≤ i.address := by
  induction h with
  | nil => cases hmem
  | cons _ _ hrest ih =>
    rcases List.mem_cons.mp hmem with rfl | hi <;> rcases List.mem_cons.mp hmem' with rfl | hj
    · exact .inl rfl
    · exact .inr (.inl (hrest.bounds hj).1)
    · exact .inr (.inr (hrest.bounds hi).1)
    · exact ih hi hj

/-- Code that reads as instructions up to its end is nothing but these. -/
theorem instructionsFrom?_eq (h : Reads c lo is hi) (hend : hi = c.code.size) :
    instructionsFrom? lo (c.code.toList.drop lo) = some is := by
  induction h with
  | nil =>
    rw [List.drop_of_length_le (by simp [hend])]
    rfl
  | @cons i a is hi ha hat hrest ih =>
    subst ha
    obtain ⟨hop, hoperand⟩ := hat
    have hnext := ih hend
    have hword {b : Nat} {w : Word} (h : c.code[b]? = some w) :
        c.code.toList.drop b = w :: c.code.toList.drop (b + 1) := by
      obtain ⟨hlt, rfl⟩ := Array.getElem?_eq_some_iff.mp h
      rw [List.drop_eq_getElem_cons (by simpa using hlt), Array.getElem_toList]
    obtain ⟨a, op, w⟩ := i
    simp only [Instruction.next] at hoperand hop hnext
    rw [hword hop]
    cases hhas : op.hasOperand with
    | true =>
      simp only [hhas, if_true] at hoperand hnext
      rw [hword hoperand]
      simp [instructionsFrom?, hhas, hnext]
    | false =>
      simp only [hhas, if_false, Bool.false_eq_true] at hoperand hnext
      subst hoperand
      cases hrest' : c.code.toList.drop (a + 1) with
      | nil =>
        rw [hrest'] at hnext
        cases hnext
        simp [instructionsFrom?, hhas]
      | cons o ws =>
        rw [hrest'] at hnext
        simp [instructionsFrom?, hhas, hnext]

end Reads

end DotScript.Bytecode

namespace DotScript.Compile

open DotScript.Bytecode DotScript.Semantics DotScript.Syntax

/-! ## Regions -/

/-- The region of a function: the addresses of the code of its body. -/
structure Region where
  entry : Nat
  stop : Nat

def Region.Covers (r : Region) (a : Nat) : Prop := r.entry ≤ a ∧ a < r.stop

/-- The region of a function that comes later in the text is inside another one or behind it. -/
def Region.Before (r r' : Region) : Prop :=
  r.entry < r'.entry ∧ (r'.stop < r.stop ∨ r.stop < r'.entry)

/-- Where the code of the body of a declared function stands. -/
def region (d : Declared) : Region :=
  ⟨d.function.entry, d.function.entry + bodyWidth d.decl.body.stmts⟩

/-- The constant of a declared function. -/
def prototype (d : Declared) : Prototype := ⟨d.function.name, d.function.arity, d.function.entry⟩

/-- An address lies in a region as another one does, whichever the region. -/
def SameRegions (ds : List Declared) (a b : Nat) : Prop :=
  ∀ d ∈ ds, (region d).Covers a ↔ (region d).Covers b

/-- What stands around a region: a jump over it before, a return at its end, and behind it the
instruction that pushes the function. -/
structure Framed (c : Chunk) (is : List Instruction) (d : Declared) : Prop where
  skip : ∃ i ∈ is, i.opcode = .jump ∧ i.next = (region d).entry ∧ i.target = (region d).stop
  ret : ∃ i ∈ is, i.opcode = .ret ∧ i.next = (region d).stop
  push : ∃ i ∈ is, i.opcode = .constant ∧ i.address = (region d).stop ∧
    c.constantAt? i.operand = some (.function (prototype d))

/-- The constant an instruction takes: it exists, is a string if it names something, and a function
only if that is declared. -/
def Takes (c : Chunk) (ds : List Declared) (i : Instruction) : Prop :=
  ∃ k, c.constantAt? i.operand = some k ∧ (i.opcode ≠ .constant → ∃ s, k = .str s) ∧
    ∀ f, k = .function f → ∃ d ∈ ds, f = prototype d

/-! ## Stretches -/

/-- Code with the functions declared in it and the targets of its loops. Jumps to `opens` may leave
it. -/
structure Stretch (c : Chunk) (opens : List Nat) (lo hi : Nat) (is : List Instruction)
    (ds : List Declared) (loops : List Nat) : Prop where
  reads : Reads c lo is hi
  takes : ∀ i ∈ is, i.opcode.usesConstant → Takes c ds i
  jumps : ∀ i ∈ is, i.opcode.isJump → ∃ t : Nat, i.target = t ∧
    ((t ∈ opens ∧ ∀ d ∈ ds, ¬ (region d).Covers i.address) ∨
      ((∃ j ∈ is, j.address = t) ∧ SameRegions ds i.address t))
  loops : (is.filter Instruction.jumpsBack).map (fun i => (i.opcode, i.target)) =
    loops.map fun a : Nat => (Opcode.jump, (a : Int))
  within : ∀ d ∈ ds, lo + 2 ≤ (region d).entry ∧ (region d).entry < (region d).stop ∧
    (region d).stop < hi
  ordered : ds.Pairwise fun d d' => (region d).Before (region d')
  framed : ∀ d ∈ ds, Framed c is d

section
variable {c : Chunk} {opens : List Nat} {lo mid hi : Nat} {is is' : List Instruction}
  {ds ds' : List Declared} {loops loops' : List Nat}

theorem Framed.mono {d : Declared} (h : Framed c is d) (hsub : is ⊆ is') : Framed c is' d where
  skip := h.skip.imp fun _ => And.imp_left (@hsub _)
  ret := h.ret.imp fun _ => And.imp_left (@hsub _)
  push := h.push.imp fun _ => And.imp_left (@hsub _)

theorem Takes.mono {i : Instruction} (h : Takes c ds i) (hsub : ds ⊆ ds') : Takes c ds' i := by
  obtain ⟨k, hk, hstr, hfunction⟩ := h
  refine ⟨k, hk, hstr, fun f hf => ?_⟩
  obtain ⟨d, hd, heq⟩ := hfunction f hf
  exact ⟨d, hsub hd, heq⟩

namespace Stretch

theorem nil (a : Nat) : Stretch c opens a a [] [] [] where
  reads := .nil
  takes := by simp
  jumps := by simp
  loops := rfl
  within := by simp
  ordered := .nil
  framed := by simp

/-- Nothing outside of a stretch lies in its regions. -/
theorem not_covers (h : Stretch c opens lo hi is ds loops) {d : Declared} (hd : d ∈ ds) {a : Nat}
    (ha : a < lo + 2 ∨ hi ≤ a) : ¬ (region d).Covers a := by
  have hwithin := h.within d hd
  simp only [Region.Covers]
  omega

theorem sameRegions_append {a b : Nat} (h : SameRegions ds a b) (h' : SameRegions ds' a b) :
    SameRegions (ds ++ ds') a b := by
  intro d hd
  exact (List.mem_append.mp hd).elim (h d) (h' d)

/-- Stretches that follow each other. What jumps behind the first of them stays in both. -/
theorem append (h : Stretch c (mid :: opens) lo mid is ds loops)
    (h' : Stretch c opens mid hi is' ds' loops') (hmid : mid ∈ opens ∨ mid < hi) :
    Stretch c opens lo hi (is ++ is') (ds ++ ds') (loops ++ loops') where
  reads := h.reads.append h'.reads
  takes := by
    intro i hi
    rcases List.mem_append.mp hi with hi | hi
    · exact fun huses => (h.takes i hi huses).mono (List.subset_append_left ..)
    · exact fun huses => (h'.takes i hi huses).mono (List.subset_append_right ..)
  jumps := by
    intro i hi hjump
    rcases List.mem_append.mp hi with hi | hi
    · have hbounds := h.reads.bounds hi
      have hlt := i.lt_next
      have hright : ∀ d ∈ ds', ¬ (region d).Covers i.address := fun d hd =>
        h'.not_covers hd (.inl (by omega))
      obtain ⟨t, ht, ⟨hopen, houter⟩ | ⟨⟨j, hj, rfl⟩, hsame⟩⟩ := h.jumps i hi hjump
      · refine ⟨t, ht, ?_⟩
        rcases List.mem_cons.mp hopen with rfl | hopen
        · rcases hmid with hopen | hmid
          · exact .inl ⟨hopen, fun d hd => (List.mem_append.mp hd).elim (houter d) (hright d)⟩
          · obtain ⟨j, hj, heq⟩ := h'.reads.exists_first hmid
            refine .inr ⟨⟨j, List.mem_append_right _ hj, heq⟩, sameRegions_append ?_ ?_⟩
            · exact fun d hd => iff_of_false (houter d hd) (h.not_covers hd (.inr (Nat.le_refl _)))
            · exact fun d hd => iff_of_false (hright d hd) (h'.not_covers hd (.inl (by omega)))
        · exact .inl ⟨hopen, fun d hd => (List.mem_append.mp hd).elim (houter d) (hright d)⟩
      · refine ⟨j.address, ht, .inr ⟨⟨j, List.mem_append_left _ hj, rfl⟩, ?_⟩⟩
        have hbounds' := h.reads.bounds hj
        have hlt' := j.lt_next
        exact sameRegions_append hsame fun d hd =>
          iff_of_false (hright d hd) (h'.not_covers hd (.inl (by omega)))
    · have hbounds := h'.reads.bounds hi
      have hleft : ∀ d ∈ ds, ¬ (region d).Covers i.address := fun d hd =>
        h.not_covers hd (.inr hbounds.1)
      obtain ⟨t, ht, ⟨hopen, houter⟩ | ⟨⟨j, hj, rfl⟩, hsame⟩⟩ := h'.jumps i hi hjump
      · exact ⟨t, ht, .inl ⟨hopen, fun d hd => (List.mem_append.mp hd).elim (hleft d) (houter d)⟩⟩
      · refine ⟨j.address, ht, .inr ⟨⟨j, List.mem_append_right _ hj, rfl⟩, ?_⟩⟩
        exact sameRegions_append (fun d hd => iff_of_false (hleft d hd)
          (h.not_covers hd (.inr (h'.reads.bounds hj).1))) hsame
  loops := by rw [List.filter_append, List.map_append, h.loops, h'.loops, List.map_append]
  within := by
    have hle := h.reads.le
    have hle' := h'.reads.le
    intro d hd
    rcases List.mem_append.mp hd with hd | hd
    · have := h.within d hd
      omega
    · have := h'.within d hd
      omega
  ordered := by
    refine List.pairwise_append.mpr ⟨h.ordered, h'.ordered, fun d hd d' hd' => ?_⟩
    have := h.within d hd
    have := h'.within d' hd'
    simp only [Region.Before]
    omega
  framed := by
    intro d hd
    rcases List.mem_append.mp hd with hd | hd
    · exact (h.framed d hd).mono (List.subset_append_left ..)
    · exact (h'.framed d hd).mono (List.subset_append_right ..)

/-- Jumps to the beginning of a stretch stay in it. -/
theorem close (h : Stretch c (lo :: opens) lo hi is ds loops) (hlt : lo < hi) :
    Stretch c opens lo hi is ds loops := by
  refine { h with jumps := fun i hi hjump => ?_ }
  obtain ⟨t, ht, ⟨hopen, houter⟩ | hinside⟩ := h.jumps i hi hjump
  · refine ⟨t, ht, ?_⟩
    rcases List.mem_cons.mp hopen with rfl | hopen
    · exact .inr ⟨h.reads.exists_first hlt, fun d hd =>
        iff_of_false (houter d hd) (h.not_covers hd (.inl (by omega)))⟩
    · exact .inl ⟨hopen, houter⟩
  · exact ⟨t, ht, .inr hinside⟩

/-- An instruction that does not jump. -/
theorem single {i : Instruction} (h : i.At c) (hjump : i.opcode.isJump = false)
    (htakes : i.opcode.usesConstant → Takes c [] i) :
    Stretch c opens i.address i.next [i] [] [] where
  reads := .cons rfl h .nil
  takes := by simpa using htakes
  jumps := by simp [hjump]
  loops := by simp [Instruction.jumpsBack, hjump]
  within := by simp
  ordered := .nil
  framed := by simp

/-- A jump forth. -/
theorem jumpForth {i : Instruction} {t : Nat} (h : i.At c) (hjump : i.opcode.isJump = true)
    (ht : i.target = t) (hopen : t ∈ opens) (hforth : i.address < t) :
    Stretch c opens i.address i.next [i] [] [] where
  reads := .cons rfl h .nil
  takes := by
    intro j hj
    obtain rfl := List.mem_singleton.mp hj
    cases hop : j.opcode <;> simp_all [Opcode.isJump, Opcode.usesConstant]
  jumps := by
    intro j hj _
    obtain rfl := List.mem_singleton.mp hj
    exact ⟨t, ht, .inl ⟨hopen, by simp⟩⟩
  loops := by
    have hnot : ¬ i.target ≤ i.address := by omega
    simp [Instruction.jumpsBack, hnot]
  within := by simp
  ordered := .nil
  framed := by simp

/-- A jump back. -/
theorem jumpBack {i : Instruction} {t : Nat} (h : i.At c) (hop : i.opcode = .jump)
    (ht : i.target = t) (hopen : t ∈ opens) (hback : t ≤ i.address) :
    Stretch c opens i.address i.next [i] [] [t] where
  reads := .cons rfl h .nil
  takes := by simp [hop, Opcode.usesConstant]
  jumps := by
    intro j hj _
    obtain rfl := List.mem_singleton.mp hj
    exact ⟨t, ht, .inl ⟨hopen, by simp⟩⟩
  loops := by
    have hle : i.target ≤ i.address := by omega
    simp [Instruction.jumpsBack, hop, Opcode.isJump, ht, hback]
  within := by simp
  ordered := .nil
  framed := by simp

/-- A function as a region of the stretch around it, with the instruction that pushes it. -/
theorem function {a : Nat} {d : Declared} {skip ret push : Instruction}
    (hentry : (region d).entry = a + 2)
    (hskip : skip.At c) (haddress : skip.address = a) (hop : skip.opcode = .jump)
    (htarget : skip.target = (region d).stop)
    (hbody : Stretch c [] (a + 2) (region d).stop is ds loops)
    (hret : ret ∈ is) (hretop : ret.opcode = .ret) (hnext : ret.next = (region d).stop)
    (hpush : push.At c) (hpushAddress : push.address = (region d).stop)
    (hpushop : push.opcode = .constant)
    (hconstant : c.constantAt? push.operand = some (.function (prototype d))) :
    Stretch c opens a ((region d).stop + 2) (skip :: (is ++ [push])) (d :: ds) loops where
  reads := by
    have hnextSkip : skip.next = a + 2 := by simp [Instruction.next, hop, Opcode.hasOperand, haddress]
    have hnextPush : push.next = (region d).stop + 2 := by
      simp [Instruction.next, hpushop, Opcode.hasOperand, hpushAddress]
    refine .cons haddress hskip (hnextSkip ▸ hbody.reads.append ?_)
    exact .cons hpushAddress hpush (hnextPush ▸ .nil)
  takes := by
    intro i hi huses
    simp only [List.mem_cons, List.mem_append, List.not_mem_nil, or_false] at hi
    obtain rfl | hi | rfl := hi
    · rw [hop] at huses
      cases huses
    · exact (hbody.takes i hi huses).mono (List.subset_cons_self ..)
    · refine ⟨_, hconstant, fun hne => absurd hpushop hne, fun f hf => ?_⟩
      cases hf
      exact ⟨d, List.mem_cons_self, rfl⟩
  jumps := by
    have hlast := hbody.reads.bounds hret
    have hlt := ret.lt_next
    have houter : ∀ b, b < a + 2 ∨ (region d).stop ≤ b → ∀ d' ∈ d :: ds, ¬ (region d').Covers b := by
      intro b hb d' hd'
      rcases List.mem_cons.mp hd' with rfl | hd'
      · simp only [Region.Covers]
        omega
      · exact hbody.not_covers hd' (by omega)
    intro i hi hjump
    simp only [List.mem_cons, List.mem_append, List.not_mem_nil, or_false] at hi
    obtain rfl | hi | rfl := hi
    · refine ⟨(region d).stop, htarget, .inr ⟨⟨push, by simp, hpushAddress⟩, fun d' hd' => ?_⟩⟩
      exact iff_of_false (houter _ (.inl (by omega)) d' hd') (houter _ (.inr (Nat.le_refl _)) d' hd')
    · obtain ⟨t, ht, ⟨hopen, -⟩ | ⟨⟨j, hj, rfl⟩, hsame⟩⟩ := hbody.jumps i hi hjump
      · cases hopen
      · refine ⟨j.address, ht, .inr ⟨⟨j, by simp [hj], rfl⟩, fun d' hd' => ?_⟩⟩
        rcases List.mem_cons.mp hd' with rfl | hd'
        · have hbounds := hbody.reads.bounds hi
          have hbounds' := hbody.reads.bounds hj
          have := i.lt_next
          have := j.lt_next
          simp only [Region.Covers]
          omega
        · exact hsame d' hd'
    · rw [hpushop] at hjump
      cases hjump
  loops := by
    have hlast := hbody.reads.le
    have hnotSkip : skip.jumpsBack = false := by
      have hnot : ¬ skip.target ≤ skip.address := by omega
      simp [Instruction.jumpsBack, hnot]
    have hnotPush : push.jumpsBack = false := by
      simp [Instruction.jumpsBack, hpushop, Opcode.isJump]
    rw [List.filter_cons_of_neg (by simp [hnotSkip]), List.filter_append,
      List.filter_cons_of_neg (by simp [hnotPush]), List.filter_nil, List.append_nil, hbody.loops]
  within := by
    have hlast := hbody.reads.bounds hret
    have hlt := ret.lt_next
    intro d' hd'
    rcases List.mem_cons.mp hd' with rfl | hd'
    · omega
    · have := hbody.within d' hd'
      omega
  ordered := by
    refine List.pairwise_cons.mpr ⟨fun d' hd' => ?_, hbody.ordered⟩
    have := hbody.within d' hd'
    simp only [Region.Before]
    omega
  framed := by
    intro d' hd'
    rcases List.mem_cons.mp hd' with rfl | hd'
    · refine ⟨⟨skip, by simp, hop, ?_, htarget⟩, ⟨ret, by simp [hret], hretop, hnext⟩,
        ⟨push, by simp, hpushop, hpushAddress, hconstant⟩⟩
      simp [Instruction.next, hop, Opcode.hasOperand, haddress, hentry]
    · refine (hbody.framed d' hd').mono fun i hi => ?_
      simp [hi]

end Stretch

end

end DotScript.Compile
