import DotScript.Proofs.Correspondence.Steps

/-!
# The same instruction in two units

Where the same instruction stands: in units with the same code it does at equal addresses, and in
different code it does where the layout says so.

* `SameUnit C i j`: units with the same code, place by place and function by function;
* `SameUnit.meets`: the same instructions stand at all addresses of such units;
* `meets_op`, `meets_index`, `meets_constant`, `meets_name`, `meets_jump`: instructions that the layout
  of different code puts at two addresses.
-/

namespace DotScript.Machine

open DotScript.Bytecode DotScript.Compile

variable (C : Correspondence)

/-- Two units with the same code, whose functions and places are the same. -/
structure SameUnit (i j : Image) : Prop where
  chunk : i.chunk = j.chunk
  place : ∀ a, C.place i a j a
  function : ∀ p : Prototype, C.function ⟨p.name, p.arity, p.entry, i⟩ ⟨p.name, p.arity, p.entry, j⟩

variable {C}

section
variable {i j : Image} {a b : Nat}

/-! ## Units with the same code -/

theorem readOperand_both (hchunk : i.chunk = j.chunk) :
    Both C (Here C i a j a) readOperand readOperand
      (fun w w' s s' => w = w' ∧ Here C i (a + 1) j (a + 1) s s') := by
  intro s s' h
  simp only [readOperand, bind_apply, thread_apply]
  rw [h.image, h.ip, h.image', h.ip', hchunk]
  cases j.chunk.code[a]? with
  | none => exact .error _ h.like
  | some w => exact .ok ⟨rfl, h.ip_succ⟩

/-- What is done with the address of the next instruction. -/
theorem address_both {α β : Type} {x : Thread → Exec α} {y : Thread → Exec β}
    {Q : α → β → State → State → Prop}
    (h : ∀ t t' : Thread, t.image = i → t.ip = a → t'.image = j → t'.ip = b →
      Both C (Here C i a j b) (x t) (y t') Q) :
    Both C (Here C i a j b) (do x (← thread)) (do y (← thread)) Q := by
  intro s s' hs
  exact h s.thread s'.thread hs.image hs.ip hs.image' hs.ip' s s' hs

theorem readIndex_both (hchunk : i.chunk = j.chunk) :
    Both C (Here C i a j a) readIndex readIndex
      (fun n n' s s' => n = n' ∧ Here C i (a + 1) j (a + 1) s s') := by
  refine address_both fun t t' _ hip _ hip' => ?_
  refine (readOperand_both hchunk).bind fun w w' => .extract fun hw => ?_
  subst hw
  rw [hip, hip']
  by_cases hneg : w.toInt < 0
  · simp only [hneg, if_true]
    exact .fails _ fun _ _ h => h.like
  · simp only [hneg, if_false]
    exact .pure fun _ _ h => ⟨rfl, h⟩

theorem readConstant_both (hchunk : i.chunk = j.chunk) :
    Both C (Here C i a j a) readConstant readConstant
      (fun k k' s s' => k = k' ∧ Here C i (a + 1) j (a + 1) s s') := by
  refine (readIndex_both hchunk).bind fun n n' => .extract fun hn => ?_
  subst hn
  refine address_both fun t t' himage _ himage' _ => ?_
  rw [himage, himage', hchunk]
  cases j.chunk.constants[n]? with
  | none => exact .throw _ fun _ _ h => h.like
  | some k => exact .pure fun _ _ h => ⟨rfl, h⟩

theorem readName_both (hchunk : i.chunk = j.chunk) :
    Both C (Here C i a j a) readName readName
      (fun name name' s s' => name = name' ∧ Here C i (a + 1) j (a + 1) s s') := by
  refine (readConstant_both hchunk).bind fun k k' => .extract fun hk => ?_
  subst hk
  obtain ⟨n, k⟩ := k
  cases k with
  | str s => exact .pure fun _ _ h => ⟨rfl, h⟩
  | _ => exact .throw _ fun _ _ h => h.like

theorem jumpTarget_both (hchunk : i.chunk = j.chunk) (w : Word) :
    Both C (Here C i a j a) (jumpTarget w) (jumpTarget w)
      (fun t t' s s' => t = t' ∧ Here C i a j a s s') := by
  refine address_both fun t t' himage hip himage' hip' => ?_
  simp only [himage, hip, himage', hip', hchunk]
  by_cases hrange : (a : Int) + w.toInt < 0 ∨ (j.chunk.code.size : Int) < a + w.toInt
  · simp only [hrange, if_true]
    exact .fails _ fun _ _ h => h.like
  · simp only [hrange, if_false]
    exact .pure fun _ _ h => ⟨rfl, h⟩

theorem SameUnit.constantValue (h : SameUnit C i j) (k : Constant) :
    (constantValue i k).Like C.function (constantValue j k) := by
  cases k with
  | null => exact .null
  | bool b => exact .bool b
  | number n => exact .number n
  | str s => exact .str s
  | function p => exact .function (h.function p)

theorem SameUnit.operand (h : SameUnit C i j) (a : Nat) (op : Opcode) : Operand C i a j a op := by
  have hplace := h.place (a + 1)
  have hconstant : ConstantAlike C i a j a :=
    ⟨(readConstant_both h.chunk).imp fun k _ _ _ hk => ⟨hk.1 ▸ h.constantValue k.2, hk.2⟩, hplace⟩
  have hindex : IndexAlike C i a j a := ⟨readIndex_both h.chunk, hplace⟩
  have hname : NameAlike C i a j a := ⟨readName_both h.chunk, hplace⟩
  have htarget : TargetAlike C i a j a := by
    refine (readOperand_both h.chunk).imp fun w w' _ _ hw => ⟨?_, hw.2⟩
    rw [← hw.1]
    exact (jumpTarget_both h.chunk w).imp fun t _ _ _ ht => ⟨ht.1 ▸ h.place t, ht.2⟩
  cases op with
  | constant => exact hconstant
  | getGlobal | setGlobal | classDef | method | getProperty | setProperty => exact hname
  | getLocal | setLocal | call | spawn | buildList | buildMap => exact hindex
  | jump => exact htarget
  | jumpIfFalse | tryEnter => exact ⟨htarget, hplace⟩
  | ret => trivial
  | _ => exact h.place a

/-- The same instruction stands at an address of two units with the same code. -/
theorem SameUnit.meets (h : SameUnit C i j) (a : Nat) : Meets C i a j a := by
  have hcode : i.chunk.code[a]? = j.chunk.code[a]? := by rw [h.chunk]
  cases hword : j.chunk.code[a]? with
  | none => exact .off (hcode.trans hword) hword
  | some w =>
    cases hop : Opcode.decode? w with
    | none => exact .invalid (hcode.trans hword) hword hop rfl
    | some op => exact .op (hcode.trans hword) hword hop hop (h.operand (a + 1) op)

/-! ## The layout of different code -/

section
variable {op : Opcode}

theorem readOperand_both_of_code {w w' : Word} (h : i.chunk.code[a]? = some w)
    (h' : j.chunk.code[b]? = some w') :
    Both C (Here C i a j b) readOperand readOperand
      (fun u u' s s' => (u = w ∧ u' = w') ∧ Here C i (a + 1) j (b + 1) s s') := by
  intro s s' hs
  simp only [readOperand, bind_apply, thread_apply]
  rw [hs.image, hs.ip, hs.image', hs.ip', h, h']
  exact .ok ⟨⟨rfl, rfl⟩, hs.ip_succ⟩

theorem readIndex_both_of_instrAt {n n' : Nat} (h : InstrAt i.chunk a op n)
    (h' : InstrAt j.chunk b op n') :
    Both C (Here C i (a + 1) j (b + 1)) readIndex readIndex
      (fun m m' s s' => (m = n ∧ m' = n') ∧ Here C i (a + 2) j (b + 2) s s') := by
  obtain ⟨-, w, hw, hn⟩ := h
  obtain ⟨-, w', hw', hn'⟩ := h'
  have hpos : ¬ w.toInt < 0 := by omega
  have hpos' : ¬ w'.toInt < 0 := by omega
  refine address_both fun t t' _ _ _ _ => ?_
  refine (readOperand_both_of_code hw hw').bind fun u u' => .extract fun hu => ?_
  obtain ⟨rfl, rfl⟩ := hu
  simp only [hpos, hpos', if_false]
  exact .pure fun _ _ hs => ⟨⟨by rw [hn, Int.toNat_natCast], by rw [hn', Int.toNat_natCast]⟩, hs⟩

theorem readConstant_both_of_constAt {k k' : Constant} (h : ConstAt i.chunk a op k)
    (h' : ConstAt j.chunk b op k') :
    Both C (Here C i (a + 1) j (b + 1)) readConstant readConstant
      (fun m m' s s' => (m.2 = k ∧ m'.2 = k') ∧ Here C i (a + 2) j (b + 2) s s') := by
  obtain ⟨n, hinstr, hk⟩ := h
  obtain ⟨n', hinstr', hk'⟩ := h'
  refine (readIndex_both_of_instrAt hinstr hinstr').bind fun m m' => .extract fun hm => ?_
  obtain ⟨rfl, rfl⟩ := hm
  refine address_both fun t t' himage _ himage' _ => ?_
  rw [himage, himage', hk, hk']
  exact .pure fun _ _ hs => ⟨⟨rfl, rfl⟩, hs⟩

theorem readName_both_of_constAt {name : String} (h : ConstAt i.chunk a op (.str name))
    (h' : ConstAt j.chunk b op (.str name)) :
    Both C (Here C i (a + 1) j (b + 1)) readName readName
      (fun m m' s s' => m = m' ∧ Here C i (a + 2) j (b + 2) s s') := by
  refine (readConstant_both_of_constAt h h').bind fun k k' => .extract fun hk => ?_
  obtain ⟨n, k⟩ := k
  obtain ⟨n', k'⟩ := k'
  obtain ⟨rfl, rfl⟩ := hk
  exact .pure fun _ _ hs => ⟨rfl, hs⟩

theorem jumpTarget_both_of_range {w w' : Word} {t t' : Nat} (h : (a : Int) + w.toInt = t)
    (hsize : t ≤ i.chunk.code.size) (h' : (b : Int) + w'.toInt = t')
    (hsize' : t' ≤ j.chunk.code.size) :
    Both C (Here C i a j b) (jumpTarget w) (jumpTarget w')
      (fun u u' s s' => (u = t ∧ u' = t') ∧ Here C i a j b s s') := by
  refine address_both fun t₁ t₁' himage hip himage' hip' => ?_
  have hrange : ¬ ((t : Int) < 0 ∨ (i.chunk.code.size : Int) < t) := by omega
  have hrange' : ¬ ((t' : Int) < 0 ∨ (j.chunk.code.size : Int) < t') := by omega
  simp only [himage, hip, himage', hip', h, h', hrange, hrange', if_false, Int.toNat_natCast]
  exact .pure fun _ _ hs => ⟨⟨rfl, rfl⟩, hs⟩

/-- The same opcode stands at two addresses. -/
theorem meets_op (h : OpAt i.chunk a op) (h' : OpAt j.chunk b op)
    (hoperand : Operand C i (a + 1) j (b + 1) op) : Meets C i a j b :=
  .op h h' (Opcode.decode?_encode op) (Opcode.decode?_encode op) hoperand

theorem meets_ret (h : OpAt i.chunk a .ret) (h' : OpAt j.chunk b .ret) : Meets C i a j b :=
  meets_op h h' trivial

/-- Opcodes followed by a count or slot. -/
def TakesIndex : Opcode → Prop
  | .getLocal | .setLocal | .call | .spawn | .buildList | .buildMap => True
  | _ => False

theorem meets_index {n : Nat} (hop : TakesIndex op) (h : InstrAt i.chunk a op n)
    (h' : InstrAt j.chunk b op n) (hplace : C.place i (a + 2) j (b + 2)) : Meets C i a j b := by
  have hindex : IndexAlike C i (a + 1) j (b + 1) :=
    ⟨(readIndex_both_of_instrAt h h').imp fun _ _ _ _ hm => ⟨hm.1.1.trans hm.1.2.symm, hm.2⟩, hplace⟩
  refine meets_op h.1 h'.1 ?_
  cases op with
  | getLocal | setLocal | call | spawn | buildList | buildMap => exact hindex
  | _ => cases hop

/-- Opcodes followed by a name. -/
def TakesName : Opcode → Prop
  | .getGlobal | .setGlobal | .classDef | .method | .getProperty | .setProperty => True
  | _ => False

theorem meets_name {name : String} (hop : TakesName op) (h : ConstAt i.chunk a op (.str name))
    (h' : ConstAt j.chunk b op (.str name)) (hplace : C.place i (a + 2) j (b + 2)) :
    Meets C i a j b := by
  have hname : NameAlike C i (a + 1) j (b + 1) := ⟨readName_both_of_constAt h h', hplace⟩
  refine meets_op h.opAt h'.opAt ?_
  cases op with
  | getGlobal | setGlobal | classDef | method | getProperty | setProperty => exact hname
  | _ => cases hop

theorem meets_constant {k k' : Constant} (h : ConstAt i.chunk a .constant k)
    (h' : ConstAt j.chunk b .constant k')
    (hk : (constantValue i k).Like C.function (constantValue j k'))
    (hplace : C.place i (a + 2) j (b + 2)) : Meets C i a j b := by
  refine meets_op h.opAt h'.opAt ⟨(readConstant_both_of_constAt h h').imp fun m m' _ _ hm => ?_, hplace⟩
  rw [hm.1.1, hm.1.2]
  exact ⟨hk, hm.2⟩

/-- Distances at two addresses lead to places that are the same. -/
theorem targetAlike_of_jumpAt {t t' : Nat} (h : JumpAt i.chunk a op t) (h' : JumpAt j.chunk b op t')
    (htarget : C.place i t j t') : TargetAlike C i (a + 1) j (b + 1) := by
  obtain ⟨-, w, hw, ht, hsize⟩ := h
  obtain ⟨-, w', hw', ht', hsize'⟩ := h'
  refine (readOperand_both_of_code hw hw').imp fun u u' _ _ hu => ⟨?_, hu.2⟩
  rw [hu.1.1, hu.1.2]
  refine (jumpTarget_both_of_range ?_ hsize ?_ hsize').imp fun v v' _ _ hv => ?_
  · push_cast
    omega
  · push_cast
    omega
  · rw [hv.1.1, hv.1.2]
    exact ⟨htarget, hv.2⟩

theorem meets_jump {t t' : Nat} (h : JumpAt i.chunk a .jump t) (h' : JumpAt j.chunk b .jump t')
    (htarget : C.place i t j t') : Meets C i a j b :=
  meets_op h.1 h'.1 (targetAlike_of_jumpAt h h' htarget)

/-- Opcodes followed by a distance that may go on behind it. -/
def Forks : Opcode → Prop
  | .jumpIfFalse | .tryEnter => True
  | _ => False

theorem meets_fork {t t' : Nat} (hop : Forks op) (h : JumpAt i.chunk a op t)
    (h' : JumpAt j.chunk b op t') (htarget : C.place i t j t')
    (hplace : C.place i (a + 2) j (b + 2)) : Meets C i a j b := by
  have htargets := targetAlike_of_jumpAt h h' htarget
  refine meets_op h.1 h'.1 ?_
  cases op with
  | jumpIfFalse | tryEnter => exact ⟨htargets, hplace⟩
  | _ => cases hop

end

end

end DotScript.Machine
