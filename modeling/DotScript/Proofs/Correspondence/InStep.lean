import DotScript.Proofs.Correspondence.Units

/-!
# Code that goes in step

Two addresses in the code of two chunks from which the same instructions are reached again and
again, as the layout has it, apart from jumps that only the left code has. The code may jump back, so
this is a greatest fixed point, relative to pairs of addresses that are assumed to be fine.

* `ConstantLike`: constants that stand for the same value;
* `Twin`: the same instruction stands at two addresses;
* `InStep`: from two addresses only twins are reached; `StepsOn`: or addresses that are assumed;
* `InStep.leads`: machines at such addresses do the same.
-/

namespace DotScript.Machine

open DotScript.Bytecode DotScript.Compile

/-- Constants that stand for the same value; those of functions are related by `G`. -/
inductive ConstantLike (G : Prototype → Prototype → Prop) : Constant → Constant → Prop
  | null : ConstantLike G .null .null
  | bool (b : Bool) : ConstantLike G (.bool b) (.bool b)
  | number (n : Number) : ConstantLike G (.number n) (.number n)
  | str (s : String) : ConstantLike G (.str s) (.str s)
  | function {p p'} (h : G p p') : ConstantLike G (.function p) (.function p')

section
variable (G : Prototype → Prototype → Prop) (c d : Chunk) (K : Nat → Nat → Prop)

/-- Opcodes without an operand that go on behind themselves. -/
def Bare : Opcode → Prop
  | .add | .subtract | .multiply | .divide | .negate | .not | .print | .pop | .less | .greater
  | .lessEqual | .greaterEqual | .equal | .notEqual | .importUnit | .tryExit => True
  | _ => False

/-- The same instruction stands at two addresses, and `K` holds wherever it leads. -/
inductive Twin (a b : Nat) : Prop
  | bare {op} (hop : Bare op) (h : OpAt c a op) (h' : OpAt d b op)
    (hnext : K (a + 1) (b + 1))
  | ret (h : OpAt c a .ret) (h' : OpAt d b .ret)
  | index {op n} (hop : TakesIndex op) (h : InstrAt c a op n) (h' : InstrAt d b op n)
    (hnext : K (a + 2) (b + 2))
  | name {op s} (hop : TakesName op) (h : ConstAt c a op (.str s))
    (h' : ConstAt d b op (.str s)) (hnext : K (a + 2) (b + 2))
  | constant {k k'} (h : ConstAt c a .constant k) (h' : ConstAt d b .constant k')
    (hk : ConstantLike G k k') (hnext : K (a + 2) (b + 2))
  | jump {t t'} (h : JumpAt c a .jump t) (h' : JumpAt d b .jump t') (htarget : K t t')
  | fork {op t t'} (hop : Forks op) (h : JumpAt c a op t) (h' : JumpAt d b op t')
    (htarget : K t t') (hnext : K (a + 2) (b + 2))

/-- Jumps of the left code lead to a twin. -/
inductive Approach (b : Nat) : Nat → Prop
  | twin {a} (h : Twin G c d K a b) : Approach b a
  | skip {a t} (h : JumpAt c a .jump t) (htarget : K t b) (hrest : Approach b t) : Approach b a

/-- Only twins are reached from two addresses, apart from pairs that `K` assumes. -/
def InStep (a b : Nat) : Prop :=
  ∃ P : Nat → Nat → Prop, P a b ∧ ∀ x y, P x y → Approach G c d (fun x y => P x y ∨ K x y) y x

/-- Two addresses are assumed, or only twins are reached from them. -/
def StepsOn (a b : Nat) : Prop := K a b ∨ InStep G c d K a b

end

section
variable {G : Prototype → Prototype → Prop} {c d : Chunk} {K K' : Nat → Nat → Prop} {a b : Nat}

theorem Twin.mono (h : Twin G c d K a b) (hK : ∀ x y, K x y → K' x y) : Twin G c d K' a b := by
  cases h with
  | bare hop h h' hnext => exact .bare hop h h' (hK _ _ hnext)
  | ret h h' => exact .ret h h'
  | index hop h h' hnext => exact .index hop h h' (hK _ _ hnext)
  | name hop h h' hnext => exact .name hop h h' (hK _ _ hnext)
  | constant h h' hk hnext => exact .constant h h' hk (hK _ _ hnext)
  | jump h h' htarget => exact .jump h h' (hK _ _ htarget)
  | fork hop h h' htarget hnext => exact .fork hop h h' (hK _ _ htarget) (hK _ _ hnext)

theorem Approach.mono (h : Approach G c d K b a) (hK : ∀ x y, K x y → K' x y) :
    Approach G c d K' b a := by
  induction h with
  | twin h => exact .twin (h.mono hK)
  | skip h htarget _ ih => exact .skip h (hK _ _ htarget) ih

namespace InStep

theorem mono (h : InStep G c d K a b) (hK : ∀ x y, K x y → K' x y) : InStep G c d K' a b := by
  obtain ⟨P, hP, hclosed⟩ := h
  exact ⟨P, hP, fun x y hx => (hclosed x y hx).mono fun x y => Or.imp_right (hK x y)⟩

/-- What is reached from two addresses if they are in step. -/
theorem approach (h : InStep G c d K a b) : Approach G c d (StepsOn G c d K) b a := by
  obtain ⟨P, hP, hclosed⟩ := h
  exact (hclosed a b hP).mono fun x y hx => hx.elim (fun hx => .inr ⟨P, hx, hclosed⟩) .inl

theorem of_approach (h : Approach G c d (StepsOn G c d K) b a) : InStep G c d K a b := by
  refine ⟨fun x y => (x = a ∧ y = b) ∨ InStep G c d K x y, .inl ⟨rfl, rfl⟩, ?_⟩
  rintro x y (⟨rfl, rfl⟩ | hx)
  · exact h.mono fun x y hx => hx.elim .inr fun hx => .inl (.inr hx)
  · exact hx.approach.mono fun x y hx => hx.elim .inr fun hx => .inl (.inr hx)

/-- The same instruction, followed by addresses in step. -/
theorem of_twin (h : Twin G c d (StepsOn G c d K) a b) : InStep G c d K a b := .of_approach (.twin h)

/-- A jump of the left code only. -/
theorem of_skip {t : Nat} (h : JumpAt c a .jump t) (hrest : InStep G c d K t b) :
    InStep G c d K a b :=
  .of_approach (.skip h (.inr hrest) hrest.approach)

/-- Two addresses may be assumed for code that comes back to them. -/
theorem of_cycle (h : InStep G c d (fun x y => K x y ∨ (x = a ∧ y = b)) a b) : InStep G c d K a b := by
  obtain ⟨P, hP, hclosed⟩ := h
  refine ⟨P, hP, fun x y hx => (hclosed x y hx).mono ?_⟩
  rintro x y (hx | hx | ⟨rfl, rfl⟩)
  · exact .inl hx
  · exact .inr hx
  · exact .inl hP

end InStep

theorem StepsOn.mono (h : StepsOn G c d K a b) (hK : ∀ x y, K x y → K' x y) :
    StepsOn G c d K' a b :=
  h.imp (hK a b) fun h => h.mono hK

/-- Addresses in step lie in the code. -/
theorem Approach.lt_size (h : Approach G c d K b a) : a < c.code.size := by
  have hop {op : Opcode} (h : OpAt c a op) : a < c.code.size :=
    (Array.getElem?_eq_some_iff.mp h).1
  cases h with
  | skip h => exact hop h.1
  | twin h =>
    cases h with
    | bare _ h | ret h => exact hop h
    | index _ h | jump h | fork _ h => exact hop h.1
    | name _ h | constant h => exact hop h.opAt

theorem InStep.lt_size (h : InStep G c d K a b) : a < c.code.size := h.approach.lt_size

end

/-! ## Machines at such addresses -/

section
variable {G : Prototype → Prototype → Prop} {c d : Chunk} {K : Nat → Nat → Prop} {a b : Nat}
  {C : Correspondence} {i j : Image}

theorem ConstantLike.value {F : Function → Function → Prop} {k k' : Constant}
    (h : ConstantLike G k k')
    (hG : ∀ p p', G p p' → F ⟨p.name, p.arity, p.entry, i⟩ ⟨p'.name, p'.arity, p'.entry, j⟩) :
    (constantValue i k).Like F (constantValue j k') := by
  cases h with
  | null => exact .null
  | bool b => exact .bool b
  | number n => exact .number n
  | str s => exact .str s
  | function h => exact .function (hG _ _ h)

variable (hc : Begins c i.chunk) (hd : Begins d j.chunk)
  (hG : ∀ p p', G p p' → C.function ⟨p.name, p.arity, p.entry, i⟩ ⟨p'.name, p'.arity, p'.entry, j⟩)
include hc hd hG

/-- Where twins stand, the same instruction stands. -/
theorem Twin.meets (hK : ∀ x y, K x y → C.place i x j y) (h : Twin G c d K a b) : Meets C i a j b := by
  cases h with
  | @bare op hop h h' hnext =>
    have hplace := hK _ _ hnext
    refine meets_op (hc.opAt h) (hd.opAt h') ?_
    cases op <;> first | exact hplace | cases hop
  | ret h h' => exact meets_ret (hc.opAt h) (hd.opAt h')
  | index hop h h' hnext => exact meets_index hop (hc.instrAt h) (hd.instrAt h') (hK _ _ hnext)
  | name hop h h' hnext => exact meets_name hop (hc.constAt h) (hd.constAt h') (hK _ _ hnext)
  | constant h h' hk hnext =>
    exact meets_constant (hc.constAt h) (hd.constAt h') (hk.value hG) (hK _ _ hnext)
  | jump h h' htarget => exact meets_jump (hc.jumpAt h) (hd.jumpAt h') (hK _ _ htarget)
  | fork hop h h' htarget hnext =>
    exact meets_fork hop (hc.jumpAt h) (hd.jumpAt h') (hK _ _ htarget) (hK _ _ hnext)

/-- Where addresses are in step, jumps lead to where the same instruction stands. -/
theorem InStep.leads (hK : ∀ x y, StepsOn G c d K x y → C.place i x j y) (h : InStep G c d K a b) :
    Leads C i a j b := by
  have happroach := h.approach
  clear h
  induction happroach with
  | twin h => exact .meets (h.meets hc hd hG hK)
  | skip hjump htarget _ ih => exact .skip (hc.jumpAt hjump) (hK _ _ htarget) ih

end

end DotScript.Machine
