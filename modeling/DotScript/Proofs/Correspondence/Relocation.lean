import Mathlib.Data.List.Pairwise
import DotScript.Proofs.Correspondence.InStep
import DotScript.Proofs.Correspondence.Pools

/-!
# Relocated functions

Two machines have the same units, under names of their own, apart from a few units whose code
differs. The functions of these are listed with those that they are the same as, wherever they stand.

* `Relocation`, `Relocation.correspondence`: what counts as the same;
* `Relocation.Valid`: names and listed functions tell the same functions apart on both sides, so the
  correspondence is sound, `Relocation.Valid.correspondence_sound`;
* `Correspondence.Within`: worlds stay alike in a correspondence that has more of the same.
-/

namespace DotScript.Machine

open DotScript.Bytecode DotScript.Compile

/-- A function of a unit with the same code under another name. -/
structure SameIn (units : ImageId → ImageId → Prop) (f g : Function) : Prop where
  units : units f.image.id g.image.id
  chunk : f.image.chunk = g.image.chunk
  name : f.name = g.name
  arity : f.arity = g.arity
  entry : f.entry = g.entry

/-- Units, functions and places that are the same. -/
structure Relocation where
  /-- Names of units with the same code. -/
  units : ImageId → ImageId → Prop
  /-- Functions of other units. -/
  functions : List (Function × Function)
  /-- Places in other units. -/
  places : Image → Nat → Image → Nat → Prop
  fresh : ThreadId → Nat → Prop
  lead : ThreadId → Nat

namespace Relocation

variable (L : Relocation)

/-- The functions that are the same. -/
def Same (f g : Function) : Prop := SameIn L.units f g ∨ (f, g) ∈ L.functions

def correspondence : Correspondence where
  function := L.Same
  place i a j b := (L.units i.id j.id ∧ i.chunk = j.chunk ∧ a = b) ∨ L.places i a j b
  fresh := L.fresh
  lead := L.lead
  numbers := 0

/-- Functions are told apart on one side as on the other, and begin at the same places. -/
structure Valid : Prop where
  unique : ∀ {u v u' v'}, L.units u v → L.units u' v' → (u = u' ↔ v = v')
  apart : ∀ p ∈ L.functions, ∀ u, ¬ L.units p.1.image.id u ∧ ¬ L.units u p.2.image.id
  header : ∀ p ∈ L.functions, p.1.name = p.2.name ∧ p.1.arity = p.2.arity
  distinct : L.functions.Pairwise fun p q => p.1.sameCode q.1 = false ∧ p.2.sameCode q.2 = false
  entry : ∀ p ∈ L.functions, L.places p.1.image p.1.entry p.2.image p.2.entry
  load : ∀ {id n}, L.fresh id n → L.fresh id (n + 1) → L.units ⟨id, n + L.lead id⟩ ⟨id, n⟩
  child : ∀ {id n}, L.fresh id n → ∀ k, L.fresh (k :: id) 0 ∧ L.lead (k :: id) = 0

end Relocation

section
variable {L : Relocation} {f g : Function}

theorem sameCode_comm (f g : Function) : f.sameCode g = g.sameCode f := by
  simp only [Function.sameCode, Bool.beq_comm]

theorem sameCode_self (f : Function) : f.sameCode f = true := by
  simp [Function.sameCode]

theorem sameCode_of_id_ne (h : f.image.id ≠ g.image.id) : f.sameCode g = false := by
  simp [Function.sameCode, h]

namespace Relocation.Valid

theorem sameCode_listed (hL : L.Valid) {p q : Function × Function} (hp : p ∈ L.functions)
    (hq : q ∈ L.functions) : p.1.sameCode q.1 = p.2.sameCode q.2 := by
  let R (p q : Function × Function) : Prop := p.1.sameCode q.1 = p.2.sameCode q.2
  have hsymm : Std.Symm R := ⟨fun p q h => by
    simp only [R, sameCode_comm q.1, sameCode_comm q.2] at h ⊢
    exact h⟩
  have hself : ∀ p ∈ L.functions, R p p := fun p _ => by simp only [R, sameCode_self]
  have hdistinct : L.functions.Pairwise R := hL.distinct.imp fun h => h.1.trans h.2.symm
  exact hdistinct.forall_of_forall hself hp hq

/-- A function of a unit with the same code is none of those listed. -/
theorem sameCode_apart (hL : L.Valid) (h : SameIn L.units f g) {p : Function × Function}
    (hp : p ∈ L.functions) : f.sameCode p.1 = false ∧ g.sameCode p.2 = false :=
  ⟨sameCode_of_id_ne fun heq => (hL.apart p hp _).1 (heq ▸ h.units),
    sameCode_of_id_ne fun heq => (hL.apart p hp _).2 (heq ▸ h.units)⟩

/-- Functions that are the same cannot be told from each other. -/
theorem interchangeable (hL : L.Valid) : Interchangeable L.Same where
  name h := h.elim (·.name) fun h => (hL.header _ h).1
  arity h := h.elim (·.arity) fun h => (hL.header _ h).2
  sameCode := by
    rintro f g f' g' (h | h) (h' | h')
    · have hid := hL.unique h.units h'.units
      rw [Bool.eq_iff_iff]
      simp only [Function.sameCode, Bool.and_eq_true, beq_iff_eq, h.entry, h'.entry, hid]
    · obtain ⟨hf, hg⟩ := hL.sameCode_apart h h'
      exact hf.trans hg.symm
    · obtain ⟨hf, hg⟩ := hL.sameCode_apart h' h
      rw [sameCode_comm f, sameCode_comm g]
      exact hf.trans hg.symm
    · exact hL.sameCode_listed h h'

theorem correspondence_sound (hL : L.Valid) : L.correspondence.Sound where
  functions := hL.interchangeable
  entry := by
    rintro f g (h | h)
    · exact .inl ⟨h.units, h.chunk, h.entry⟩
    · exact .inr (hL.entry _ h)
  load h hnext _ := .inl ⟨hL.load h hnext, rfl, rfl⟩
  child := hL.child

end Relocation.Valid

/-- The same instructions stand in units with the same code. -/
theorem Relocation.meets_units {i j : Image} (h : L.units i.id j.id) (hchunk : i.chunk = j.chunk)
    (a : Nat) : Meets L.correspondence i a j a := by
  have hsame : SameUnit L.correspondence i j :=
    ⟨hchunk, fun _ => .inl ⟨h, hchunk, rfl⟩, fun _ => .inl ⟨h, hchunk, rfl, rfl, rfl⟩⟩
  exact hsame.meets a

theorem Relocation.closed (hplaces : ∀ {i a j b}, L.places i a j b →
    Leads L.correspondence i a j b) : L.correspondence.Closed := by
  rintro i a j b (⟨h, hchunk, rfl⟩ | h)
  · exact .meets (meets_units h hchunk a)
  · exact hplaces h

end

/-! ## More of the same -/

/-- What is the same in one correspondence is so in another one. -/
structure Correspondence.Within (C C' : Correspondence) : Prop where
  function : ∀ {f g}, C.function f g → C'.function f g
  fresh : ∀ {id n}, C.fresh id n → ∃ m, C'.fresh id m
  numbers : C.numbers = C'.numbers

section
variable {C C' : Correspondence} (hC : C.Within C')
include hC

theorem Correspondence.Within.value {v v' : Value} (h : v.Like C.function v') :
    v.Like C'.function v' :=
  h.mono fun _ _ => hC.function

theorem Correspondence.Within.values {t t' : Table String Value}
    (h : t.Related (Value.Like C.function) t') : t.Related (Value.Like C'.function) t' :=
  h.imp fun _ _ he => ⟨he.1, hC.value he.2⟩

theorem Heap.Like.mono {h h' : Heap} (hlike : h.Like C h') : h.Like C' h' where
  classes := hlike.classes.mono fun _ _ ht => ht.imp fun _ _ he => ⟨he.1, hC.function he.2⟩
  instances := hlike.instances.mono fun _ _ ht => hC.values ht

theorem Job.Like.mono {k k' : Job} (h : k.Like C k') : k.Like C' k' := by
  cases h with
  | script id spawned fresh globals function slots =>
    obtain ⟨m, hfresh⟩ := hC.fresh fresh
    exact .script id spawned hfresh (hC.values globals) (hC.function function)
      (slots.mono fun _ _ => hC.function)
  | native n h => exact .native n (h.mono fun _ _ => hC.function)

theorem ReportLike.mono {line line' : String} (h : ReportLike C line line') :
    ReportLike C' line line' := by
  cases h with
  | same => exact .same line
  | failure n message =>
    rw [hC.numbers]
    exact .failure n message

/-- Worlds stay alike. -/
theorem World.Like.mono {w w' : World} (h : w.Like C w') : w.Like C' w' where
  heap := h.heap.mono hC
  files := h.files
  printed := h.printed
  reports := h.reports.mono fun _ _ hr => hr.mono hC
  threads := hC.numbers ▸ h.threads
  pending := h.pending.imp fun _ _ hk => ⟨hC.numbers ▸ hk.number, hk.job.mono hC⟩
  now := h.now
  questions := h.questions

end

end DotScript.Machine
