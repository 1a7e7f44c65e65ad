import DotScript.Proofs.Flow.Code
import DotScript.Proofs.Machine.Instruction

/-!
# Activations on the stack

A `Level` is what does not change while an activation is live: what it stands upon, and the code it
runs. Above its base are the locals and then the temporaries.

* `Kind.Fits`, `Fits`: temporaries are of their kinds;
* `AtSite R L a σ ls vs`: with the locals `ls` and the temporaries `vs`, control may come to `a`;
* `Stands R L σ ls vs t`: the thread `t` runs the activation `L` and is at such an address;
* `World.In`: the heap and the spawned calls belong to a realm.
-/

namespace DotScript.Machine

open DotScript.Bytecode DotScript.Compile DotScript.Syntax

/-! ## Levels -/

/-- An activation: what it stands upon, and the code it runs. -/
structure Level where
  /-- The stack below its base. -/
  lower : Array Value
  /-- The frames of the activations below. -/
  frames : Array Frame
  /-- The imports in progress. -/
  windows : List Window
  image : Image
  /-- The program whose code it is. -/
  program : Program
  /-- Whether it runs the program itself and not a function. -/
  top : Bool

namespace Level

/-- The stack with the locals, the oldest first, and the temporaries, the newest first. -/
def stack (L : Level) (ls vs : List Value) : Array Value :=
  L.lower ++ ls.toArray ++ vs.reverse.toArray

/-- The handler that entering the body of `τ` arms. -/
def handler (L : Level) (τ : Try) : Handler :=
  ⟨τ.target, L.image, L.lower.size, L.frames.size, L.lower.size + τ.names.length⟩

/-- The activation is the running one. -/
structure Tops (L : Level) (t : Thread) : Prop where
  frames : t.frames = L.frames
  windows : t.windows = L.windows

variable {L : Level} {ls vs : List Value}

theorem stack_cons (v : Value) : L.stack ls (v :: vs) = (L.stack ls vs).push v := by
  simp only [stack, List.reverse_cons, ← List.append_toArray, ← Array.append_assoc]
  rfl

theorem stack_append (args : List Value) :
    L.stack ls (args.reverse ++ vs) = L.stack ls vs ++ args.toArray := by
  simp only [stack, List.reverse_append, List.reverse_reverse, ← List.append_toArray,
    ← Array.append_assoc]

theorem size_stack : (L.stack ls vs).size = L.lower.size + ls.length + vs.length := by
  simp [stack, Nat.add_assoc]

theorem stack_getElem? {k : Nat} (hk : k < ls.length) (vs : List Value) :
    (L.stack ls vs)[L.lower.size + k]? = ls[k]? := by
  rw [stack, Array.append_assoc, Array.getElem?_append_right (Nat.le_add_right ..),
    Nat.add_sub_cancel_left, Array.getElem?_append_left (by simpa using hk), List.getElem?_toArray]

theorem stack_set {k : Nat} (hk : k < ls.length) (v : Value) (vs : List Value) :
    (L.stack ls vs).setIfInBounds (L.lower.size + k) v = L.stack (ls.set k v) vs := by
  rw [stack, Array.append_assoc, Array.setIfInBounds_append_right (Nat.le_add_right ..),
    Nat.add_sub_cancel_left, Array.setIfInBounds_append_left (by simpa using hk),
    ← Array.append_assoc, List.setIfInBounds_toArray]
  rfl

/-- The newest local may be seen as a temporary. -/
theorem stack_unbind (v : Value) : L.stack (ls ++ [v]) [] = L.stack ls [v] := by
  simp only [stack, ← List.append_toArray, ← Array.append_assoc, List.reverse_nil,
    List.reverse_singleton, Array.append_empty]

/-- Cutting the stack to some of the locals. -/
theorem take_stack {k : Nat} (hk : k ≤ ls.length) (vs : List Value) :
    (L.stack ls vs).take (L.lower.size + k) = L.stack (ls.take k) [] := by
  apply Array.toList_inj.mp
  have hrest : ls.take k ++ ls.drop k = ls := List.take_append_drop k ls
  have hlength : (L.lower.toList ++ ls.take k).length = L.lower.size + k := by
    simp [Nat.min_eq_left hk]
  calc ((L.stack ls vs).take (L.lower.size + k)).toList
      = (L.lower.toList ++ ls.take k ++ (ls.drop k ++ vs.reverse)).take
          (L.lower.size + k) := by
        simp only [stack, Array.take_eq_extract, Array.toList_extract, List.extract_eq_take_drop]
        simp only [Array.toList_append, List.append_assoc, Nat.sub_zero, List.drop_zero]
        rw [← List.append_assoc (ls.take k), hrest]
    _ = L.lower.toList ++ ls.take k := by rw [← hlength, List.take_left]
    _ = (L.stack (ls.take k) []).toList := by simp [stack]

end Level

/-! ## Temporaries -/

/-- A value is of a kind. -/
def Kind.Fits (R : Realm) : Kind → Value → Prop
  | .any, v => v.In R
  | .cls, v => ∃ c, v = .classRef c ∧ R.HasClass c
  | .method, v => ∃ f, v = .function f ∧ R.method f

/-- Values are of their kinds. -/
def Fits (R : Realm) : List Kind → List Value → Prop
  | [], [] => True
  | k :: ks, v :: vs => k.Fits R v ∧ Fits R ks vs
  | _, _ => False

section
variable {R : Realm} {k : Kind} {ks : List Kind} {vs : List Value}

theorem fits_nil (h : Fits R [] vs) : vs = [] := by
  cases vs with
  | nil => rfl
  | cons v vs => exact h.elim

theorem fits_cons (h : Fits R (k :: ks) vs) :
    ∃ v vs', vs = v :: vs' ∧ k.Fits R v ∧ Fits R ks vs' := by
  cases vs with
  | nil => exact h.elim
  | cons v vs => exact ⟨v, vs, rfl, h⟩

/-- The newest temporaries as arguments, in the order in which they were pushed. -/
theorem fits_pushes : {n : Nat} → {vs : List Value} → Fits R (List.replicate n .any ++ ks) vs →
    ∃ (args : List Value) (vs' : List Value), vs = args.reverse ++ vs' ∧ args.length = n ∧
      (∀ v ∈ args, v.In R) ∧
      Fits R ks vs'
  | 0, vs, h => ⟨[], vs, rfl, rfl, nofun, h⟩
  | n + 1, vs, h => by
    obtain ⟨v, vs', rfl, hv, h⟩ := fits_cons h
    obtain ⟨args, vs'', rfl, hn, hargs, h⟩ := fits_pushes h
    refine ⟨args ++ [v], vs'', by simp, by simp [hn], ?_, h⟩
    intro u hu
    rcases List.mem_append.mp hu with hu | hu
    · exact hargs u hu
    · cases List.mem_singleton.mp hu
      exact hv

end

/-! ## Where control is -/

/-- Control may come to an address, with these locals and temporaries. -/
structure AtSite (R : Realm) (L : Level) (a : Nat) (σ : Site) (ls vs : List Value) : Prop where
  compiled : CompiledFrom R.program L.program L.image.chunk
  flow : Flow R L.program L.image (fun _ _ => False) a σ
  top : σ.top = L.top
  locals : ls.length = σ.locals
  localsIn : ∀ v ∈ ls, v.In R
  temps : Fits R σ.temps vs

/-- A thread runs an activation whose level is `L`. -/
structure Level.Carries (R : Realm) (L : Level) (t : Thread) : Prop where
  tops : L.Tops t
  image : t.image = L.image
  base : t.base = L.lower.size
  globals : t.globals.In R

/-- A thread runs an activation and is about to carry out an instruction of it. -/
structure Stands (R : Realm) (L : Level) (σ : Site) (ls vs : List Value) (t : Thread) : Prop where
  carries : L.Carries R t
  stack : t.stack = L.stack ls vs
  site : AtSite R L t.ip σ ls vs

/-- Nothing is below: how the run of a program or of a spawned call begins. -/
def Level.ground (image : Image) (p : Program) (top : Bool) : Level := ⟨#[], #[], [], image, p, top⟩

/-- The work of a spawned call belongs to a realm. -/
def Job.In (R : Realm) : Job → Prop
  | .script t => t.handler = none ∧ t.imports = 0 ∧
    ∃ p ls, Stands R (.ground t.image p false) ⟨false, ls.length, [], []⟩ ls [] t
  | .native n args => R.native n.builtin ∧ ∀ v ∈ args, v.In R

/-- The heap and the spawned calls belong to a realm. -/
structure World.In (R : Realm) (w : World) : Prop where
  heap : w.heap.In R
  pending : ∀ task ∈ w.pending, task.job.In R

section
variable {R : Realm} {L : Level} {a a' : Nat} {σ σ' : Site} {ls vs vs' : List Value} {t : Thread}

/-- Control goes on in the same activation, with the same locals. -/
theorem AtSite.next (h : AtSite R L a σ ls vs)
    (hflow : Flow R L.program L.image (fun _ _ => False) a' σ')
    (htop : σ'.top = σ.top) (hlocals : σ'.locals = σ.locals) (htemps : Fits R σ'.temps vs') :
    AtSite R L a' σ' ls vs' where
  compiled := h.compiled
  flow := hflow
  top := htop.trans h.top
  locals := h.locals.trans hlocals.symm
  localsIn := h.localsIn
  temps := htemps

/-- The entry of a function whose parameters are on the stack. -/
theorem AtSite.entry (hR : R.OfCode) {m : Bool} {f : Function} (hf : IsCompiled R.program m f)
    {slots : List Value} (hslots : ∀ v ∈ slots, v.In R)
    (hlength : slots.length = f.arity + if m then 1 else 0) :
    ∃ p, ∀ lower frames windows, AtSite R ⟨lower, frames, windows, f.image, p, false⟩ f.entry
      ⟨false, slots.length, [], []⟩ slots [] := by
  obtain ⟨p, hc, hflow⟩ := function_flow hR hf
  rw [← hlength] at hflow
  exact ⟨p, fun lower frames windows => ⟨hc, hflow, rfl, rfl, hslots, trivial⟩⟩

end

/-! ## What is on top of the stack -/

namespace Stands
variable {R : Realm} {L : Level} {σ : Site} {ls vs : List Value} {t : Thread} {j k : Kind}
  {n slot : Nat}

theorem exists_push (h : Stands R L (σ.push k) ls vs t) :
    ∃ v vs', vs = v :: vs' ∧ t.stack = (L.stack ls vs').push v ∧ k.Fits R v ∧
      Fits R σ.temps vs' := by
  obtain ⟨v, vs', rfl, hv, htemps⟩ := fits_cons h.site.temps
  exact ⟨v, vs', rfl, by rw [h.stack, Level.stack_cons], hv, htemps⟩

/-- What a return finds on the stack. -/
theorem exists_result {b : Bool} {ts : List Try} (h : Stands R L ⟨b, n, [.any], ts⟩ ls vs t) :
    ∃ v, vs = [v] ∧ t.stack = (L.stack ls []).push v ∧ v.In R := by
  obtain ⟨v, vs', rfl, hv, hrest⟩ := fits_cons h.site.temps
  obtain rfl := fits_nil hrest
  exact ⟨v, rfl, by rw [h.stack, Level.stack_cons], hv⟩

theorem exists_push_push (h : Stands R L ((σ.push j).push k) ls vs t) :
    ∃ v u vs', vs = v :: u :: vs' ∧ t.stack = ((L.stack ls vs').push u).push v ∧ k.Fits R v ∧
      j.Fits R u ∧ Fits R σ.temps vs' := by
  obtain ⟨v, vs', rfl, hstack, hv, hrest⟩ := h.exists_push
  obtain ⟨u, vs', rfl, hu, htemps⟩ := fits_cons hrest
  exact ⟨v, u, vs', rfl, by rw [hstack, Level.stack_cons], hv, hu, htemps⟩

theorem exists_pushes (h : Stands R L (σ.pushes n) ls vs t) :
    ∃ (args : List Value) (vs' : List Value), vs = args.reverse ++ vs' ∧
      t.stack = L.stack ls vs' ++ args.toArray ∧ args.length = n ∧
      (∀ v ∈ args, v.In R) ∧ Fits R σ.temps vs' := by
  obtain ⟨args, vs', rfl, hlength, hargs, htemps⟩ := fits_pushes h.site.temps
  exact ⟨args, vs', rfl, by rw [h.stack, Level.stack_append], hlength, hargs, htemps⟩

/-- A value to be called and its arguments. -/
theorem exists_call (h : Stands R L ((σ.push .any).pushes n) ls vs t) :
    ∃ (callee : Value) (args : List Value) (vs' : List Value),
      vs = args.reverse ++ callee :: vs' ∧
      t.stack = (L.stack ls vs').push callee ++ args.toArray ∧ args.length = n ∧ callee.In R ∧
      (∀ v ∈ args, v.In R) ∧ Fits R σ.temps vs' := by
  obtain ⟨args, vs', rfl, hstack, hlength, hargs, hrest⟩ := h.exists_pushes
  obtain ⟨callee, vs', rfl, hcallee, htemps⟩ := fits_cons hrest
  exact ⟨callee, args, vs', rfl, by rw [hstack, Level.stack_cons], hlength, hcallee, hargs, htemps⟩

theorem lt_size (h : Stands R L σ ls vs t) (hslot : slot < σ.locals) :
    t.base + slot < t.stack.size := by
  have hlt : slot < ls.length := h.site.locals ▸ hslot
  rw [h.stack, h.carries.base, Level.size_stack]
  omega

theorem exists_local (h : Stands R L σ ls vs t) (hslot : slot < σ.locals) :
    ∃ v, t.stack[t.base + slot]? = some v ∧ v.In R := by
  have hlt : slot < ls.length := h.site.locals ▸ hslot
  refine ⟨ls[slot], ?_, h.site.localsIn _ (List.getElem_mem hlt)⟩
  rw [h.stack, h.carries.base, Level.stack_getElem? hlt, List.getElem?_eq_getElem hlt]

/-- With no temporaries, the newest local is on top. -/
theorem exists_newest {b : Bool} {ts : List Try} (h : Stands R L ⟨b, n + 1, [], ts⟩ ls vs t) :
    ∃ ls' v, ls = ls' ++ [v] ∧ ls'.length = n ∧ t.stack = (L.stack ls' []).push v := by
  have hlength : ls.length = n + 1 := h.site.locals
  have hne : ls ≠ [] := List.ne_nil_of_length_eq_add_one hlength
  obtain ⟨ls, v, rfl⟩ : ∃ init v, ls = init ++ [v] :=
    ⟨ls.dropLast, ls.getLast hne, (List.dropLast_concat_getLast hne).symm⟩
  rw [List.length_append, List.length_singleton] at hlength
  refine ⟨ls, v, rfl, Nat.succ.inj hlength, ?_⟩
  rw [h.stack, fits_nil h.site.temps, Level.stack_unbind, Level.stack_cons]

end Stands

end DotScript.Machine
