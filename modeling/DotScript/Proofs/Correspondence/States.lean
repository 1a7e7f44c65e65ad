import DotScript.Proofs.Arrays
import DotScript.Proofs.Correspondence.Values

/-!
# States that correspond

A `Correspondence` says which functions and which places in the code of two machines are the same
thing. States correspond if they agree in everything but the code they run and what follows from it:
which functions they hold, how many units were loaded and calls spawned before, and so the numbers
in the reports of failed calls.
-/

namespace DotScript

open DotScript.Bytecode DotScript.Machine

/-! ## Arrays -/

theorem forall₂_iff_getElem? {α β : Type} {R : α → β → Prop} {xs : List α} {ys : List β} :
    List.Forall₂ R xs ys ↔ ∀ k : Nat, Option.Rel R xs[k]? ys[k]? := by
  constructor
  · intro h
    induction h with
    | nil => exact fun k => .none
    | cons hxy _ ih =>
      intro k
      cases k with
      | zero => exact .some hxy
      | succ k => exact ih k
  · intro h
    induction xs generalizing ys with
    | nil =>
      cases ys with
      | nil => exact .nil
      | cons y ys => nomatch h 0
    | cons x xs ih =>
      cases ys with
      | nil => nomatch h 0
      | cons y ys =>
        obtain ⟨hxy⟩ := h 0
        exact .cons hxy (ih fun k => h (k + 1))

/-- Arrays whose items are related one by one. -/
def Pairs {α β : Type} (R : α → β → Prop) (xs : Array α) (ys : Array β) : Prop :=
  List.Forall₂ R xs.toList ys.toList

namespace Pairs

variable {α β : Type} {R S : α → β → Prop} {xs xs' : Array α} {ys ys' : Array β}

theorem empty : Pairs R #[] #[] := .nil

theorem size_eq (h : Pairs R xs ys) : xs.size = ys.size := by
  simpa using h.length_eq

theorem refl {S : α → α → Prop} (xs : Array α) (h : ∀ x ∈ xs, S x x) : Pairs S xs xs :=
  List.forall₂_same.mpr fun x hx => h x (Array.mem_def.mpr hx)

theorem eq_of_eq {S : α → α → Prop} {xs ys : Array α} (h : Pairs S xs ys)
    (hS : ∀ x y, S x y → x = y) : xs = ys := by
  have hlist : xs.toList = ys.toList := by
    rw [← List.forall₂_eq_eq_eq]
    exact h.imp hS
  exact Array.toList_inj.mp hlist

theorem mono (h : Pairs R xs ys) (hRS : ∀ x y, R x y → S x y) : Pairs S xs ys := h.imp hRS

theorem push (h : Pairs R xs ys) {x : α} {y : β} (hxy : R x y) : Pairs R (xs.push x) (ys.push y) := by
  simpa [Pairs] using List.rel_append h (.cons hxy .nil)

theorem append (h : Pairs R xs ys) (h' : Pairs R xs' ys') : Pairs R (xs ++ xs') (ys ++ ys') := by
  simpa [Pairs] using List.rel_append h h'

theorem take (h : Pairs R xs ys) (n : Nat) : Pairs R (xs.take n) (ys.take n) := by
  simpa [Pairs] using List.forall₂_take n h

theorem drop (h : Pairs R xs ys) (n : Nat) : Pairs R (xs.drop n) (ys.drop n) := by
  have hdrop {γ : Type} (zs : Array γ) : (zs.drop n).toList = zs.toList.drop n := by
    simp [Array.drop_eq_extract, List.take_of_length_le]
  rw [Pairs, hdrop, hdrop]
  exact List.forall₂_drop n h

theorem pop (h : Pairs R xs ys) : Pairs R xs.pop ys.pop := by
  rw [pop_eq_take, pop_eq_take, h.size_eq]
  exact h.take _

theorem getElem? (h : Pairs R xs ys) (k : Nat) : Option.Rel R xs[k]? ys[k]? := by
  rw [← Array.getElem?_toList, ← Array.getElem?_toList]
  exact forall₂_iff_getElem?.mp h k

theorem of_getElem? (h : ∀ k : Nat, Option.Rel R xs[k]? ys[k]?) : Pairs R xs ys := by
  refine forall₂_iff_getElem?.mpr fun k => ?_
  rw [Array.getElem?_toList, Array.getElem?_toList]
  exact h k

theorem back? (h : Pairs R xs ys) : Option.Rel R xs.back? ys.back? := by
  rw [Array.back?_eq_getElem?, Array.back?_eq_getElem?, h.size_eq]
  exact h.getElem? _

theorem setIfInBounds (h : Pairs R xs ys) (k : Nat) {x : α} {y : β} (hxy : R x y) :
    Pairs R (xs.setIfInBounds k x) (ys.setIfInBounds k y) := by
  refine of_getElem? fun j => ?_
  rw [Array.getElem?_setIfInBounds, Array.getElem?_setIfInBounds, h.size_eq]
  split
  · split
    · exact .some hxy
    · exact .none
  · exact h.getElem? j

theorem modify (h : Pairs R xs ys) (k : Nat) {f : α → α} {g : β → β}
    (hfg : ∀ x y, R x y → R (f x) (g y)) : Pairs R (xs.modify k f) (ys.modify k g) := by
  refine of_getElem? fun j => ?_
  rw [Array.getElem?_modify, Array.getElem?_modify]
  split
  · obtain ⟨ho, ho'⟩ | ⟨x, y, ho, ho', hxy⟩ := rel_cases (h.getElem? j)
    · rw [ho, ho']
      exact .none
    · rw [ho, ho']
      exact .some (hfg _ _ hxy)
  · exact h.getElem? j

end Pairs

namespace Machine

/-! ## Correspondences -/

/-- What counts as the same thing in two machines. -/
structure Correspondence where
  /-- The same functions. -/
  function : Function → Function → Prop
  /-- The same places: an address in a unit on either side. -/
  place : Image → Nat → Image → Nat → Prop
  /-- Threads that have loaded so many units go on to load units that are the same. The number is
  that on the right. -/
  fresh : ThreadId → Nat → Prop
  /-- How many more units a thread has loaded on the left. -/
  lead : ThreadId → Nat
  /-- How many more calls were spawned on the left. -/
  numbers : Nat

variable (C : Correspondence)

structure Handler.Like (h h' : Handler) : Prop where
  place : C.place h.image h.address h'.image h'.address
  base : h.base = h'.base
  depth : h.depth = h'.depth
  height : h.height = h'.height

structure Frame.Like (f f' : Frame) : Prop where
  place : C.place f.image f.ip f'.image f'.ip
  base : f.base = f'.base
  handler : Option.Rel (Handler.Like C) f.handler f'.handler
  result : Option.Rel (Value.Like C.function) f.result f'.result

structure Window.Like (w w' : Window) : Prop where
  path : w.path = w'.path
  depth : w.depth = w'.depth
  height : w.height = w'.height
  place : C.place w.image w.ip w'.image w'.ip
  base : w.base = w'.base
  handler : Option.Rel (Handler.Like C) w.handler w'.handler

/-- Threads that correspond, wherever they are in their code. -/
structure Thread.Like (t t' : Thread) : Prop where
  id : t.id = t'.id
  globals : t.globals.Related (Value.Like C.function) t'.globals
  stack : Pairs (Value.Like C.function) t.stack t'.stack
  frames : Pairs (Frame.Like C) t.frames t'.frames
  base : t.base = t'.base
  handler : Option.Rel (Handler.Like C) t.handler t'.handler
  windows : List.Forall₂ (Window.Like C) t.windows t'.windows
  imports : t.imports = t'.imports
  loaded : t.loaded = t'.loaded + C.lead t'.id
  spawned : t.spawned = t'.spawned
  fresh : C.fresh t'.id t'.loaded

/-- Threads that go on at the same place. -/
def Thread.AtPlace (t t' : Thread) : Prop := C.place t.image t.ip t'.image t'.ip

/-- Spawned calls that correspond: of the same function, on threads with the same globals. -/
inductive Job.Like : Job → Job → Prop
  | script {t t' : Thread} {f g vs vs' n} (id : t.id = t'.id) (spawned : t.spawned = t'.spawned)
    (fresh : C.fresh t'.id n) (globals : t.globals.Related (Value.Like C.function) t'.globals)
    (function : C.function f g) (slots : ItemsLike C.function vs vs') :
    Like (.script (t.child f vs)) (.script (t'.child g vs'))
  | native (n : Native) {vs vs'} (h : ItemsLike C.function vs vs') :
    Like (.native n vs) (.native n vs')

structure Task.Like (k k' : Task) : Prop where
  number : k.number = k'.number + C.numbers
  job : k.job.Like C k'.job

/-- The report of a failed call. -/
def callReport (number : Nat) (message : String) : String :=
  "[jihll-spawn-" ++ toString number ++ "] runtime error: " ++ message

/-- Reports that are equal but for the number of a failed call. -/
inductive ReportLike : String → String → Prop
  | same (line : String) : ReportLike line line
  | failure (n : Nat) (message : String) :
    ReportLike (callReport (n + C.numbers) message) (callReport n message)

structure Heap.Like (h h' : Heap) : Prop where
  classes : Pairs (Table.Related C.function) h.classes h'.classes
  instances : Pairs (Table.Related (Value.Like C.function)) h.instances h'.instances

structure World.Like (w w' : World) : Prop where
  heap : w.heap.Like C w'.heap
  files : w.files = w'.files
  printed : w.printed = w'.printed
  reports : Pairs (ReportLike C) w.reports w'.reports
  threads : w.threads = w'.threads + C.numbers
  pending : List.Forall₂ (Task.Like C) w.pending w'.pending
  now : w.now = w'.now
  questions : w.questions = w'.questions

structure State.Like (s s' : State) : Prop where
  thread : s.thread.Like C s'.thread
  world : s.world.Like C s'.world

/-- A correspondence that a step keeps: functions begin at the same places, and a unit that is loaded
now is the same. It may end with a unit, if `fresh` ends there. -/
structure Correspondence.Sound : Prop where
  functions : Interchangeable C.function
  entry : ∀ {f g}, C.function f g → C.place f.image f.entry g.image g.entry
  load : ∀ {id n}, C.fresh id n → C.fresh id (n + 1) → ∀ c : Chunk,
    C.place ⟨⟨id, n + C.lead id⟩, c⟩ 0 ⟨⟨id, n⟩, c⟩ 0
  child : ∀ {id n}, C.fresh id n → ∀ k, C.fresh (k :: id) 0 ∧ C.lead (k :: id) = 0

/-- A correspondence that does not end with some unit. -/
structure Correspondence.Lasting : Prop extends C.Sound where
  next : ∀ {id n}, C.fresh id n → C.fresh id (n + 1)

/-- Natives do the same in worlds that correspond. -/
def Host.Respects (host : Host) : Prop :=
  ∀ b {vs vs' w w'}, ItemsLike C.function vs vs' → w.Like C w' →
    ResultLike (Value.Like C.function) (host.call b vs w).1 (host.call b vs' w').1 ∧
      (host.call b vs w).2.Like C (host.call b vs' w').2

/-! ## Objects -/

section
variable {C} {h h' : Heap}

theorem Heap.Like.newClass (hh : h.Like C h') (name : String) :
    (h.newClass name).1 = (h'.newClass name).1 ∧
      (h.newClass name).2.Like C (h'.newClass name).2 := by
  refine ⟨?_, hh.classes.push .empty, hh.instances⟩
  simp only [Heap.newClass, hh.classes.size_eq]

theorem Heap.Like.newInstance (hh : h.Like C h') (c : ClassRef) :
    (h.newInstance c).1 = (h'.newInstance c).1 ∧
      (h.newInstance c).2.Like C (h'.newInstance c).2 := by
  refine ⟨?_, hh.classes, hh.instances.push .empty⟩
  simp only [Heap.newInstance, hh.instances.size_eq]

/-- What is looked up in tables that correspond. -/
theorem rel_get? {α β : Type} {R : α → β → Prop} {ts : Array (Table String α)}
    {ts' : Array (Table String β)} (h : Pairs (Table.Related R) ts ts') (k : Nat) (name : String) :
    Option.Rel R (ts[k]?.bind (·.get? name)) (ts'[k]?.bind (·.get? name)) := by
  obtain ⟨ho, ho'⟩ | ⟨t, t', ho, ho', ht⟩ := rel_cases (h.getElem? k)
  · rw [ho, ho']
    exact .none
  · rw [ho, ho']
    exact ht.get? name

theorem Heap.Like.method? (hh : h.Like C h') (c : ClassRef) (name : String) :
    Option.Rel C.function (h.method? c name) (h'.method? c name) :=
  rel_get? hh.classes c.id name

theorem Heap.Like.field? (hh : h.Like C h') (i : InstanceRef) (name : String) :
    Option.Rel (Value.Like C.function) (h.field? i name) (h'.field? i name) :=
  rel_get? hh.instances i.id name

theorem Heap.Like.addMethod (hh : h.Like C h') (c : ClassRef) (name : String) {f g : Function}
    (hfg : C.function f g) : (h.addMethod c name f).Like C (h'.addMethod c name g) :=
  ⟨hh.classes.modify _ fun _ _ ht => ht.insert name hfg, hh.instances⟩

theorem Heap.Like.setField (hh : h.Like C h') (i : InstanceRef) (name : String) {v v' : Value}
    (hv : v.Like C.function v') : (h.setField i name v).Like C (h'.setField i name v') :=
  ⟨hh.classes, hh.instances.modify _ fun _ _ ht => ht.insert name hv⟩

theorem property_like (hh : h.Like C h') (i : InstanceRef) (name : String) :
    ResultLike (Value.Like C.function) (property h i name) (property h' i name) := by
  simp only [property]
  obtain ⟨ho, ho'⟩ | ⟨v, v', ho, ho', hv⟩ := rel_cases (hh.field? i name)
  · rw [ho, ho']
    obtain ⟨hm, hm'⟩ | ⟨f, g, hm, hm', hfg⟩ := rel_cases (hh.method? i.ofClass name)
    · rw [hm, hm']
      rfl
    · rw [hm, hm']
      exact .bound i hfg
  · rw [ho, ho']
    exact hv

end

end Machine

end DotScript
