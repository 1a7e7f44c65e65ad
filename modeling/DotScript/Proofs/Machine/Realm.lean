import DotScript.Machine.Exec
import DotScript.Proofs.Values.Tables
import DotScript.Syntax.Tree

/-!
# What values refer to

A program gets at a function, class or instance only through the values it holds. A `Realm` says
which functions, classes and instances these may be: classes and instances are those from certain
numbers of the heap on, if there are any at all.

* `Value.Part x v`: `x` is `v`, or stands in it as an item of a list or a value of a map;
* `Value.Plain`: no part is a function, bound method, class or instance;
* `Value.In`, `Table.In`, `Heap.In`: everything in a value, in a table of values or in the objects
  of a realm belongs to the realm;
* `Host.InertIn`, `Host.Inert`: natives give back nothing that was not in the realm before;
* `Host.PureIn`: what they give back depends on their arguments only.
-/

namespace DotScript

/-! ## Parts -/

/-- A value is a part of itself, and of the lists and maps it stands in. -/
inductive Value.Part : Value → Value → Prop
  | self (v : Value) : Part v v
  | item {x v : Value} {items : List Value} (hv : v ∈ items) (h : Part x v) : Part x (.list items)
  | entry {x v : Value} {k : MapKey} {entries : Table MapKey Value}
    (hv : (k, v) ∈ entries.entries) (h : Part x v) : Part x (.map entries)

/-- Whether a value is a function, bound method, class or instance. -/
def Value.isScript : Value → Bool
  | function _ | bound _ _ | classRef _ | inst _ => true
  | _ => false

/-- A value without functions, bound methods, classes and instances. -/
def Value.Plain (v : Value) : Prop := ∀ x, Part x v → x.isScript = false

namespace Machine

open DotScript.Syntax

/-! ## Realms -/

/-- What the functions, methods, classes and instances in values may be. -/
structure Realm where
  /-- The programs that are run. -/
  program : Program → Prop
  function : Function → Prop
  method : Function → Prop
  /-- What the natives do. -/
  native : Builtin → Prop
  /-- Whether there are classes and instances. -/
  objects : Prop
  /-- The number of the first class. -/
  classes : Nat
  /-- The number of the first instance. -/
  instances : Nat

namespace Realm

/-- A class of the realm. -/
def HasClass (R : Realm) (c : ClassRef) : Prop := R.objects ∧ R.classes ≤ c.id

/-- An instance of the realm, and so its class. -/
def HasInstance (R : Realm) (i : InstanceRef) : Prop := R.instances ≤ i.id ∧ R.HasClass i.ofClass

/-- Whether a value itself, apart from its items, belongs to the realm. -/
def Admits (R : Realm) : Value → Prop
  | .function f => R.function f
  | .bound i f => R.HasInstance i ∧ R.method f
  | .classRef c => R.HasClass c
  | .inst i => R.HasInstance i
  | .native n => R.native n.builtin
  | _ => True

end Realm

end Machine

open Machine

/-- All parts of a value belong to a realm. -/
def Value.In (R : Realm) (v : Value) : Prop := ∀ x, Part x v → R.Admits x

/-- All values of a table belong to a realm. -/
def Table.In {κ : Type} (R : Realm) (t : Table κ Value) : Prop := ∀ e ∈ t.entries, e.2.In R

section
variable {R : Realm} {v : Value}

theorem Value.In.admits (h : v.In R) : R.Admits v := h v (.self v)

theorem Value.Plain.in (h : v.Plain) (hnative : ∀ b, R.native b) : v.In R := by
  intro x hx
  have hscript := h x hx
  cases x with
  | native n => exact hnative n.builtin
  | function | bound | classRef | inst => cases hscript
  | _ => trivial

@[simp] theorem Value.in_null : Value.null.In R := by
  rintro x ⟨⟩
  trivial

@[simp] theorem Value.in_bool (b : Bool) : (Value.bool b).In R := by
  rintro x ⟨⟩
  trivial

@[simp] theorem Value.in_number (n : Number) : (Value.number n).In R := by
  rintro x ⟨⟩
  trivial

@[simp] theorem Value.in_str (s : String) : (Value.str s).In R := by
  rintro x ⟨⟩
  trivial

@[simp] theorem Value.in_function (f : Function) : (Value.function f).In R ↔ R.function f := by
  constructor
  · exact fun h => h.admits
  · rintro h x ⟨⟩
    exact h

@[simp] theorem Value.in_bound (i : InstanceRef) (f : Function) :
    (Value.bound i f).In R ↔ R.HasInstance i ∧ R.method f := by
  constructor
  · exact fun h => h.admits
  · rintro h x ⟨⟩
    exact h

@[simp] theorem Value.in_classRef (c : ClassRef) : (Value.classRef c).In R ↔ R.HasClass c := by
  constructor
  · exact fun h => h.admits
  · rintro h x ⟨⟩
    exact h

@[simp] theorem Value.in_inst (i : InstanceRef) : (Value.inst i).In R ↔ R.HasInstance i := by
  constructor
  · exact fun h => h.admits
  · rintro h x ⟨⟩
    exact h

@[simp] theorem Value.in_native (n : Native) : (Value.native n).In R ↔ R.native n.builtin := by
  constructor
  · exact fun h => h.admits
  · rintro h x ⟨⟩
    exact h

theorem Value.in_list {items : List Value} : (Value.list items).In R ↔ ∀ v ∈ items, v.In R := by
  constructor
  · exact fun h v hv x hx => h x (.item hv hx)
  · rintro h x (_ | ⟨hv, hx⟩ | _)
    · trivial
    · exact h _ hv x hx

theorem Value.in_map {entries : Table MapKey Value} :
    (Value.map entries).In R ↔ entries.In R := by
  constructor
  · exact fun h e he x hx => h x (.entry he hx)
  · rintro h x (_ | _ | ⟨hv, hx⟩)
    · trivial
    · exact h _ hv x hx

/-! ## Tables -/

variable {κ : Type} [DecidableEq κ] {t : Table κ Value}

theorem Table.In.get? (h : t.In R) {k : κ} (hk : t.get? k = some v) : v.In R :=
  h (k, v) (Table.mem_of_find? hk)

theorem Table.In.insert (h : t.In R) (k : κ) (hv : v.In R) : (t.insert k v).In R :=
  Table.forall_mem_insert h hv

end

namespace Machine

variable {R : Realm}

/-! ## Operations on values -/

theorem in_of_buildMap {vs : List Value} {t t' : Table MapKey Value} (hvs : ∀ v ∈ vs, v.In R)
    (ht : t.In R) (h : buildMap vs t = .ok t') : t'.In R := by
  fun_induction buildMap vs t with
  | case1 k v rest t key hkey ih =>
    have hv : v.In R := hvs v (by simp)
    exact ih (fun u hu => hvs u (by simp [hu])) (ht.insert key hv) h
  | case2 => cases h
  | case3 =>
    cases h
    exact ht

theorem in_of_addValues {a b v : Value} (h : addValues a b = .ok v) : v.In R := by
  unfold addValues at h
  split at h <;> cases h <;> simp

theorem in_of_onNumbers {verb : String} {f : Number → Number → Value} {a b v : Value}
    (hf : ∀ x y, (f x y).In R) (h : onNumbers verb f a b = .ok v) : v.In R := by
  unfold onNumbers at h
  split at h
  · cases h
    exact hf _ _
  · cases h

/-! ## The heap -/

/-- What the objects of a realm hold belongs to the realm, and new objects will be of the realm. -/
structure Heap.In (R : Realm) (h : Heap) : Prop where
  classes : R.classes ≤ h.classes.size
  instances : R.instances ≤ h.instances.size
  method : ∀ {c name f}, R.HasClass c → h.method? c name = some f → R.method f
  field : ∀ {i name v}, R.HasInstance i → h.field? i name = some v → v.In R

/-- All objects of a heap are older than those of the realm. -/
theorem Heap.in_of_size {h : Heap} (hclasses : R.classes = h.classes.size)
    (hinstances : R.instances = h.instances.size) : h.In R where
  classes := Nat.le_of_eq hclasses
  instances := Nat.le_of_eq hinstances
  method := by
    intro c name f hc hf
    have hnone : h.classes[c.id]? = none := Array.getElem?_eq_none (hclasses ▸ hc.2)
    simp only [Heap.method?, hnone] at hf
    cases hf
  field := by
    intro i name v hi hv
    have hnone : h.instances[i.id]? = none := Array.getElem?_eq_none (hinstances ▸ hi.1)
    simp only [Heap.field?, hnone] at hv
    cases hv

namespace Heap.In

variable {h : Heap}

theorem newClass (hh : h.In R) (hobjects : R.objects) (name : String) :
    R.HasClass (h.newClass name).1 ∧ (h.newClass name).2.In R := by
  refine ⟨⟨hobjects, hh.classes⟩, ?_, hh.instances, fun {c m f} hc hf => ?_, hh.field⟩
  · simp only [Heap.newClass, Array.size_push]
    exact Nat.le_succ_of_le hh.classes
  · simp only [Heap.method?, Heap.newClass, Array.getElem?_push] at hf
    split at hf
    · cases hf
    · exact hh.method hc hf

theorem newInstance (hh : h.In R) {c : ClassRef} (hc : R.HasClass c) :
    R.HasInstance (h.newInstance c).1 ∧ (h.newInstance c).2.In R := by
  refine ⟨⟨hh.instances, hc⟩, hh.classes, ?_, hh.method, fun {i m v} hi hv => ?_⟩
  · simp only [Heap.newInstance, Array.size_push]
    exact Nat.le_succ_of_le hh.instances
  · simp only [Heap.field?, Heap.newInstance, Array.getElem?_push] at hv
    split at hv
    · cases hv
    · exact hh.field hi hv

theorem addMethod (hh : h.In R) (c : ClassRef) (name : String) {f : Function} (hf : R.method f) :
    (h.addMethod c name f).In R := by
  refine ⟨?_, hh.instances, fun {d m g} hd hg => ?_, hh.field⟩
  · simp only [Heap.addMethod, Array.size_modify]
    exact hh.classes
  · simp only [Heap.method?, Heap.addMethod, Array.getElem?_modify] at hg
    split at hg
    · rw [Option.bind_map, Option.bind_eq_some_iff] at hg
      obtain ⟨t, ht, hg⟩ := hg
      simp only [Function.comp, Table.get?_insert] at hg
      split at hg
      · cases hg
        exact hf
      · have hold : h.method? d m = some g := by simp only [Heap.method?, ht, Option.bind_some, hg]
        exact hh.method hd hold
    · exact hh.method hd hg

theorem setField (hh : h.In R) (i : InstanceRef) (name : String) {v : Value} (hv : v.In R) :
    (h.setField i name v).In R := by
  refine ⟨hh.classes, ?_, hh.method, fun {j m u} hj hu => ?_⟩
  · simp only [Heap.setField, Array.size_modify]
    exact hh.instances
  · simp only [Heap.field?, Heap.setField, Array.getElem?_modify] at hu
    split at hu
    · rw [Option.bind_map, Option.bind_eq_some_iff] at hu
      obtain ⟨t, ht, hu⟩ := hu
      simp only [Function.comp, Table.get?_insert] at hu
      split at hu
      · cases hu
        exact hv
      · have hold : h.field? j m = some u := by simp only [Heap.field?, ht, Option.bind_some, hu]
        exact hh.field hj hold
    · exact hh.field hj hu

theorem property (hh : h.In R) {i : InstanceRef} {name : String} {v : Value}
    (hi : R.HasInstance i) (hv : property h i name = .ok v) : v.In R := by
  unfold Machine.property at hv
  split at hv
  · next u hu =>
    cases hv
    exact hh.field hi hu
  · split at hv
    · next f hf =>
      cases hv
      simpa using ⟨hi, hh.method hi.2 hf⟩
    · cases hv

end Heap.In

/-! ## Natives -/

/-- The natives of a realm do not lead out of it: if their arguments and the heap belong to it,
then so do their result and the heap they leave. They spawn no calls. -/
structure Host.InertIn (host : Host) (R : Realm) : Prop where
  result : ∀ {b args w v w'}, R.native b → host.call b args w = (.ok v, w') →
    (∀ a ∈ args, a.In R) → w.heap.In R → v.In R
  heap : ∀ {b args w r w'}, R.native b → host.call b args w = (r, w') →
    (∀ a ∈ args, a.In R) → w.heap.In R → w'.heap.In R
  pending : ∀ {b args w r w'}, R.native b → host.call b args w = (r, w') → w'.pending = w.pending

/-- The natives of a realm neither read nor change the world, and do not lead out of the realm. -/
def Host.PureIn (host : Host) (R : Realm) : Prop :=
  ∀ b, R.native b → ∀ args, ∃ r, (∀ w, host.call b args w = (r, w)) ∧
    ∀ v, r = .ok v → (∀ a ∈ args, a.In R) → v.In R

theorem Host.PureIn.inertIn {host : Host} {R : Realm} (h : host.PureIn R) : host.InertIn R where
  result {b args w v w'} hb hcall hargs _ := by
    obtain ⟨r, heval, hr⟩ := h b hb args
    rw [heval] at hcall
    cases hcall
    exact hr v rfl hargs
  heap {b args w r w'} hb hcall _ hw := by
    obtain ⟨r, heval, -⟩ := h b hb args
    rw [heval] at hcall
    cases hcall
    exact hw
  pending {b args w r w'} hb hcall := by
    obtain ⟨r, heval, -⟩ := h b hb args
    rw [heval] at hcall
    cases hcall
    rfl

/-- Natives that bring no functions, bound methods, classes or instances of their own. -/
def Host.Inert (host : Host) : Prop :=
  ∀ R : Realm, R.objects → (∀ b, R.native b) → host.InertIn R

end Machine

end DotScript
