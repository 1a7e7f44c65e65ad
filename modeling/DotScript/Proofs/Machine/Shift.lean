import DotScript.Proofs.Arrays
import DotScript.Proofs.Machine.Instruction

/-!
# What arbitrary code can do to the control of a thread

Nothing is assumed of the code here: words, operands and constants may be anything.

* `Preserves I Q m`: a computation keeps a property of the state, also when it fails;
* `Robust`: properties that all instructions keep which neither call, return, spawn, import nor arm
  or disarm a handler, `execute_robust`;
* `Thread.control`: the frames, the imports, the handler and the running activation;
* `Shift`: the ways in which an instruction can change them, `instruction_shift`.
-/

namespace DotScript.Machine

open DotScript.Bytecode DotScript.Compile

/-! ## Properties that are kept -/

/-- A property of the state holds after a computation if it held before, and a value that the
computation gives has the property `Q`. -/
def Preserves {α : Type} (I : State → Prop) (Q : α → Prop) (m : Exec α) : Prop :=
  ∀ s, I s → match m s with
    | .ok a s' => Q a ∧ I s'
    | .error _ s' => I s'

section
variable {α β : Type} {I : State → Prop} {Q : α → Prop} {Q' : β → Prop} {m : Exec α}

namespace Preserves

theorem pure {a : α} (ha : Q a) : Preserves I Q (pure a) := fun _ hs => ⟨ha, hs⟩

theorem throw (e : RuntimeError) : Preserves I Q (throw e) := fun _ hs => hs

theorem bind {f : α → Exec β} (h : Preserves I Q m) (hf : ∀ a, Q a → Preserves I Q' (f a)) :
    Preserves I Q' (m >>= f) := by
  intro s hs
  have hm := h s hs
  cases hr : m s with
  | ok a s' =>
    rw [hr] at hm
    rw [bind_of_ok hr]
    exact hf a hm.1 s' hm.2
  | error e s' =>
    rw [hr] at hm
    rw [bind_of_error hr]
    exact hm

/-- Nothing is asked of the value in between. -/
theorem andThen {f : α → Exec β} (h : Preserves I (fun _ => True) m)
    (hf : ∀ a, Preserves I Q' (f a)) : Preserves I Q' (m >>= f) :=
  h.bind fun a _ => hf a

theorem mono {Q₁ : α → Prop} (h : Preserves I Q m) (hQ : ∀ a, Q a → Q₁ a) : Preserves I Q₁ m := by
  intro s hs
  have hm := h s hs
  cases hr : m s with
  | ok a s' =>
    rw [hr] at hm
    exact ⟨hQ a hm.1, hm.2⟩
  | error e s' =>
    rw [hr] at hm
    exact hm

/-- From a state with a property `I` on, where `I` implies `J`. -/
theorem weaken {J : State → Prop} (h : Preserves I Q m) (hJ : ∀ s, I s → J s) {s : State} (hs : I s) :
    match m s with
    | .ok a s' => Q a ∧ J s'
    | .error _ s' => J s' := by
  have hm := h s hs
  cases hr : m s with
  | ok a s' =>
    rw [hr] at hm
    exact ⟨hm.1, hJ s' hm.2⟩
  | error e s' =>
    rw [hr] at hm
    exact hJ s' hm

theorem ite {c : Prop} [Decidable c] {m' : Exec α} (h : Preserves I Q m) (h' : Preserves I Q m') :
    Preserves I Q (if c then m else m') := by
  split
  · exact h
  · exact h'

theorem thread : Preserves I (fun _ => True) thread := fun _ hs => ⟨trivial, hs⟩

theorem world : Preserves I (fun _ => True) world := fun _ hs => ⟨trivial, hs⟩

theorem top : Preserves I (fun _ => True) top := by
  refine thread.andThen fun t => ?_
  split
  · exact .throw _
  · exact .pure trivial

theorem jumpTarget (offset : Word) : Preserves I (fun _ => True) (jumpTarget offset) :=
  thread.andThen fun _ =>
    .ite ((Preserves.throw (Q := fun _ => True) _).andThen fun _ => .pure trivial) (.pure trivial)

theorem updateThread {f : Thread → Thread} (h : ∀ s, I s → I { s with thread := f s.thread }) :
    Preserves I (fun _ => True) (updateThread f) := fun s hs => ⟨trivial, h s hs⟩

theorem updateWorld {f : World → World} (h : ∀ s, I s → I { s with world := f s.world }) :
    Preserves I (fun _ => True) (updateWorld f) := fun s hs => ⟨trivial, h s hs⟩

end Preserves

/-! Where a thread is in its code is of no account to most properties. -/

namespace Preserves

variable (hgoto : ∀ s a, I s → I { s with thread := { s.thread with ip := a } })
include hgoto

theorem readOperand : Preserves I (fun _ => True) readOperand := by
  intro s hs
  simp only [Machine.readOperand, bind_apply, thread_apply]
  cases s.thread.image.chunk.code[s.thread.ip]? with
  | none => exact hs
  | some w => exact ⟨trivial, hgoto s _ hs⟩

theorem readIndex : Preserves I (fun _ => True) readIndex :=
  thread.andThen fun _ => (readOperand hgoto).andThen fun _ =>
    .ite ((Preserves.throw (Q := fun _ => True) _).andThen fun _ => .pure trivial) (.pure trivial)

theorem readConstant : Preserves I (fun _ => True) readConstant := by
  refine (readIndex hgoto).andThen fun index => thread.andThen fun t => ?_
  split
  · exact .throw _
  · exact .pure trivial

theorem readName : Preserves I (fun _ => True) readName := by
  refine (readConstant hgoto).andThen fun k => ?_
  split
  · exact .pure trivial
  · exact .throw _

theorem jumpTo (address : Nat) : Preserves I (fun _ => True) (jumpTo address) :=
  .updateThread fun s hs => hgoto s address hs

end Preserves

/-- Nothing behind a failure is carried out. -/
theorem preserves_failed (e : RuntimeError) (f : β → Exec α) :
    Preserves I Q (do let b ← throw e; f b) :=
  (Preserves.throw (Q := fun _ => False) e).bind fun _ h => h.elim

end

/-! ## Properties that most instructions keep -/

/-- A property that does not depend on where a thread is in its code, on its globals, and on what
the world holds apart from spawned calls and reports; and the stack may shrink, get a value if there
is room for it, and have its top value copied to a slot. -/
structure Robust (limits : Limits) (I : State → Prop) : Prop where
  goto : ∀ s a, I s → I { s with thread := { s.thread with ip := a } }
  globals : ∀ s g, I s → I { s with thread := { s.thread with globals := g } }
  world : ∀ s w, w.pending = s.world.pending → w.threads = s.world.threads →
    w.reports = s.world.reports → I s → I { s with world := w }
  push : ∀ s v, s.thread.stack.size < limits.stack → I s →
    I { s with thread := { s.thread with stack := s.thread.stack.push v } }
  take : ∀ s n, I s → I { s with thread := { s.thread with stack := s.thread.stack.take n } }
  copy : ∀ s k v, s.thread.stack.back? = some v → k < s.thread.stack.size → I s →
    I { s with thread := { s.thread with stack := s.thread.stack.setIfInBounds k v } }

section
variable {host : Host} {I : State → Prop} (hI : Robust host.limits I)
include hI

theorem push_robust (v : Value) : Preserves I (fun _ => True) (push host.limits v) := by
  intro s hs
  rw [push_apply]
  by_cases h : host.limits.stack ≤ s.thread.stack.size
  · rw [if_pos h]
    exact hs
  · rw [if_neg h]
    exact ⟨trivial, hI.push s v (Nat.lt_of_not_le h) hs⟩

theorem pop_robust : Preserves I (fun _ => True) pop := by
  refine Preserves.thread.andThen fun t => ?_
  split
  · exact .throw _
  · refine (Preserves.updateThread fun s hs => ?_).andThen fun _ => .pure trivial
    simp only [pop_eq_take]
    exact hI.take s _ hs

theorem popMany_robust (n : Nat) : Preserves I (fun _ => True) (popMany n) := by
  intro s hs
  simp only [popMany, bind_apply, thread_apply]
  by_cases h : s.thread.stack.size < n
  · simp only [if_pos h]
    exact hs
  · simp only [if_neg h]
    exact ⟨trivial, hI.take s _ hs⟩

theorem readOperand_robust : Preserves I (fun _ => True) readOperand := .readOperand hI.goto

theorem readIndex_robust : Preserves I (fun _ => True) readIndex := .readIndex hI.goto

theorem readConstant_robust : Preserves I (fun _ => True) readConstant := .readConstant hI.goto

theorem readName_robust : Preserves I (fun _ => True) readName := .readName hI.goto

theorem jumpTo_robust (address : Nat) : Preserves I (fun _ => True) (jumpTo address) :=
  .jumpTo hI.goto address

theorem heap_robust (f : World → Heap) :
    Preserves I (fun _ => True) (updateWorld fun w => { w with heap := f w }) :=
  .updateWorld fun s hs => hI.world s _ rfl rfl rfl hs

/-- The last part of most instructions. -/
theorem pushed_robust (v : Value) :
    Preserves I (· = none) (do push host.limits v; return (none : Option Value)) :=
  (push_robust hI v).andThen fun _ => .pure rfl

theorem binary_robust (f : Value → Value → Except RuntimeError Value) :
    Preserves I (· = none) (do binary host f; return (none : Option Value)) := by
  have hbinary : Preserves I (fun _ => True) (binary host f) := ?_
  · exact hbinary.andThen fun _ => .pure rfl
  refine (pop_robust hI).andThen fun b => (pop_robust hI).andThen fun a => ?_
  split
  · exact push_robust hI _
  · exact .throw _

/-- Opcodes of instructions that only compute. -/
def Plain : Opcode → Bool
  | .ret | .call | .spawn | .importUnit | .tryEnter | .tryExit => false
  | _ => true

/-- Instructions that only compute keep robust properties. -/
theorem execute_robust {op : Opcode} (hop : Plain op = true) :
    Preserves I (· = none) (execute host op) := by
  cases op
  case ret | call | spawn | importUnit | tryEnter | tryExit => cases hop
  all_goals simp only [execute]
  case add | subtract | multiply | divide | less | greater | lessEqual | greaterEqual | equal |
      notEqual =>
    exact binary_robust hI _
  case constant =>
    exact (readConstant_robust hI).andThen fun k => Preserves.thread.andThen fun t =>
      pushed_robust hI _
  case negate =>
    refine (pop_robust hI).andThen fun v => ?_
    split
    · exact pushed_robust hI _
    · exact preserves_failed _ _
  case not => exact (pop_robust hI).andThen fun v => pushed_robust hI _
  case print =>
    exact (pop_robust hI).andThen fun v => Preserves.thread.andThen fun t =>
      (Preserves.updateWorld fun s hs => hI.world s _ rfl rfl rfl hs).andThen fun _ => .pure rfl
  case pop =>
    exact Preserves.andThen ((pop_robust hI).andThen fun v => .pure trivial) fun _ => .pure rfl
  case getGlobal =>
    refine (readName_robust hI).andThen fun name => Preserves.thread.andThen fun t => ?_
    split
    · exact pushed_robust hI _
    · exact preserves_failed _ _
  case setGlobal =>
    exact (readName_robust hI).andThen fun name => Preserves.top.andThen fun v =>
      (Preserves.updateThread fun s hs => hI.globals s _ hs).andThen fun _ => .pure rfl
  case getLocal =>
    refine (readIndex_robust hI).andThen fun index => Preserves.thread.andThen fun t => ?_
    split
    · exact pushed_robust hI _
    · exact preserves_failed _ _
  case setLocal =>
    refine (readIndex_robust hI).andThen fun index => ?_
    -- The value comes from the top of the same stack, so the steps are not taken one by one.
    intro s hs
    simp only [bind_apply, top, thread_apply]
    cases hv : s.thread.stack.back? with
    | none => exact hs
    | some v =>
      simp only [pure_apply]
      by_cases h : s.thread.stack.size ≤ s.thread.base + index
      · simp only [if_pos h]
        exact hs
      · simp only [if_neg h]
        exact ⟨rfl, hI.copy s _ v hv (Nat.lt_of_not_le h) hs⟩
  case jumpIfFalse =>
    refine (readOperand_robust hI).andThen fun offset => (pop_robust hI).andThen fun v => ?_
    refine .ite ?_ (.pure rfl)
    exact (Preserves.jumpTarget _).andThen fun a => (jumpTo_robust hI a).andThen fun _ => .pure rfl
  case jump =>
    exact (readOperand_robust hI).andThen fun offset => (Preserves.jumpTarget _).andThen fun a =>
      (jumpTo_robust hI a).andThen fun _ => .pure rfl
  case buildList =>
    exact (readIndex_robust hI).andThen fun n => (popMany_robust hI n).andThen fun items =>
      pushed_robust hI _
  case buildMap =>
    refine (readIndex_robust hI).andThen fun n => (popMany_robust hI _).andThen fun flat => ?_
    split
    · exact pushed_robust hI _
    · exact preserves_failed _ _
  case classDef =>
    exact (readName_robust hI).andThen fun name => Preserves.world.andThen fun w =>
      (heap_robust hI _).andThen fun _ =>
      (Preserves.updateThread fun s hs => hI.globals s _ hs).andThen fun _ => pushed_robust hI _
  case method =>
    refine (readName_robust hI).andThen fun name => (pop_robust hI).andThen fun f => ?_
    split
    · refine Preserves.top.andThen fun c => ?_
      split
      · exact (heap_robust hI fun w => w.heap.addMethod _ _ _).andThen fun _ => .pure rfl
      · exact preserves_failed _ _
    · exact preserves_failed _ _
  case getProperty =>
    refine (readName_robust hI).andThen fun name => (pop_robust hI).andThen fun v => ?_
    split
    · refine Preserves.world.andThen fun w => ?_
      split
      · exact pushed_robust hI _
      · exact preserves_failed _ _
    · exact preserves_failed _ _
  case setProperty =>
    refine (readName_robust hI).andThen fun name => (pop_robust hI).andThen fun v =>
      (pop_robust hI).andThen fun o => ?_
    split
    · exact (heap_robust hI fun w => w.heap.setField _ _ _).andThen fun _ => pushed_robust hI _
    · exact preserves_failed _ _

end

/-! ## Control -/

/-- The part of a thread that says which activations there are. -/
structure Control where
  frames : Array Frame
  windows : List Window
  imports : Nat
  image : Image
  base : Nat
  handler : Option Handler

/-- The activations of a thread. -/
def Thread.control (t : Thread) : Control :=
  ⟨t.frames, t.windows, t.imports, t.image, t.base, t.handler⟩

theorem robust_control (limits : Limits) (c : Control) :
    Robust limits fun s => s.thread.control = c where
  goto _ _ h := h
  globals _ _ h := h
  world _ _ _ _ _ h := h
  push _ _ _ h := h
  take _ _ h := h
  copy _ _ _ _ _ h := h

/-- The value that a return gives: that on top of the stack, or none of the program's if the code has
come to its end. -/
def Thread.Returns (t : Thread) (v : Value) : Prop :=
  t.image.chunk.code[t.ip]? = none ∨ OpAt t.image.chunk t.ip .ret ∧ t.stack.back? = some v

/-- What the next instruction of a thread can do to its control, by how it ends. -/
inductive Shift (host : Host) (t : Thread) : Result (Option Value) → Prop
  | stay {s'} (control : s'.thread.control = t.control) : Shift host t (.ok none s')
  | arm {s' a} (op : OpAt t.image.chunk t.ip .tryEnter) (stack : s'.thread.stack = t.stack)
    (control : s'.thread.control = { t.control with
      handler := some ⟨a, t.image, t.base, t.frames.size, t.stack.size⟩ }) :
    Shift host t (.ok none s')
  | disarm {s'} (control : s'.thread.control = { t.control with handler := none }) :
    Shift host t (.ok none s')
  | enter {s' argc slot image result} (op : InstrAt t.image.chunk t.ip .call argc)
    (slot_eq : slot + argc + 1 = t.stack.size) (room : t.frames.size < host.limits.frames)
    (below : s'.thread.stack.take slot = t.stack.take slot)
    (control : s'.thread.control = { t.control with
      frames := t.frames.push ⟨t.image, t.ip + 2, t.base, t.handler, result⟩
      image
      base := slot + 1 }) : Shift host t (.ok none s')
  /-- The frame decides between the value that is returned and another one. -/
  | leave {s' fs frame n v} (frames : t.frames = fs.push frame) (floor : t.floor ≤ fs.size)
    (ip : s'.thread.ip = frame.ip) (height : t.stack.size ≤ n + 1)
    (stack : s'.thread.stack = ((t.stack.take n).take (t.base - 1)).push (frame.result.getD v))
    (control : s'.thread.control = { t.control with
      frames := fs, image := frame.image, base := frame.base, handler := frame.handler })
    (value : t.Returns v) : Shift host t (.ok none s')
  | load {s' path image} (op : OpAt t.image.chunk t.ip .importUnit)
    (room : t.imports < host.limits.imports) (stack : t.stack = s'.thread.stack.push path)
    (control : s'.thread.control =
      ⟨t.frames, ⟨path.text, t.frames.size, s'.thread.stack.size, t.image, t.ip + 1, t.base,
        t.handler⟩ :: t.windows, t.imports + 1, image, s'.thread.stack.size, none⟩)
    (unit : image.id = ⟨t.id, t.loaded⟩) : Shift host t (.ok none s')
  | finish {s' v} (floor : t.frames.size ≤ t.floor) (control : s'.thread.control = t.control) :
    Shift host t (.ok (some v) s')
  | fail {s' e} (control : s'.thread.control = t.control) : Shift host t (.error e s')
  /-- The return has been made, but the caller has no room for the value. -/
  | overflow {s' fs frame} (frames : t.frames = fs.push frame) (floor : t.floor ≤ fs.size)
    (control : s'.thread.control = { t.control with
      frames := fs, image := frame.image, base := frame.base, handler := frame.handler }) :
    Shift host t (.error .stackOverflow s')

section
variable {host : Host} {t : Thread} {s : State}

/-- An instruction that leaves the control alone. -/
theorem Shift.of_preserves {m : Exec (Option Value)}
    (h : Preserves (fun s' => s'.thread.control = t.control) (· = none) m)
    (hs : s.thread.control = t.control) : Shift host t (m s) := by
  have hm := h s hs
  cases hr : m s with
  | ok v s' =>
    rw [hr] at hm
    obtain ⟨rfl, hcontrol⟩ := hm
    exact .stay hcontrol
  | error e s' =>
    rw [hr] at hm
    exact .fail hm

theorem doReturn_shift {v : Value} (hv : t.Returns v) {n : Nat} (hheight : t.stack.size ≤ n + 1)
    {st : Array Value} (hst : st = t.stack.take n) (a : Nat) (w : World) :
    Shift host t (doReturn host v ⟨{ t with ip := a, stack := st }, w⟩) := by
  subst hst
  by_cases hle : t.frames.size ≤ t.floor
  · have hr := doReturn_of_le (t := { t with ip := a, stack := t.stack.take n }) (w := w) host v hle
    rw [hr]
    exact .finish hle rfl
  · have hpos : 0 < t.frames.size := Nat.zero_lt_of_lt (Nat.lt_of_not_le hle)
    obtain ⟨fs, frame, hpush⟩ := Array.size_pos_iff_exists_push.mp hpos
    have hfloor : t.floor ≤ fs.size := by
      rw [hpush, Array.size_push] at hle
      omega
    have hr := doReturn_of_push (t := { t with ip := a, stack := t.stack.take n }) (w := w) host v
      hpush hfloor
    rw [hr]
    unfold pushed
    split
    · exact .overflow hpush hfloor rfl
    · exact .leave hpush hfloor rfl hheight rfl rfl hv

/-- Entering a function is the last part of a call. -/
theorem enterFunction_shift {argc slot : Nat} {st : Array Value} {w : World}
    (hop : InstrAt t.image.chunk t.ip .call argc) (hslot : slot + argc + 1 = t.stack.size)
    (hbelow : st.take slot = t.stack.take slot) (f : Function) (result : Option Value) :
    Shift host t ((do enterFunction host.limits f slot result; return none : Exec (Option Value))
      ⟨{ t with ip := t.ip + 2, stack := st }, w⟩) := by
  simp only [enterFunction, bind_assoc]
  rw [bind_of_ok (thread_apply _)]
  by_cases h : host.limits.frames ≤ t.frames.size
  · simp only [h, if_true]
    exact .fail rfl
  · simp only [h, if_false]
    exact .enter hop hslot (Nat.lt_of_not_le h) hbelow rfl

/-- A receiver is put above the callee. -/
theorem bindReceiver_shift {argc slot : Nat} {w : World}
    (hop : InstrAt t.image.chunk t.ip .call argc) (hslot : slot + argc + 1 = t.stack.size)
    (f : Function) (receiver : InstanceRef) (result : Option Value) :
    Shift host t
      ((do
        checkArity f argc
        bindReceiver host.limits slot f receiver
        enterFunction host.limits f slot result
        return none : Exec (Option Value)) ⟨{ t with ip := t.ip + 2 }, w⟩) := by
  rw [bind_apply, checkArity_apply]
  by_cases harity : f.arity ≠ argc
  · simp only [if_pos harity]
    exact .fail rfl
  · simp only [if_neg harity, bindReceiver, bind_assoc]
    rw [bind_of_ok (thread_apply _)]
    by_cases hsize : host.limits.stack ≤ t.stack.size
    · simp only [hsize, if_true]
      exact .fail rfl
    · simp only [hsize, if_false]
      rw [bind_of_ok (updateStack_apply _ _)]
      refine enterFunction_shift hop hslot ?_ f result
      have hlength : slot ≤ (t.stack.toList.take slot).length := by
        rw [List.length_take, Array.length_toList]
        omega
      apply Array.toList_inj.mp
      simp only [Array.take_eq_extract, Array.toList_extract, List.extract_eq_take_drop,
        Nat.sub_zero, List.drop_zero, Array.toList_append]
      rw [List.append_assoc, List.take_append_of_le_length hlength, List.take_take, Nat.min_self]

/-- Reading an operand that must not be negative. -/
theorem readIndex_cases {op : Opcode} (hop : OpAt t.image.chunk t.ip op) (w : World) :
    (∃ e a, readIndex ⟨{ t with ip := t.ip + 1 }, w⟩ = .error e ⟨{ t with ip := a }, w⟩) ∨
      ∃ n, InstrAt t.image.chunk t.ip op n ∧
        readIndex ⟨{ t with ip := t.ip + 1 }, w⟩ = .ok n ⟨{ t with ip := t.ip + 2 }, w⟩ := by
  cases hword : t.image.chunk.code[t.ip + 1]? with
  | none =>
    refine .inl ⟨.missingOperand (t.ip + 1), t.ip + 1, ?_⟩
    simp only [readIndex, readOperand, bind_apply, thread_apply, hword, throw_apply]
  | some word =>
    by_cases hneg : word.toInt < 0
    · refine .inl ⟨.missingOperand (t.ip + 1), t.ip + 2, ?_⟩
      simp only [readIndex, bind_apply, thread_apply, readOperand_of_code hword, if_pos hneg,
        throw_apply]
    · have hinstr : InstrAt t.image.chunk t.ip op word.toInt.toNat :=
        ⟨hop, word, hword, (Int.toNat_of_nonneg (Int.not_lt.mp hneg)).symm⟩
      exact .inr ⟨_, hinstr, readIndex_of_instrAt hinstr⟩

theorem call_shift (hop : OpAt t.image.chunk t.ip .call) (w : World) :
    Shift host t (execute host .call ⟨{ t with ip := t.ip + 1 }, w⟩) := by
  simp only [execute]
  rcases readIndex_cases hop w with ⟨e, a, hr⟩ | ⟨argc, hinstr, hr⟩
  · rw [bind_of_error hr]
    exact .fail rfl
  rw [bind_of_ok hr]
  simp only [callValue, bind_assoc]
  rw [bind_of_ok (thread_apply _)]
  by_cases hsize : t.stack.size < argc + 1
  · simp only [hsize, if_true]
    exact .fail rfl
  simp only [hsize, if_false]
  have hslot : t.stack.size - (argc + 1) + argc + 1 = t.stack.size := by omega
  have hI := robust_control host.limits t.control
  cases t.stack.getD (t.stack.size - (argc + 1)) .null with
  | function f =>
    simp only [bind_assoc]
    rw [bind_apply, checkArity_apply]
    by_cases harity : f.arity ≠ argc
    · simp only [if_pos harity]
      exact .fail rfl
    · simp only [if_neg harity]
      exact enterFunction_shift hinstr hslot rfl f none
  | bound receiver method =>
    simp only [bind_assoc]
    exact bindReceiver_shift hinstr hslot method receiver none
  | native n =>
    simp only [bind_assoc]
    rw [bind_of_ok (updateStack_apply _ _), bind_apply, callNative_apply]
    rcases host.call n.builtin _ w with ⟨r, w'⟩
    cases r with
    | ok v => exact .of_preserves (pushed_robust hI v) rfl
    | error message => exact .fail rfl
  | classRef c =>
    simp only [bind_assoc]
    rw [bind_of_ok (world_apply _), bind_of_ok (updateWorld_apply _ _)]
    cases (w.heap.newInstance c).2.method? c "init" with
    | none =>
      simp only [bind_assoc]
      rw [bind_of_ok (updateStack_apply _ _)]
      exact .of_preserves (pushed_robust hI _) rfl
    | some init =>
      simp only [bind_assoc]
      exact bindReceiver_shift hinstr hslot init _ _
  | _ => exact .fail rfl

theorem spawn_shift (w : World) :
    Shift host t (execute host .spawn ⟨{ t with ip := t.ip + 1 }, w⟩) := by
  have hI := robust_control host.limits t.control
  refine .of_preserves ?_ rfl
  simp only [execute, spawnCall, bind_assoc]
  refine (readIndex_robust hI).andThen fun argc => (popMany_robust hI argc).andThen fun args =>
    (pop_robust hI).andThen fun callee => Preserves.andThen (fun s hs => ?_) fun job =>
    (Preserves.updateThread fun s hs => hs).andThen fun _ =>
    (Preserves.updateWorld fun s hs => hs).andThen fun _ => pushed_robust hI _
  rw [spawnJob_apply]
  cases jobOf s.thread callee args with
  | ok job => exact ⟨trivial, hs⟩
  | error e => exact hs

theorem pop_empty (h : t.stack.size = 0) (w : World) :
    pop ⟨t, w⟩ = .error .stackUnderflow ⟨t, w⟩ := by
  have hback : t.stack.back? = none := by
    rw [Array.size_eq_zero_iff.mp h]
    rfl
  simp only [pop, bind_apply, thread_apply, hback, throw_apply]

theorem ret_shift (hop : OpAt t.image.chunk t.ip .ret) (w : World) :
    Shift host t (execute host .ret ⟨{ t with ip := t.ip + 1 }, w⟩) := by
  simp only [execute]
  rcases Nat.eq_zero_or_pos t.stack.size with hempty | hpos
  · rw [bind_of_error (pop_empty (t := { t with ip := t.ip + 1 }) hempty w)]
    exact .fail rfl
  · obtain ⟨st, v, hst⟩ := Array.size_pos_iff_exists_push.mp hpos
    rw [bind_of_ok (pop_push (t := { t with ip := t.ip + 1 }) hst)]
    have hv : t.Returns v := .inr ⟨hop, by rw [hst, Array.back?_push]⟩
    exact doReturn_shift hv (n := st.size) (Nat.le_of_eq (by rw [hst, Array.size_push]))
      (by simp [hst]) _ w

theorem importUnit_shift (hop : OpAt t.image.chunk t.ip .importUnit) (w : World) :
    Shift host t (execute host .importUnit ⟨{ t with ip := t.ip + 1 }, w⟩) := by
  rcases Nat.eq_zero_or_pos t.stack.size with hempty | hpos
  · simp only [execute]
    rw [bind_of_error (pop_empty (t := { t with ip := t.ip + 1 }) hempty w)]
    exact .fail rfl
  obtain ⟨st, path, hst⟩ := Array.size_pos_iff_exists_push.mp hpos
  rw [← instruction_of_opAt host hop, instruction_importUnit host hop hst, beginImport_then_none]
  cases host.loader with
  | none => exact .fail rfl
  | some load =>
    by_cases hdepth : host.limits.imports ≤ t.imports
    · simp only [hdepth, if_true]
      exact .fail rfl
    · simp only [hdepth, if_false]
      cases load w.files path.text with
      | error message => exact .fail rfl
      | ok chunk => exact .load hop (Nat.lt_of_not_le hdepth) hst rfl rfl

theorem jumpTarget_cases (offset : Word) (s : State) :
    (∃ e, jumpTarget offset s = .error e s) ∨ ∃ a, jumpTarget offset s = .ok a s := by
  simp only [jumpTarget, bind_apply, thread_apply]
  split
  · exact .inl ⟨_, rfl⟩
  · exact .inr ⟨_, rfl⟩

theorem tryEnter_shift (hop : OpAt t.image.chunk t.ip .tryEnter) (w : World) :
    Shift host t (execute host .tryEnter ⟨{ t with ip := t.ip + 1 }, w⟩) := by
  simp only [execute]
  cases hword : t.image.chunk.code[t.ip + 1]? with
  | none =>
    have hr : readOperand ⟨{ t with ip := t.ip + 1 }, w⟩ =
        .error (.missingOperand (t.ip + 1)) ⟨{ t with ip := t.ip + 1 }, w⟩ := by
      simp only [readOperand, bind_apply, thread_apply, hword, throw_apply]
    rw [bind_of_error hr]
    exact .fail rfl
  | some word =>
    rw [bind_of_ok (readOperand_of_code hword)]
    rcases jumpTarget_cases word ⟨{ t with ip := t.ip + 2 }, w⟩ with ⟨e, hr⟩ | ⟨a, hr⟩
    · rw [bind_of_error hr]
      exact .fail rfl
    · rw [bind_of_ok hr]
      exact .arm hop rfl rfl

/-- What the next instruction is: a return behind the end of the code, a word that is no opcode, or
that of an opcode. -/
theorem instruction_cases (host : Host) (t : Thread) (w : World) :
    (t.image.chunk.code[t.ip]? = none ∧ instruction host ⟨t, w⟩ = doReturn host .null ⟨t, w⟩) ∨
    (∃ e, instruction host ⟨t, w⟩ = .error e ⟨t, w⟩) ∨
    ∃ op, OpAt t.image.chunk t.ip op ∧
      instruction host ⟨t, w⟩ = execute host op ⟨{ t with ip := t.ip + 1 }, w⟩ := by
  cases hword : t.image.chunk.code[t.ip]? with
  | none =>
    left
    simp only [instruction, bind_apply, thread_apply, hword, true_and]
  | some word =>
    right
    cases hdecode : Opcode.decode? word with
    | none =>
      refine .inl ⟨.invalidOpcode word t.ip, ?_⟩
      simp only [instruction, bind_apply, thread_apply, hword, hdecode, throw_apply]
    | some op =>
      have hop : OpAt t.image.chunk t.ip op :=
        hword.trans (congrArg some (Opcode.encode_of_decode? hdecode))
      exact .inr ⟨op, hop, instruction_of_opAt host hop⟩

/-- There is nothing else that an instruction can do to the control. -/
theorem instruction_shift (host : Host) (t : Thread) (w : World) :
    Shift host t (instruction host ⟨t, w⟩) := by
  rcases instruction_cases host t w with ⟨hend, hr⟩ | ⟨e, hr⟩ | ⟨op, hop, hr⟩
  · rw [hr]
    exact doReturn_shift (v := .null) (.inl hend) (n := t.stack.size) (Nat.le_succ _) (by simp) t.ip w
  · rw [hr]
    exact .fail rfl
  · rw [hr]
    cases hplain : Plain op with
    | true => exact .of_preserves (execute_robust (robust_control host.limits t.control) hplain) rfl
    | false =>
      cases op with
      | ret => exact ret_shift hop w
      | call => exact call_shift hop w
      | spawn => exact spawn_shift w
      | importUnit => exact importUnit_shift hop w
      | tryEnter => exact tryEnter_shift hop w
      | tryExit => exact .disarm rfl
      | _ => cases hplain

end

end DotScript.Machine
