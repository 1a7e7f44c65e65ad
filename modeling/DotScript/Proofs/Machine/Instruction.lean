import DotScript.Machine.Step
import DotScript.Proofs.Compile.Layout
import DotScript.Proofs.Computation

/-!
# What instructions do

One equation for each instruction: the result of carrying it out on a thread whose next instruction
it is and whose stack has the values it takes. Most instructions end by pushing their result, which
fails on a full stack; `pushed` is that last part.
-/

namespace DotScript.Machine

open DotScript.Bytecode DotScript.Compile

/-- The result of an instruction or a part of one. -/
abbrev Result := EStateM.Result RuntimeError State

/-! ## Primitive computations -/

section
variable (s : State)

@[simp] theorem thread_apply : thread s = .ok s.thread s := rfl

@[simp] theorem world_apply : world s = .ok s.world s := rfl

@[simp] theorem updateThread_apply (f : Thread → Thread) :
    updateThread f s = .ok () { s with thread := f s.thread } := rfl

@[simp] theorem updateWorld_apply (f : World → World) :
    updateWorld f s = .ok () { s with world := f s.world } := rfl

@[simp] theorem updateStack_apply (f : Array Value → Array Value) :
    updateStack f s = .ok () { s with thread := { s.thread with stack := f s.thread.stack } } := rfl

@[simp] theorem jumpTo_apply (address : Nat) :
    jumpTo address s = .ok () { s with thread := { s.thread with ip := address } } := rfl

theorem push_apply (limits : Limits) (v : Value) :
    push limits v s =
      if limits.stack ≤ s.thread.stack.size then .error .stackOverflow s
      else .ok () { s with thread := { s.thread with stack := s.thread.stack.push v } } := by
  simp only [push, bind_apply, thread_apply]
  split <;> rfl

end

section
variable {t : Thread} {w : World} {st : Array Value} {v : Value}

theorem pop_push (h : t.stack = st.push v) :
    pop ⟨t, w⟩ = .ok v ⟨{ t with stack := st }, w⟩ := by
  simp only [pop, bind_apply, thread_apply, h, Array.back?_push, updateStack_apply,
    Array.pop_push, pure_apply]

theorem top_push (h : t.stack = st.push v) : top ⟨t, w⟩ = .ok v ⟨t, w⟩ := by
  simp only [top, bind_apply, thread_apply, h, Array.back?_push, pure_apply]

theorem popMany_append {n : Nat} {vs : List Value} (h : t.stack = st ++ vs.toArray)
    (hn : vs.length = n) : popMany n ⟨t, w⟩ = .ok vs ⟨{ t with stack := st }, w⟩ := by
  subst hn
  have hsize : ¬ t.stack.size < vs.length := by simp [h]
  have htake : t.stack.take (t.stack.size - vs.length) = st := by simp [h]
  have hdrop : (t.stack.drop (t.stack.size - vs.length)).toList = vs := by simp [h]
  simp only [popMany, bind_apply, thread_apply, if_neg hsize, pure_apply, updateStack_apply, htake,
    hdrop]

end

/-! ## Operands -/

section
variable {t : Thread} {w : World} {op : Opcode}

/-- The last part of an instruction: push its result, unless the stack is full. -/
def pushed (host : Host) (v : Value) (t : Thread) (w : World) : Result (Option Value) :=
  if host.limits.stack ≤ t.stack.size then .error .stackOverflow ⟨t, w⟩
  else .ok none ⟨{ t with stack := t.stack.push v }, w⟩

theorem push_then_none (host : Host) (v : Value) (t : Thread) (w : World) :
    (do push host.limits v; return none : Exec (Option Value)) ⟨t, w⟩ = pushed host v t w := by
  simp only [bind_apply, push_apply, pushed]
  by_cases h : host.limits.stack ≤ t.stack.size
  · simp only [h, if_true]
  · simp only [h, if_false]
    rfl

/-- The next instruction is carried out behind its opcode. -/
theorem instruction_of_opAt (host : Host) (h : OpAt t.image.chunk t.ip op) :
    instruction host ⟨t, w⟩ = execute host op ⟨{ t with ip := t.ip + 1 }, w⟩ := by
  simp only [OpAt] at h
  simp only [instruction, bind_apply, thread_apply, h, Opcode.decode?_encode, updateThread_apply]

theorem readOperand_of_code {word : Word} (h : t.image.chunk.code[t.ip + 1]? = some word) :
    readOperand ⟨{ t with ip := t.ip + 1 }, w⟩ = .ok word ⟨{ t with ip := t.ip + 2 }, w⟩ := by
  simp only [readOperand, bind_apply, thread_apply, h, updateThread_apply, pure_apply]

theorem readIndex_of_instrAt {n : Nat} (h : InstrAt t.image.chunk t.ip op n) :
    readIndex ⟨{ t with ip := t.ip + 1 }, w⟩ = .ok n ⟨{ t with ip := t.ip + 2 }, w⟩ := by
  obtain ⟨-, word, hword, hn⟩ := h
  have hpos : ¬ word.toInt < 0 := by omega
  simp only [readIndex, bind_apply, thread_apply, readOperand_of_code hword, if_neg hpos,
    pure_apply]
  rw [hn, Int.toNat_natCast]

theorem readConstant_of_constAt {k : Constant} (h : ConstAt t.image.chunk t.ip op k) :
    ∃ n, readConstant ⟨{ t with ip := t.ip + 1 }, w⟩ =
      .ok (n, k) ⟨{ t with ip := t.ip + 2 }, w⟩ := by
  obtain ⟨n, hinstr, hk⟩ := h
  refine ⟨n, ?_⟩
  simp only [readConstant, bind_apply, readIndex_of_instrAt hinstr, thread_apply, hk, pure_apply]

theorem readName_of_constAt {name : String} (h : ConstAt t.image.chunk t.ip op (.str name)) :
    readName ⟨{ t with ip := t.ip + 1 }, w⟩ = .ok name ⟨{ t with ip := t.ip + 2 }, w⟩ := by
  obtain ⟨n, hread⟩ := readConstant_of_constAt (w := w) h
  simp only [readName, bind_apply, hread, pure_apply]

theorem jumpTarget_eq {offset : Word} {target : Nat} (h : (t.ip : Int) + offset.toInt = target)
    (hsize : target ≤ t.image.chunk.code.size) :
    jumpTarget offset ⟨t, w⟩ = .ok target ⟨t, w⟩ := by
  have hrange : ¬ ((t.ip : Int) + offset.toInt < 0 ∨
      (t.image.chunk.code.size : Int) < t.ip + offset.toInt) := by omega
  simp only [jumpTarget, bind_apply, thread_apply, if_neg hrange, pure_apply]
  rw [h, Int.toNat_natCast]

/-- The operand of a jump leads to its target. -/
theorem jump_of_jumpAt {target : Nat} (h : JumpAt t.image.chunk t.ip op target) :
    ∃ word, readOperand ⟨{ t with ip := t.ip + 1 }, w⟩ = .ok word ⟨{ t with ip := t.ip + 2 }, w⟩ ∧
      ∀ st : Array Value, jumpTarget word ⟨{ t with ip := t.ip + 2, stack := st }, w⟩ =
        .ok target ⟨{ t with ip := t.ip + 2, stack := st }, w⟩ := by
  obtain ⟨-, word, hword, htarget, hsize⟩ := h
  refine ⟨word, readOperand_of_code hword, fun st => jumpTarget_eq ?_ hsize⟩
  change ((t.ip + 2 : Nat) : Int) + word.toInt = target
  omega

end

/-! ## Instructions that push a value -/

section
variable (host : Host) {t : Thread} {w : World} {st : Array Value}

theorem instruction_constant {k : Constant} (h : ConstAt t.image.chunk t.ip .constant k) :
    instruction host ⟨t, w⟩ =
      pushed host (constantValue t.image k) { t with ip := t.ip + 2 } w := by
  obtain ⟨n, hread⟩ := readConstant_of_constAt (w := w) h
  rw [instruction_of_opAt host h.opAt]
  refine (bind_of_ok hread).trans ?_
  exact push_then_none ..

theorem instruction_getGlobal {name : String}
    (h : ConstAt t.image.chunk t.ip .getGlobal (.str name)) :
    instruction host ⟨t, w⟩ =
      match t.globals.get? name with
      | some v => pushed host v { t with ip := t.ip + 2 } w
      | none => .error (.undefinedGlobal name) ⟨{ t with ip := t.ip + 2 }, w⟩ := by
  rw [instruction_of_opAt host h.opAt]
  refine (bind_of_ok (readName_of_constAt h)).trans ?_
  simp only [bind_apply, thread_apply]
  cases t.globals.get? name with
  | some v => exact push_then_none ..
  | none => rfl

theorem instruction_setGlobal {name : String} {v : Value}
    (h : ConstAt t.image.chunk t.ip .setGlobal (.str name)) (hst : t.stack = st.push v) :
    instruction host ⟨t, w⟩ =
      .ok none ⟨{ t with ip := t.ip + 2, globals := t.globals.insert name v }, w⟩ := by
  rw [instruction_of_opAt host h.opAt]
  refine (bind_of_ok (readName_of_constAt h)).trans ?_
  rw [bind_of_ok (top_push (t := { t with ip := t.ip + 2 }) hst)]
  rfl

theorem instruction_getLocal {slot : Nat} {v : Value}
    (h : InstrAt t.image.chunk t.ip .getLocal slot) (hv : t.stack[t.base + slot]? = some v) :
    instruction host ⟨t, w⟩ = pushed host v { t with ip := t.ip + 2 } w := by
  rw [instruction_of_opAt host h.1]
  refine (bind_of_ok (readIndex_of_instrAt h)).trans ?_
  simp only [bind_apply, thread_apply, hv]
  exact push_then_none ..

theorem instruction_setLocal {slot : Nat} {v : Value}
    (h : InstrAt t.image.chunk t.ip .setLocal slot) (hst : t.stack = st.push v)
    (hslot : t.base + slot < t.stack.size) :
    instruction host ⟨t, w⟩ = .ok none ⟨{ t with
      ip := t.ip + 2, stack := t.stack.setIfInBounds (t.base + slot) v }, w⟩ := by
  rw [instruction_of_opAt host h.1]
  refine (bind_of_ok (readIndex_of_instrAt h)).trans ?_
  rw [bind_of_ok (top_push (t := { t with ip := t.ip + 2 }) hst)]
  simp only [bind_apply, thread_apply, if_neg (Nat.not_le.mpr hslot), pure_apply]
  rfl

/-! ## Operators -/

/-- The result of an operator: a value to push or a failure. -/
def operated (host : Host) (r : Except RuntimeError Value) (t : Thread) (w : World) :
    Result (Option Value) :=
  match r with
  | .ok v => pushed host v t w
  | .error e => .error e ⟨t, w⟩

theorem binary_then_none (f : Value → Value → Except RuntimeError Value) {a b : Value}
    (hst : t.stack = (st.push a).push b) :
    (do binary host f; return none : Exec (Option Value)) ⟨t, w⟩ =
      operated host (f a b) { t with stack := st } w := by
  simp only [binary, bind_assoc]
  rw [bind_of_ok (pop_push hst), bind_of_ok (pop_push rfl)]
  simp only [operated]
  cases f a b with
  | ok v => exact push_then_none ..
  | error e => rfl

/-- What the opcode of a binary operator computes. -/
def binaryValue : Opcode → Option (Value → Value → Except RuntimeError Value)
  | .add => some addValues
  | .subtract => some (onNumbers "subtract" fun x y => .number (x.sub y))
  | .multiply => some (onNumbers "multiply" fun x y => .number (x.mul y))
  | .divide => some (onNumbers "divide" fun x y => .number (x.div y))
  | .less => some (onNumbers "compare" fun x y => .bool (x.lt y))
  | .greater => some (onNumbers "compare" fun x y => .bool (y.lt x))
  | .lessEqual => some (onNumbers "compare" fun x y => .bool (x.le y))
  | .greaterEqual => some (onNumbers "compare" fun x y => .bool (y.le x))
  | .equal => some fun a b => .ok (.bool (a.eq b))
  | .notEqual => some fun a b => .ok (.bool (!a.eq b))
  | _ => none

theorem instruction_binary {op : Opcode} {f : Value → Value → Except RuntimeError Value}
    {a b : Value} (h : OpAt t.image.chunk t.ip op) (hf : binaryValue op = some f)
    (hst : t.stack = (st.push a).push b) :
    instruction host ⟨t, w⟩ = operated host (f a b) { t with ip := t.ip + 1, stack := st } w := by
  rw [instruction_of_opAt host h]
  cases op <;> cases hf <;>
    exact binary_then_none host _ (t := { t with ip := t.ip + 1 }) hst

def negated : Value → Except RuntimeError Value
  | .number n => .ok (.number n.neg)
  | v => .error (.negation v.typeName)

theorem instruction_negate {v : Value} (h : OpAt t.image.chunk t.ip .negate)
    (hst : t.stack = st.push v) :
    instruction host ⟨t, w⟩ =
      operated host (negated v) { t with ip := t.ip + 1, stack := st } w := by
  rw [instruction_of_opAt host h]
  refine (bind_of_ok (pop_push (t := { t with ip := t.ip + 1 }) hst)).trans ?_
  cases v with
  | number n => exact push_then_none ..
  | _ => rfl

theorem instruction_not {v : Value} (h : OpAt t.image.chunk t.ip .not)
    (hst : t.stack = st.push v) :
    instruction host ⟨t, w⟩ =
      pushed host (.bool v.isFalsey) { t with ip := t.ip + 1, stack := st } w := by
  rw [instruction_of_opAt host h]
  refine (bind_of_ok (pop_push (t := { t with ip := t.ip + 1 }) hst)).trans ?_
  exact push_then_none ..

/-! ## Control flow -/

theorem instruction_print {v : Value} (h : OpAt t.image.chunk t.ip .print)
    (hst : t.stack = st.push v) :
    instruction host ⟨t, w⟩ = .ok none
      ⟨{ t with ip := t.ip + 1, stack := st },
        { w with printed := w.printed.push (t.id, v.text) }⟩ := by
  rw [instruction_of_opAt host h]
  refine (bind_of_ok (pop_push (t := { t with ip := t.ip + 1 }) hst)).trans ?_
  rfl

theorem instruction_pop {v : Value} (h : OpAt t.image.chunk t.ip .pop)
    (hst : t.stack = st.push v) :
    instruction host ⟨t, w⟩ = .ok none ⟨{ t with ip := t.ip + 1, stack := st }, w⟩ := by
  rw [instruction_of_opAt host h]
  refine (bind_of_ok (discard_of_ok (pop_push (t := { t with ip := t.ip + 1 }) hst))).trans ?_
  rfl

theorem instruction_jump {target : Nat} (h : JumpAt t.image.chunk t.ip .jump target) :
    instruction host ⟨t, w⟩ = .ok none ⟨{ t with ip := target }, w⟩ := by
  obtain ⟨word, hread, htarget⟩ := jump_of_jumpAt (w := w) h
  rw [instruction_of_opAt host h.1]
  refine (bind_of_ok hread).trans ?_
  rw [bind_of_ok (htarget t.stack)]
  rfl

theorem instruction_jumpIfFalse {target : Nat} {v : Value}
    (h : JumpAt t.image.chunk t.ip .jumpIfFalse target) (hst : t.stack = st.push v) :
    instruction host ⟨t, w⟩ = .ok none
      ⟨{ t with ip := if v.isFalsey then target else t.ip + 2, stack := st }, w⟩ := by
  obtain ⟨word, hread, htarget⟩ := jump_of_jumpAt (w := w) h
  rw [instruction_of_opAt host h.1]
  refine (bind_of_ok hread).trans ?_
  rw [bind_of_ok (pop_push (t := { t with ip := t.ip + 2 }) hst)]
  cases v.isFalsey with
  | true =>
    simp only [if_true]
    rw [bind_of_ok (htarget st)]
    rfl
  | false => rfl

theorem instruction_tryEnter {target : Nat} (h : JumpAt t.image.chunk t.ip .tryEnter target) :
    instruction host ⟨t, w⟩ = .ok none
      ⟨{ t with
          ip := t.ip + 2
          handler := some ⟨target, t.image, t.base, t.frames.size, t.stack.size⟩ }, w⟩ := by
  obtain ⟨word, hread, htarget⟩ := jump_of_jumpAt (w := w) h
  rw [instruction_of_opAt host h.1]
  refine (bind_of_ok hread).trans ?_
  rw [bind_of_ok (htarget t.stack)]
  rfl

theorem instruction_tryExit (h : OpAt t.image.chunk t.ip .tryExit) :
    instruction host ⟨t, w⟩ = .ok none ⟨{ t with ip := t.ip + 1, handler := none }, w⟩ := by
  rw [instruction_of_opAt host h]
  rfl

theorem instruction_ret {v : Value} (h : OpAt t.image.chunk t.ip .ret)
    (hst : t.stack = st.push v) :
    instruction host ⟨t, w⟩ = doReturn host v ⟨{ t with ip := t.ip + 1, stack := st }, w⟩ := by
  rw [instruction_of_opAt host h]
  exact bind_of_ok (pop_push (t := { t with ip := t.ip + 1 }) hst)

/-- A return out of the run. -/
theorem doReturn_of_le (v : Value) (h : t.frames.size ≤ t.floor) :
    doReturn host v ⟨t, w⟩ = .ok (some v) ⟨t, w⟩ := by
  simp only [doReturn, bind_apply, thread_apply, if_pos h, pure_apply]

/-- A return to the caller. -/
theorem doReturn_of_push (v : Value) {fs : Array Frame} {frame : Frame}
    (hframes : t.frames = fs.push frame) (h : t.floor ≤ fs.size) :
    doReturn host v ⟨t, w⟩ =
      pushed host (frame.result.getD v)
        { t with
          frames := fs
          stack := t.stack.take (t.base - 1)
          image := frame.image
          ip := frame.ip
          base := frame.base
          handler := frame.handler } w := by
  have hfloor : ¬ t.frames.size ≤ t.floor := by
    rw [hframes, Array.size_push]
    omega
  simp only [doReturn, bind_apply, thread_apply, if_neg hfloor]
  simp only [hframes, Array.back?_push, updateThread_apply, Array.pop_push, bind_apply]
  exact push_then_none ..

/-! ## Lists, maps and objects -/

theorem instruction_buildList {vs : List Value}
    (h : InstrAt t.image.chunk t.ip .buildList vs.length) (hst : t.stack = st ++ vs.toArray) :
    instruction host ⟨t, w⟩ = pushed host (.list vs) { t with ip := t.ip + 2, stack := st } w := by
  rw [instruction_of_opAt host h.1]
  refine (bind_of_ok (readIndex_of_instrAt h)).trans ?_
  rw [bind_of_ok (popMany_append (t := { t with ip := t.ip + 2 }) hst rfl)]
  exact push_then_none ..

theorem instruction_buildMap {n : Nat} {vs : List Value}
    (h : InstrAt t.image.chunk t.ip .buildMap n) (hn : vs.length = n * 2)
    (hst : t.stack = st ++ vs.toArray) :
    instruction host ⟨t, w⟩ =
      operated host ((buildMap vs {}).map .map) { t with ip := t.ip + 2, stack := st } w := by
  rw [instruction_of_opAt host h.1]
  refine (bind_of_ok (readIndex_of_instrAt h)).trans ?_
  rw [bind_of_ok (popMany_append (t := { t with ip := t.ip + 2 }) hst hn)]
  cases buildMap vs {} with
  | ok entries => exact push_then_none ..
  | error e => rfl

theorem instruction_classDef {name : String}
    (h : ConstAt t.image.chunk t.ip .classDef (.str name)) :
    instruction host ⟨t, w⟩ =
      pushed host (.classRef (w.heap.newClass name).1)
        { t with
          ip := t.ip + 2
          globals := t.globals.insert name (.classRef (w.heap.newClass name).1) }
        { w with heap := (w.heap.newClass name).2 } := by
  rw [instruction_of_opAt host h.opAt]
  refine (bind_of_ok (readName_of_constAt h)).trans ?_
  exact push_then_none ..

theorem instruction_method {name : String} {c : ClassRef} {f : Function}
    (h : ConstAt t.image.chunk t.ip .method (.str name))
    (hst : t.stack = (st.push (.classRef c)).push (.function f)) :
    instruction host ⟨t, w⟩ = .ok none
      ⟨{ t with ip := t.ip + 2, stack := st.push (.classRef c) },
        { w with heap := w.heap.addMethod c name f }⟩ := by
  rw [instruction_of_opAt host h.opAt]
  refine (bind_of_ok (readName_of_constAt h)).trans ?_
  rw [bind_of_ok (pop_push (t := { t with ip := t.ip + 2 }) hst)]
  simp only
  rw [bind_of_ok (top_push rfl)]
  rfl

/-- The property of a value, which has to be an instance. -/
def propertyOf (heap : Heap) (v : Value) (name : String) : Except RuntimeError Value :=
  match v with
  | .inst i => property heap i name
  | v => .error (.notAnInstance v.typeName)

theorem instruction_getProperty {name : String} {v : Value}
    (h : ConstAt t.image.chunk t.ip .getProperty (.str name)) (hst : t.stack = st.push v) :
    instruction host ⟨t, w⟩ =
      operated host (propertyOf w.heap v name) { t with ip := t.ip + 2, stack := st } w := by
  rw [instruction_of_opAt host h.opAt]
  refine (bind_of_ok (readName_of_constAt h)).trans ?_
  rw [bind_of_ok (pop_push (t := { t with ip := t.ip + 2 }) hst)]
  cases v with
  | inst i =>
    simp only [bind_apply, world_apply, operated, propertyOf]
    cases property w.heap i name with
    | ok v => exact push_then_none ..
    | error e => rfl
  | _ => rfl

/-- The heap after setting the property of a value, which has to be an instance. -/
def withProperty (heap : Heap) (o : Value) (name : String) (v : Value) :
    Except RuntimeError Heap :=
  match o with
  | .inst i => .ok (heap.setField i name v)
  | o => .error (.notAnInstance o.typeName)

theorem instruction_setProperty {name : String} {o v : Value}
    (h : ConstAt t.image.chunk t.ip .setProperty (.str name))
    (hst : t.stack = (st.push o).push v) :
    instruction host ⟨t, w⟩ =
      match withProperty w.heap o name v with
      | .ok heap => pushed host v { t with ip := t.ip + 2, stack := st } { w with heap }
      | .error e => .error e ⟨{ t with ip := t.ip + 2, stack := st }, w⟩ := by
  rw [instruction_of_opAt host h.opAt]
  refine (bind_of_ok (readName_of_constAt h)).trans ?_
  rw [bind_of_ok (pop_push (t := { t with ip := t.ip + 2 }) hst), bind_of_ok (pop_push rfl)]
  cases o with
  | inst i => exact push_then_none ..
  | _ => rfl

/-! ## Calls -/

/-- The last part of a call of a function: its frame above the values `st`, with the function in the
place of the callee and `slots` as its first locals. -/
def entered (host : Host) (f : Function) (slots : List Value) (result : Option Value)
    (st : Array Value) (t : Thread) (w : World) : Result (Option Value) :=
  let stack := st.push (.function f) ++ slots.toArray
  if host.limits.frames ≤ t.frames.size then .error .stackOverflow ⟨{ t with stack }, w⟩
  else
    .ok none
      ⟨{ t with
          stack
          frames := t.frames.push ⟨t.image, t.ip, t.base, t.handler, result⟩
          image := f.image
          ip := f.entry
          base := st.size + 1 }, w⟩

/-- A call of a function with a receiver, which needs one more place on the stack. -/
def enteredWith (host : Host) (f : Function) (receiver : InstanceRef) (args : List Value)
    (result : Option Value) (st : Array Value) (t : Thread) (w : World) : Result (Option Value) :=
  if f.arity ≠ args.length then .error (.arity f.name f.arity args.length) ⟨t, w⟩
  else if host.limits.stack ≤ t.stack.size then .error .stackOverflow ⟨t, w⟩
  else entered host f (.inst receiver :: args) result st t w

/-- What a call does, once its instruction is read: the callee stands above `st` and below the
arguments. -/
def called (host : Host) (callee : Value) (args : List Value) (st : Array Value) (t : Thread)
    (w : World) : Result (Option Value) :=
  match callee with
  | .function f =>
    if f.arity ≠ args.length then .error (.arity f.name f.arity args.length) ⟨t, w⟩
    else entered host f args none st t w
  | .bound receiver method => enteredWith host method receiver args none st t w
  | .native n =>
    match host.call n.builtin args w with
    | (.ok v, w') => pushed host v { t with stack := st } w'
    | (.error message, w') => .error (.native n.name message) ⟨{ t with stack := st }, w'⟩
  | .classRef c =>
    let i := (w.heap.newInstance c).1
    let w' := { w with heap := (w.heap.newInstance c).2 }
    match w'.heap.method? c "init" with
    | none => pushed host (.inst i) { t with stack := st } w'
    | some init => enteredWith host init i args (some (.inst i)) st t w'
  | v => .error (.notCallable v.typeName) ⟨t, w⟩

theorem checkArity_apply (f : Function) (argc : Nat) (s : State) :
    checkArity f argc s =
      if f.arity ≠ argc then .error (.arity f.name f.arity argc) s else .ok () s := by
  unfold checkArity
  split <;> rfl

/-- A call of a function whose place and arguments are on the stack. -/
theorem enterFunction_then_none (f : Function) (slots : List Value) (result : Option Value)
    (hst : t.stack = st.push (.function f) ++ slots.toArray) :
    (do enterFunction host.limits f st.size result; return none : Exec (Option Value)) ⟨t, w⟩ =
      entered host f slots result st t w := by
  simp only [enterFunction, bind_assoc, entered, ← hst]
  rw [bind_of_ok (thread_apply _)]
  by_cases h : host.limits.frames ≤ t.frames.size
  · simp only [h, if_true]
    rfl
  · simp only [h, if_false]
    rfl

/-- A receiver goes between the function and the arguments. -/
theorem take_receiver_drop (st : Array Value) (callee : Value) (args : List Value) (f : Function)
    (receiver : InstanceRef) :
    (st.push callee ++ args.toArray).take st.size ++ #[.function f, .inst receiver] ++
      (st.push callee ++ args.toArray).drop (st.size + 1) =
        st.push (.function f) ++ (Value.inst receiver :: args).toArray := by
  apply Array.toList_inj.mp
  simp

theorem bindReceiver_then_none (f : Function) (receiver : InstanceRef) {callee : Value}
    {args : List Value} (result : Option Value)
    (hst : t.stack = st.push callee ++ args.toArray) :
    (do
      checkArity f args.length
      bindReceiver host.limits st.size f receiver
      enterFunction host.limits f st.size result
      return none : Exec (Option Value)) ⟨t, w⟩ =
      enteredWith host f receiver args result st t w := by
  rw [bind_apply, checkArity_apply]
  unfold enteredWith
  by_cases harity : f.arity ≠ args.length
  · simp only [if_pos harity]
  · simp only [if_neg harity, bindReceiver, bind_assoc]
    rw [bind_of_ok (thread_apply _)]
    by_cases hsize : host.limits.stack ≤ t.stack.size
    · simp only [hsize, if_true]
      rfl
    · simp only [hsize, if_false]
      rw [bind_of_ok (updateStack_apply _ _)]
      refine enterFunction_then_none host f _ result ?_
      simp only [hst, take_receiver_drop]

theorem callNative_apply (n : Native) (args : List Value) (s : State) :
    callNative host n args s =
      match host.call n.builtin args s.world with
      | (.ok v, w') => .ok v { s with world := w' }
      | (.error message, w') => .error (.native n.name message) { s with world := w' } := by
  unfold callNative
  rw [bind_of_ok (world_apply _)]
  rcases host.call n.builtin args s.world with ⟨r, w'⟩
  refine (bind_of_ok (updateWorld_apply _ _)).trans ?_
  cases r <;> rfl

theorem instruction_call {callee : Value} {args : List Value}
    (h : InstrAt t.image.chunk t.ip .call args.length)
    (hst : t.stack = st.push callee ++ args.toArray) :
    instruction host ⟨t, w⟩ = called host callee args st { t with ip := t.ip + 2 } w := by
  have hsize : ¬ t.stack.size < args.length + 1 := by
    simp only [hst, Array.size_append, Array.size_push, List.size_toArray]
    omega
  have hslot : t.stack.size - (args.length + 1) = st.size := by simp [hst]
  have hcallee : t.stack.getD st.size .null = callee := by simp [hst]
  have htake : t.stack.take st.size = st := by simp [hst]
  have hdrop : (t.stack.drop (st.size + 1)).toList = args := by simp [hst]
  rw [instruction_of_opAt host h.1]
  refine (bind_of_ok (readIndex_of_instrAt h)).trans ?_
  simp only [callValue, bind_assoc]
  rw [bind_of_ok (thread_apply _)]
  simp only [if_neg hsize, hslot, hcallee]
  cases callee with
  | function f =>
    simp only [bind_assoc, called]
    rw [bind_apply, checkArity_apply]
    by_cases harity : f.arity ≠ args.length
    · simp only [if_pos harity]
    · simp only [if_neg harity]
      exact enterFunction_then_none host f args none (t := { t with ip := t.ip + 2 }) hst
  | bound receiver method =>
    simp only [bind_assoc]
    exact bindReceiver_then_none host method receiver none (t := { t with ip := t.ip + 2 }) hst
  | native n =>
    simp only [bind_assoc, hdrop, called]
    rw [bind_of_ok (updateStack_apply _ _)]
    simp only [htake]
    rw [bind_apply, callNative_apply]
    rcases host.call n.builtin args w with ⟨r, w'⟩
    cases r with
    | ok v => exact push_then_none ..
    | error message => rfl
  | classRef c =>
    simp only [bind_assoc, called]
    rw [bind_of_ok (world_apply _), bind_of_ok (updateWorld_apply _ _)]
    cases (w.heap.newInstance c).2.method? c "init" with
    | none =>
      simp only [bind_assoc]
      rw [bind_of_ok (updateStack_apply _ _)]
      simp only [htake]
      exact push_then_none ..
    | some init =>
      simp only [bind_assoc]
      exact bindReceiver_then_none host init _ _ (t := { t with ip := t.ip + 2 }) hst
  | _ => rfl

/-! ## Imports and spawned calls -/

theorem instruction_importUnit {path : Value} (h : OpAt t.image.chunk t.ip .importUnit)
    (hst : t.stack = st.push path) :
    instruction host ⟨t, w⟩ =
      (do beginImport host path.text; return none : Exec (Option Value))
        ⟨{ t with ip := t.ip + 1, stack := st }, w⟩ := by
  rw [instruction_of_opAt host h]
  exact bind_of_ok (pop_push (t := { t with ip := t.ip + 1 }) hst)

theorem beginImport_then_none (path : String) (t : Thread) (w : World) :
    (do beginImport host path; return none : Exec (Option Value)) ⟨t, w⟩ =
      match host.loader with
      | none => .error (.importFailed path "no module loader installed") ⟨t, w⟩
      | some load =>
        if host.limits.imports ≤ t.imports then
          .error (.importFailed path "imports nested too deeply") ⟨t, w⟩
        else
          match load w.files path with
          | .error message => .error (.importFailed path message) ⟨t, w⟩
          | .ok chunk =>
            .ok none
              ⟨{ t with
                  windows := ⟨path, t.frames.size, t.stack.size, t.image, t.ip, t.base, t.handler⟩
                    :: t.windows
                  imports := t.imports + 1
                  image := ⟨⟨t.id, t.loaded⟩, chunk⟩
                  loaded := t.loaded + 1
                  ip := 0
                  base := t.stack.size
                  handler := none }, w⟩ := by
  simp only [beginImport]
  cases host.loader with
  | none => rfl
  | some load =>
    simp only [bind_assoc]
    rw [bind_of_ok (thread_apply _)]
    by_cases hdepth : host.limits.imports ≤ t.imports
    · simp only [hdepth, if_true]
      rfl
    · simp only [hdepth, if_false, bind_assoc]
      rw [bind_of_ok (world_apply _)]
      cases load w.files path <;> rfl

/-- The work of a spawned call, or why there is none. -/
def jobOf (t : Thread) (callee : Value) (args : List Value) : Except RuntimeError Job :=
  match callee with
  | .native n => .ok (.native n args)
  | .function f =>
    if f.arity ≠ args.length then .error (.arity f.name f.arity args.length)
    else .ok (.script (t.child f args))
  | .bound receiver f =>
    if f.arity ≠ args.length then .error (.arity f.name f.arity args.length)
    else .ok (.script (t.child f (.inst receiver :: args)))
  | v => .error (.spawnFailed ("cannot spawn a " ++ v.typeName))

theorem spawnJob_apply (callee : Value) (args : List Value) (s : State) :
    spawnJob callee args s =
      match jobOf s.thread callee args with
      | .ok job => .ok job s
      | .error e => .error e s := by
  simp only [spawnJob, jobOf]
  rw [bind_of_ok (thread_apply _)]
  cases callee with
  | function f | bound receiver f =>
    simp only [bind_apply, checkArity_apply]
    by_cases h : f.arity ≠ args.length
    · simp only [if_pos h]
    · simp only [if_neg h, pure_apply]
  | _ => rfl

theorem instruction_spawn {callee : Value} {args : List Value}
    (h : InstrAt t.image.chunk t.ip .spawn args.length)
    (hst : t.stack = st.push callee ++ args.toArray) :
    instruction host ⟨t, w⟩ =
      match jobOf { t with ip := t.ip + 2, stack := st } callee args with
      | .ok job =>
        pushed host .null { t with ip := t.ip + 2, stack := st, spawned := t.spawned + 1 }
          { w with threads := w.threads + 1, pending := w.pending ++ [⟨w.threads, job⟩] }
      | .error e => .error e ⟨{ t with ip := t.ip + 2, stack := st }, w⟩ := by
  rw [instruction_of_opAt host h.1]
  refine (bind_of_ok (readIndex_of_instrAt h)).trans ?_
  simp only [spawnCall, bind_assoc]
  rw [bind_of_ok (popMany_append (t := { t with ip := t.ip + 2 }) hst rfl),
    bind_of_ok (pop_push rfl), bind_apply, spawnJob_apply]
  cases jobOf { t with ip := t.ip + 2, stack := st } callee args with
  | ok job => exact push_then_none ..
  | error e => rfl

end

end DotScript.Machine
