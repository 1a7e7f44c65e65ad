import DotScript.Machine.Step
import DotScript.Proofs.Machine.Shift
import DotScript.Proofs.Values.Keyed

/-!
# Keys in a running machine

The tables of a running machine have each key once: map literals are made by storing, and nothing
else but natives makes a map.

* `State.Keyed`: all values in a state are keyed;
* `Host.KeepsKeys`: so are those that natives give;
* `instruction_keyed`, `step_keyed`, `run_keyed`: instructions, steps and runs keep it.
-/

namespace DotScript.Machine

open DotScript.Bytecode

/-! ## States -/

/-- The value that an instruction or a frame has, if any. -/
def ResultKeyed (r : Option Value) : Prop := ∀ v, r = some v → v.Keyed

theorem resultKeyed_none : ResultKeyed none := by
  rintro v ⟨⟩

theorem resultKeyed_some {v : Value} (h : v.Keyed) : ResultKeyed (some v) := by
  rintro u ⟨⟩
  exact h

/-- The values that a thread holds: on its stack, as globals, and as results of its calls. -/
structure Thread.Keyed (t : Thread) : Prop where
  stack : ∀ v ∈ t.stack, v.Keyed
  globals : ∀ e ∈ t.globals.entries, e.2.Keyed
  results : ∀ frame ∈ t.frames, ResultKeyed frame.result

/-- The values that a spawned call begins with. -/
def Job.Keyed : Job → Prop
  | .script t => t.Keyed
  | .native _ args => ∀ v ∈ args, v.Keyed

/-- The values in the fields of instances. -/
def Heap.Keyed (h : Heap) : Prop := ∀ i name v, h.field? i name = some v → v.Keyed

structure World.Keyed (w : World) : Prop where
  heap : w.heap.Keyed
  pending : ∀ task ∈ w.pending, task.job.Keyed

structure State.Keyed (s : State) : Prop where
  thread : s.thread.Keyed
  world : s.world.Keyed

/-- Natives give and leave keyed values for keyed ones. -/
def Host.KeepsKeys (host : Host) : Prop :=
  ∀ b args w, (∀ v ∈ args, v.Keyed) → w.Keyed →
    (host.call b args w).2.Keyed ∧ ∀ v, (host.call b args w).1 = .ok v → v.Keyed

/-! ## Map literals -/

theorem keyed_of_buildMap {vs : List Value} {t t' : Table MapKey Value} (hvs : ∀ v ∈ vs, v.Keyed)
    (ht : (Value.map t).Keyed) (h : buildMap vs t = .ok t') : (Value.map t').Keyed := by
  fun_induction buildMap vs t with
  | case1 k v rest t key hkey ih =>
    obtain ⟨hdistinct, hvalues⟩ := Value.keyed_map.mp ht
    have hv : v.Keyed := hvs v (by simp)
    refine ih (fun u hu => hvs u (by simp [hu])) (Value.keyed_map.mpr ⟨hdistinct.insert key v, ?_⟩) h
    exact Table.forall_mem_insert hvalues hv
  | case2 => cases h
  | case3 =>
    cases h
    exact ht

/-! ## The heap -/

namespace Heap.Keyed

variable {h : Heap}

theorem newInstance (hh : h.Keyed) (c : ClassRef) : (h.newInstance c).2.Keyed := by
  intro i name v hv
  simp only [Heap.field?, Heap.newInstance, Array.getElem?_push] at hv
  split at hv
  · cases hv
  · exact hh i name v hv

theorem setField (hh : h.Keyed) (i : InstanceRef) (name : String) {v : Value} (hv : v.Keyed) :
    (h.setField i name v).Keyed := by
  intro j m u hu
  simp only [Heap.field?, Heap.setField, Array.getElem?_modify] at hu
  split at hu
  · rw [Option.bind_map, Option.bind_eq_some_iff] at hu
    obtain ⟨t, ht, hu⟩ := hu
    simp only [Function.comp, Table.get?_insert] at hu
    split at hu
    · cases hu
      exact hv
    · have hold : h.field? j m = some u := by simp only [Heap.field?, ht, Option.bind_some, hu]
      exact hh j m u hold
  · exact hh j m u hu

theorem property (hh : h.Keyed) {i : InstanceRef} {name : String} {v : Value}
    (hv : property h i name = .ok v) : v.Keyed := by
  unfold Machine.property at hv
  split at hv
  · next u hu =>
    cases hv
    exact hh i name v hu
  · split at hv <;> cases hv
    exact Value.keyed_atom rfl

end Heap.Keyed

/-! ## The operand stack -/

section
variable {host : Host} {limits : Limits} {t : Thread}

theorem Thread.Keyed.withStack (h : t.Keyed) {st : Array Value} (hst : ∀ v ∈ st, v.Keyed) :
    ({ t with stack := st } : Thread).Keyed := ⟨hst, h.globals, h.results⟩

theorem keyed_take {st : Array Value} (h : ∀ v ∈ st, v.Keyed) (n : Nat) : ∀ v ∈ st.take n, v.Keyed :=
  fun v hv => h v (mem_of_mem_extract hv)

/-- Keyed states stay so wherever a thread is in its code. -/
theorem keyed_goto (s : State) (a : Nat) (h : s.Keyed) :
    State.Keyed { s with thread := { s.thread with ip := a } } :=
  ⟨⟨h.thread.stack, h.thread.globals, h.thread.results⟩, h.world⟩

theorem thread_keyed : Preserves State.Keyed Thread.Keyed thread := fun _ hs => ⟨hs.thread, hs⟩

theorem world_keyed : Preserves State.Keyed World.Keyed world := fun _ hs => ⟨hs.world, hs⟩

theorem updateStack_keyed {f : Array Value → Array Value}
    (hf : ∀ st : Array Value, (∀ v ∈ st, v.Keyed) → ∀ v ∈ f st, v.Keyed) :
    Preserves State.Keyed (fun _ => True) (updateStack f) :=
  .updateThread fun _ hs => ⟨hs.thread.withStack (hf _ hs.thread.stack), hs.world⟩

theorem push_keyed {v : Value} (hv : v.Keyed) :
    Preserves State.Keyed (fun _ => True) (push limits v) := by
  refine Preserves.thread.andThen fun t => .ite (preserves_failed _ _) ?_
  refine updateStack_keyed fun st hst u hu => ?_
  rcases Array.mem_push.mp hu with hu | rfl
  · exact hst u hu
  · exact hv

/-- The last part of most instructions. -/
theorem pushed_keyed {v : Value} (hv : v.Keyed) :
    Preserves State.Keyed ResultKeyed
      (do push limits v; return (none : Option Value)) :=
  (push_keyed hv).andThen fun _ => .pure resultKeyed_none

theorem top_keyed : Preserves State.Keyed Value.Keyed top := by
  refine thread_keyed.bind fun t ht => ?_
  split
  · exact .throw _
  · next v hv => exact .pure (ht.stack v (Array.mem_of_back? hv))

theorem pop_keyed : Preserves State.Keyed Value.Keyed pop := by
  refine thread_keyed.bind fun t ht => ?_
  split
  · exact .throw _
  · next v hv =>
    refine (updateStack_keyed fun st hst u hu => keyed_take hst _ u (pop_eq_take st ▸ hu)).andThen fun _ => ?_
    exact .pure (ht.stack v (Array.mem_of_back? hv))

theorem popMany_keyed (n : Nat) :
    Preserves State.Keyed (fun vs => ∀ v ∈ vs, v.Keyed) (popMany n) := by
  refine thread_keyed.bind fun t ht => .ite (preserves_failed _ _) ?_
  refine (updateStack_keyed fun st hst => keyed_take hst _).andThen fun _ => .pure fun v hv => ?_
  exact ht.stack v (mem_of_mem_extract (Array.mem_toList_iff.mp hv))

theorem binary_keyed {f : Value → Value → Except RuntimeError Value}
    (hf : ∀ a b v, f a b = .ok v → v.Keyed) :
    Preserves State.Keyed ResultKeyed
      (do binary host f; return (none : Option Value)) := by
  have hbinary : Preserves State.Keyed (fun _ => True) (binary host f) := by
    refine pop_keyed.bind fun b hb => pop_keyed.bind fun a ha => ?_
    split
    · next v hv => exact push_keyed (hf a b v hv)
    · exact .throw _
  exact hbinary.andThen fun _ => .pure resultKeyed_none

/-! ## Calls -/

theorem checkArity_keyed (f : Function) (argc : Nat) :
    Preserves State.Keyed (fun _ => True) (checkArity f argc) := .ite (.throw _) (.pure trivial)

theorem bindReceiver_keyed (slot : Nat) (f : Function) (receiver : InstanceRef) :
    Preserves State.Keyed (fun _ => True) (bindReceiver limits slot f receiver) := by
  refine Preserves.thread.andThen fun t => .ite (preserves_failed _ _) ?_
  refine updateStack_keyed fun st hst v hv => ?_
  rcases Array.mem_append.mp hv with hv | hv
  · rcases Array.mem_append.mp hv with hv | hv
    · exact keyed_take hst _ v hv
    · have hatom : v = .function f ∨ v = .inst receiver := by simpa using hv
      rcases hatom with rfl | rfl <;> exact Value.keyed_atom rfl
  · exact hst v (mem_of_mem_extract hv)

theorem enterFunction_keyed (f : Function) (slot : Nat) {result : Option Value}
    (hresult : ResultKeyed result) :
    Preserves State.Keyed (fun _ => True) (enterFunction limits f slot result) := by
  refine Preserves.thread.andThen fun t => .ite (preserves_failed _ _) ?_
  refine .updateThread fun s hs => ⟨⟨hs.thread.stack, hs.thread.globals, ?_⟩, hs.world⟩
  intro frame hframe
  rcases Array.mem_push.mp hframe with hframe | rfl
  · exact hs.thread.results frame hframe
  · exact hresult

theorem enterMethod_keyed (f : Function) (slot : Nat) (receiver : InstanceRef) (argc : Nat)
    {result : Option Value} (hresult : ResultKeyed result) :
    Preserves State.Keyed (fun _ => True) (do
      checkArity f argc
      bindReceiver limits slot f receiver
      enterFunction limits f slot result) :=
  (checkArity_keyed f argc).andThen fun _ => (bindReceiver_keyed slot f receiver).andThen fun _ =>
    enterFunction_keyed f slot hresult

theorem callNative_keyed (hnatives : host.KeepsKeys) (n : Native) {args : List Value}
    (hargs : ∀ v ∈ args, v.Keyed) : Preserves State.Keyed Value.Keyed (callNative host n args) := by
  intro s hs
  obtain ⟨hworld, hresult⟩ := hnatives n.builtin args s.world hargs hs.world
  rw [callNative_apply]
  rcases hcall : host.call n.builtin args s.world with ⟨r, w'⟩
  rw [hcall] at hworld hresult
  cases r with
  | ok v => exact ⟨hresult v rfl, hs.thread, hworld⟩
  | error message => exact ⟨hs.thread, hworld⟩

theorem callValue_keyed (hnatives : host.KeepsKeys) (argc : Nat) :
    Preserves State.Keyed (fun _ => True) (callValue host argc) := by
  refine thread_keyed.bind fun t ht => .ite (preserves_failed _ _) ?_
  have hcut : ∀ n, Preserves State.Keyed (fun _ => True) (updateStack fun st => st.take n) :=
    fun n => updateStack_keyed fun st hst => keyed_take hst n
  have hargs : ∀ v ∈ (t.stack.drop (t.stack.size - (argc + 1) + 1)).toList, v.Keyed :=
    fun v hv => ht.stack v (mem_of_mem_extract (Array.mem_toList_iff.mp hv))
  simp only
  cases t.stack.getD (t.stack.size - (argc + 1)) .null with
  | function f => exact (checkArity_keyed f argc).andThen fun _ => enterFunction_keyed f _ resultKeyed_none
  | bound receiver method => exact enterMethod_keyed method _ receiver argc resultKeyed_none
  | native n =>
    exact (hcut _).andThen fun _ => (callNative_keyed hnatives n hargs).bind fun v hv =>
      push_keyed hv
  | classRef c =>
    refine world_keyed.bind fun w hw => ?_
    refine Preserves.andThen (.updateWorld fun s hs =>
      ⟨hs.thread, hw.heap.newInstance c, hs.world.pending⟩) fun _ => ?_
    split
    · exact (hcut _).andThen fun _ => push_keyed (Value.keyed_atom rfl)
    · exact enterMethod_keyed _ _ _ argc (resultKeyed_some (Value.keyed_atom rfl))
  | _ => exact .throw _

theorem doReturn_keyed {v : Value} (hv : v.Keyed) :
    Preserves State.Keyed ResultKeyed (doReturn host v) := by
  refine thread_keyed.bind fun t ht => .ite (.pure (resultKeyed_some hv)) ?_
  split
  · exact .pure (resultKeyed_some hv)
  · next frame hframe =>
    have hgiven : (frame.result.getD v).Keyed := by
      cases hr : frame.result with
      | none => exact hv
      | some u => exact ht.results frame (Array.mem_of_back? hframe) u hr
    refine Preserves.andThen (.updateThread fun s hs => ⟨⟨?_, hs.thread.globals, ?_⟩, hs.world⟩)
      fun _ => pushed_keyed hgiven
    · exact keyed_take hs.thread.stack _
    · exact fun frame hframe => hs.thread.results frame
        (mem_of_mem_extract (pop_eq_take s.thread.frames ▸ hframe))

theorem beginImport_keyed (path : String) :
    Preserves State.Keyed (fun _ => True) (beginImport host path) := by
  unfold beginImport
  split
  · exact .throw _
  · refine Preserves.thread.andThen fun t => .ite (preserves_failed _ _) ?_
    refine Preserves.world.andThen fun w => ?_
    split
    · exact .throw _
    · exact .updateThread fun s hs =>
        ⟨⟨hs.thread.stack, hs.thread.globals, hs.thread.results⟩, hs.world⟩

theorem Thread.Keyed.child (h : t.Keyed) (f : Function) {args : List Value}
    (hargs : ∀ v ∈ args, v.Keyed) : (t.child f args).Keyed where
  stack v hv := hargs v (List.mem_toArray.mp hv)
  globals := h.globals
  results := forall_mem_empty

theorem spawnJob_keyed (callee : Value) {args : List Value} (hargs : ∀ v ∈ args, v.Keyed) :
    Preserves State.Keyed Job.Keyed (spawnJob callee args) := by
  refine thread_keyed.bind fun t ht => ?_
  split
  · exact .pure hargs
  · next f => exact (checkArity_keyed f _).andThen fun _ => .pure (ht.child f hargs)
  · next receiver method =>
    have hslots : ∀ v ∈ Value.inst receiver :: args, v.Keyed :=
      List.forall_mem_cons.mpr ⟨Value.keyed_atom rfl, hargs⟩
    exact (checkArity_keyed method _).andThen fun _ => .pure (ht.child method hslots)
  · exact .throw _

theorem spawnCall_keyed (argc : Nat) :
    Preserves State.Keyed (fun _ => True) (spawnCall host argc) := by
  refine (popMany_keyed argc).bind fun args hargs => pop_keyed.bind fun callee _ =>
    (spawnJob_keyed callee hargs).bind fun job hjob => ?_
  refine Preserves.andThen (.updateThread fun s hs =>
    ⟨⟨hs.thread.stack, hs.thread.globals, hs.thread.results⟩, hs.world⟩) fun _ => ?_
  refine Preserves.andThen (.updateWorld fun s hs => ⟨hs.thread, hs.world.heap, ?_⟩) fun _ =>
    push_keyed (Value.keyed_atom rfl)
  intro task htask
  rcases List.mem_append.mp htask with htask | htask
  · exact hs.world.pending task htask
  · cases List.mem_singleton.mp htask
    exact hjob

/-! ## Instructions -/

theorem keyed_constantValue (image : Image) (k : Constant) : (constantValue image k).Keyed := by
  cases k <;> exact Value.keyed_atom rfl

theorem keyed_of_addValues (a b v : Value) (h : addValues a b = .ok v) : v.Keyed := by
  unfold addValues at h
  split at h <;> cases h <;> exact Value.keyed_atom rfl

theorem keyed_of_onNumbers {verb : String} {f : Number → Number → Value}
    (hf : ∀ x y, (f x y).isAtom = true) (a b v : Value) (h : onNumbers verb f a b = .ok v) :
    v.Keyed := by
  unfold onNumbers at h
  split at h
  · cases h
    exact Value.keyed_atom (hf _ _)
  · cases h

theorem setGlobal_keyed (name : String) {v : Value} (hv : v.Keyed) : Preserves State.Keyed
    (fun _ => True) (updateThread fun t => { t with globals := t.globals.insert name v }) :=
  .updateThread fun _ hs => ⟨⟨hs.thread.stack, Table.forall_mem_insert hs.thread.globals hv,
    hs.thread.results⟩, hs.world⟩

theorem execute_keyed (hnatives : host.KeepsKeys) (op : Opcode) :
    Preserves State.Keyed ResultKeyed (execute host op) := by
  have hgoto := keyed_goto
  cases op
  all_goals simp only [execute]
  case ret => exact pop_keyed.bind fun v hv => doReturn_keyed hv
  case constant =>
    exact (Preserves.readConstant hgoto).andThen fun k => Preserves.thread.andThen fun t =>
      pushed_keyed (keyed_constantValue _ _)
  case add => exact binary_keyed keyed_of_addValues
  case subtract | multiply | divide | less | greater | lessEqual | greaterEqual =>
    exact binary_keyed (keyed_of_onNumbers fun _ _ => rfl)
  case equal | notEqual =>
    refine binary_keyed fun a b v h => ?_
    cases h
    exact Value.keyed_atom rfl
  case negate =>
    refine pop_keyed.bind fun v _ => ?_
    split
    · exact pushed_keyed (Value.keyed_atom rfl)
    · exact preserves_failed _ _
  case not => exact pop_keyed.bind fun v _ => pushed_keyed (Value.keyed_atom rfl)
  case print =>
    exact pop_keyed.bind fun v _ => Preserves.thread.andThen fun t =>
      Preserves.andThen (.updateWorld fun s hs => ⟨hs.thread, hs.world.heap, hs.world.pending⟩)
        fun _ => .pure resultKeyed_none
  case pop =>
    exact Preserves.andThen (pop_keyed.bind fun v _ => .pure trivial) fun _ => .pure resultKeyed_none
  case getGlobal =>
    refine (Preserves.readName hgoto).andThen fun name => thread_keyed.bind fun t ht => ?_
    split
    · next v hv => exact pushed_keyed (ht.globals _ (Table.mem_of_find? hv))
    · exact preserves_failed _ _
  case setGlobal =>
    exact (Preserves.readName hgoto).andThen fun name => top_keyed.bind fun v hv =>
      (setGlobal_keyed name hv).andThen fun _ => .pure resultKeyed_none
  case getLocal =>
    refine (Preserves.readIndex hgoto).andThen fun index => thread_keyed.bind fun t ht => ?_
    split
    · next v hv => exact pushed_keyed (ht.stack v (Array.mem_of_getElem? hv))
    · exact preserves_failed _ _
  case setLocal =>
    refine (Preserves.readIndex hgoto).andThen fun index => top_keyed.bind fun v hv =>
      Preserves.thread.andThen fun t => .ite (preserves_failed _ _) ?_
    refine (updateStack_keyed fun st hst u hu => ?_).andThen fun _ => .pure resultKeyed_none
    rcases Array.mem_or_eq_of_mem_setIfInBounds hu with hu | rfl
    · exact hst u hu
    · exact hv
  case jumpIfFalse =>
    refine (Preserves.readOperand hgoto).andThen fun offset => pop_keyed.bind fun v _ =>
      .ite ?_ (.pure resultKeyed_none)
    exact (Preserves.jumpTarget _).andThen fun a => (Preserves.jumpTo hgoto a).andThen fun _ =>
      .pure resultKeyed_none
  case jump =>
    exact (Preserves.readOperand hgoto).andThen fun offset => (Preserves.jumpTarget _).andThen
      fun a => (Preserves.jumpTo hgoto a).andThen fun _ => .pure resultKeyed_none
  case call =>
    exact (Preserves.readIndex hgoto).andThen fun n => (callValue_keyed hnatives n).andThen fun _ =>
      .pure resultKeyed_none
  case spawn =>
    exact (Preserves.readIndex hgoto).andThen fun n => (spawnCall_keyed n).andThen fun _ =>
      .pure resultKeyed_none
  case buildList =>
    exact (Preserves.readIndex hgoto).andThen fun n => (popMany_keyed n).bind fun items hitems =>
      pushed_keyed (Value.keyed_list.mpr hitems)
  case buildMap =>
    refine (Preserves.readIndex hgoto).andThen fun n => (popMany_keyed _).bind fun flat hflat => ?_
    have hempty : (Value.map {}).Keyed := Value.keyed_map.mpr ⟨Table.distinct_empty, List.forall_mem_nil _⟩
    split
    · next m hm => exact pushed_keyed (keyed_of_buildMap hflat hempty hm)
    · exact preserves_failed _ _
  case importUnit =>
    exact pop_keyed.bind fun path _ => (beginImport_keyed _).andThen fun _ => .pure resultKeyed_none
  case classDef =>
    refine (Preserves.readName hgoto).andThen fun name => world_keyed.bind fun w hw => ?_
    refine Preserves.andThen (.updateWorld fun s hs => ⟨hs.thread, hw.heap, hs.world.pending⟩)
      fun _ => ?_
    exact (setGlobal_keyed name (Value.keyed_atom rfl)).andThen fun _ =>
      pushed_keyed (Value.keyed_atom rfl)
  case method =>
    refine (Preserves.readName hgoto).andThen fun name => pop_keyed.bind fun f _ => ?_
    split
    · refine Preserves.top.andThen fun c => ?_
      split
      · exact Preserves.andThen (.updateWorld fun s hs =>
          ⟨hs.thread, hs.world.heap, hs.world.pending⟩) fun _ => .pure resultKeyed_none
      · exact preserves_failed _ _
    · exact preserves_failed _ _
  case getProperty =>
    refine (Preserves.readName hgoto).andThen fun name => pop_keyed.bind fun v _ => ?_
    split
    · refine world_keyed.bind fun w hw => ?_
      split
      · next u hu => exact pushed_keyed (hw.heap.property hu)
      · exact preserves_failed _ _
    · exact preserves_failed _ _
  case setProperty =>
    refine (Preserves.readName hgoto).andThen fun name => pop_keyed.bind fun v hv =>
      pop_keyed.bind fun o _ => ?_
    split
    · exact Preserves.andThen (.updateWorld fun s hs =>
        ⟨hs.thread, hs.world.heap.setField _ name hv, hs.world.pending⟩) fun _ => pushed_keyed hv
    · exact preserves_failed _ _
  case tryEnter =>
    exact (Preserves.readOperand hgoto).andThen fun offset => (Preserves.jumpTarget offset).andThen
      fun a => Preserves.andThen (.updateThread fun s hs => ⟨⟨hs.thread.stack, hs.thread.globals,
        hs.thread.results⟩, hs.world⟩) fun _ => .pure resultKeyed_none
  case tryExit =>
    exact Preserves.andThen (.updateThread fun s hs => ⟨⟨hs.thread.stack, hs.thread.globals,
      hs.thread.results⟩, hs.world⟩) fun _ => .pure resultKeyed_none

theorem instruction_keyed (hnatives : host.KeepsKeys) :
    Preserves State.Keyed ResultKeyed (instruction host) := by
  refine Preserves.thread.andThen fun t => ?_
  split
  · exact doReturn_keyed (Value.keyed_atom rfl)
  · split
    · exact .throw _
    · exact Preserves.andThen (.updateThread fun s hs => keyed_goto s _ hs) fun _ =>
        execute_keyed hnatives _

/-! ## Steps and runs -/

theorem Thread.Keyed.closeWindow (h : t.Keyed) (w : Window) (outer : List Window) :
    (t.closeWindow w outer).Keyed where
  stack := keyed_take h.stack _
  globals := h.globals
  results frame hframe := h.results frame (mem_of_mem_extract hframe)

theorem Thread.Keyed.enterHandler (h : t.Keyed) (handler : Handler) (e : RuntimeError) :
    (t.enterHandler handler e).Keyed where
  stack v hv := by
    rcases Array.mem_push.mp hv with hv | rfl
    · exact keyed_take h.stack _ v hv
    · exact Value.keyed_atom rfl
  globals := h.globals
  results frame hframe := h.results frame (mem_of_mem_extract hframe)

theorem Thread.Keyed.raise (h : t.Keyed) (ws : List Window) (e : RuntimeError) :
    match t.raise ws e with
    | .ok t' => t'.Keyed
    | .error (_, t') => t'.Keyed := by
  induction ws generalizing t e with
  | nil =>
    cases hh : t.handler with
    | none =>
      simp only [Thread.raise, hh]
      exact h
    | some handler =>
      simp only [Thread.raise, hh]
      exact h.enterHandler handler e
  | cons w outer ih =>
    cases hh : t.handler with
    | none =>
      simp only [Thread.raise, hh]
      exact ih (h.closeWindow w outer) _
    | some handler =>
      simp only [Thread.raise, hh]
      exact h.enterHandler handler e

/-- The values that are left after a step. -/
def Outcome.Keyed : Outcome → Prop
  | .running s => s.Keyed
  | .finished v s => v.Keyed ∧ s.Keyed
  | .failed _ s => s.Keyed

theorem step_keyed (hnatives : host.KeepsKeys) {s : State} (h : s.Keyed) :
    (step host s).Keyed := by
  have hinstruction := instruction_keyed hnatives s h
  simp only [step]
  cases hr : instruction host s with
  | ok r s' =>
    rw [hr] at hinstruction
    obtain ⟨hv, hs'⟩ := hinstruction
    cases r with
    | none => exact hs'
    | some v =>
      cases hw : s'.thread.windows with
      | nil =>
        simp only [hw]
        exact ⟨hv v rfl, hs'⟩
      | cons window outer =>
        simp only [hw]
        exact ⟨hs'.thread.closeWindow window outer, hs'.world⟩
  | error e s' =>
    rw [hr] at hinstruction
    have hraise := hinstruction.thread.raise s'.thread.windows e
    cases hr : s'.thread.raise s'.thread.windows e with
    | ok t' =>
      rw [hr] at hraise
      simp only [hr]
      exact ⟨hraise, hinstruction.world⟩
    | error failure =>
      rw [hr] at hraise
      simp only [hr]
      exact ⟨hraise, hinstruction.world⟩

/-- A run from keyed values on ends with keyed values, and gives one. -/
theorem run_keyed (hnatives : host.KeepsKeys) (fuel : Nat) {s s' : State}
    {r : Except RuntimeError Value} (h : s.Keyed) (hrun : run host fuel s = some (r, s')) :
    s'.Keyed ∧ ∀ v, r = .ok v → v.Keyed := by
  induction fuel generalizing s with
  | zero => cases hrun
  | succ fuel ih =>
    have hstep := step_keyed hnatives h
    rw [run] at hrun
    cases hs : step host s with
    | running s₁ =>
      rw [hs] at hrun hstep
      exact ih hstep hrun
    | finished v s₁ =>
      rw [hs] at hrun hstep
      cases hrun
      exact ⟨hstep.2, fun u hu => Except.ok.inj hu ▸ hstep.1⟩
    | failed e s₁ =>
      rw [hs] at hrun hstep
      cases hrun
      exact ⟨hstep, fun u hu => by cases hu⟩

end

end DotScript.Machine
