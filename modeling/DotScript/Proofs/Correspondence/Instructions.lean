import DotScript.Proofs.Correspondence.States
import DotScript.Proofs.Machine.Instruction

/-!
# Instructions at corresponding places

Where two machines stand at corresponding places and the instructions there have the same opcode and
operands that mean the same, carrying them out leads to corresponding places again, or fails on both
sides with the same message.

* `Both C P x y Q`: run in states related by `P`, two computations end alike, in states related by
  `Q`, or fail alike;
* `Operand`: the operands of two instructions mean the same;
* `execute_both`: the same opcode with operands that mean the same does the same.
-/

namespace DotScript.Machine

open DotScript.Bytecode

variable (C : Correspondence)

/-! ## Computations that do the same -/

/-- Two results, or the same failure in states that correspond. -/
inductive ResultAlike {α β : Type} (Q : α → β → State → State → Prop) :
    EStateM.Result RuntimeError State α → EStateM.Result RuntimeError State β → Prop
  | ok {v v' s s'} (h : Q v v' s s') : ResultAlike Q (.ok v s) (.ok v' s')
  | error (e : RuntimeError) {s s'} (h : s.Like C s') : ResultAlike Q (.error e s) (.error e s')

/-- Two computations that do the same. -/
def Both {α β : Type} (P : State → State → Prop) (x : Exec α) (y : Exec β)
    (Q : α → β → State → State → Prop) : Prop :=
  ∀ s s', P s s' → ResultAlike C Q (x s) (y s')

/-- States that correspond, of threads that stand at given places. -/
structure Here (i : Image) (a : Nat) (j : Image) (b : Nat) (s s' : State) : Prop where
  like : s.Like C s'
  image : s.thread.image = i
  ip : s.thread.ip = a
  image' : s'.thread.image = j
  ip' : s'.thread.ip = b

/-- Two threads have loaded the unit with which a correspondence ends. -/
def Thread.Leaves (t t' : Thread) : Prop :=
  ∃ n, C.fresh t'.id n ∧ ¬ C.fresh t'.id (n + 1) ∧ t.loaded = n + 1 + C.lead t'.id ∧
    t'.loaded = n + 1

/-- The end of an instruction: the thread goes on at corresponding places, or it returns a value. -/
inductive Onward : Option Value → Option Value → State → State → Prop
  | goes {s s'} (h : s.Like C s') (hplace : s.thread.AtPlace C s'.thread) : Onward none none s s'
  | leaves {s s'} (h : s.thread.Leaves C s'.thread) : Onward none none s s'
  | returns {v v' s s'} (hv : v.Like C.function v') (h : s.Like C s') :
    Onward (some v) (some v') s s'

/-! ## Operands -/

/-- Counts, slots and indices at two addresses are the same. -/
def IndexAlike (i : Image) (a : Nat) (j : Image) (b : Nat) : Prop :=
  Both C (Here C i a j b) readIndex readIndex
    (fun n n' s s' => n = n' ∧ Here C i (a + 1) j (b + 1) s s') ∧ C.place i (a + 1) j (b + 1)

/-- Constants at two addresses are the same, but for functions. -/
def ConstantAlike (i : Image) (a : Nat) (j : Image) (b : Nat) : Prop :=
  Both C (Here C i a j b) readConstant readConstant
    (fun k k' s s' => (constantValue i k.2).Like C.function (constantValue j k'.2) ∧
      Here C i (a + 1) j (b + 1) s s') ∧ C.place i (a + 1) j (b + 1)

/-- Names at two addresses are the same. -/
def NameAlike (i : Image) (a : Nat) (j : Image) (b : Nat) : Prop :=
  Both C (Here C i a j b) readName readName
    (fun name name' s s' => name = name' ∧ Here C i (a + 1) j (b + 1) s s') ∧
      C.place i (a + 1) j (b + 1)

/-- Distances at two addresses lead to corresponding places. -/
def TargetAlike (i : Image) (a : Nat) (j : Image) (b : Nat) : Prop :=
  Both C (Here C i a j b) readOperand readOperand
    fun w w' s s' => Both C (Here C i (a + 1) j (b + 1)) (jumpTarget w) (jumpTarget w')
        (fun t t' s s' => C.place i t j t' ∧ Here C i (a + 1) j (b + 1) s s') ∧
      Here C i (a + 1) j (b + 1) s s'

/-- The operands of two instructions mean the same. The addresses are those behind the opcodes. -/
def Operand (i : Image) (a : Nat) (j : Image) (b : Nat) (op : Opcode) : Prop :=
  match op with
  | .constant => ConstantAlike C i a j b
  | .getGlobal | .setGlobal | .classDef | .method | .getProperty | .setProperty =>
    NameAlike C i a j b
  | .getLocal | .setLocal | .call | .spawn | .buildList | .buildMap => IndexAlike C i a j b
  | .jump => TargetAlike C i a j b
  | .jumpIfFalse | .tryEnter => TargetAlike C i a j b ∧ C.place i (a + 1) j (b + 1)
  | .ret => True
  | _ => C.place i a j b

/-- The same instruction stands at two addresses, or none does. -/
inductive Meets (i : Image) (a : Nat) (j : Image) (b : Nat) : Prop
  | off (h : i.chunk.code[a]? = none) (h' : j.chunk.code[b]? = none)
  | invalid {w} (h : i.chunk.code[a]? = some w) (h' : j.chunk.code[b]? = some w)
    (hw : Opcode.decode? w = none) (hab : a = b)
  | op {w w' op} (h : i.chunk.code[a]? = some w) (h' : j.chunk.code[b]? = some w')
    (hw : Opcode.decode? w = some op) (hw' : Opcode.decode? w' = some op)
    (hoperand : Operand C i (a + 1) j (b + 1) op)

variable {C}

section
variable {α β γ δ : Type} {P P' : State → State → Prop} {x : Exec α} {y : Exec β}
  {Q Q' : α → β → State → State → Prop} {f : α → Exec γ} {g : β → Exec δ}
  {R : γ → δ → State → State → Prop}

namespace Both

theorem bind (hx : Both C P x y Q) (hf : ∀ v v', Both C (Q v v') (f v) (g v') R) :
    Both C P (x >>= f) (y >>= g) R := by
  intro s s' h
  have hxy := hx s s' h
  rw [bind_apply, bind_apply]
  generalize x s = r at hxy
  generalize y s' = r' at hxy
  cases hxy with
  | ok hQ => exact hf _ _ _ _ hQ
  | error e hs => exact .error e hs

theorem pure {v : α} {v' : β} (h : ∀ s s', P s s' → Q v v' s s') :
    Both C P (pure v) (pure v') Q :=
  fun s s' hs => .ok (h s s' hs)

theorem throw (e : RuntimeError) (h : ∀ s s', P s s' → s.Like C s') :
    Both C P (throw e : Exec α) (throw e : Exec β) Q :=
  fun s s' hs => .error e (h s s' hs)

/-- What follows a failure does not matter. -/
theorem fails (e : RuntimeError) (h : ∀ s s', P s s' → s.Like C s') :
    Both C P ((MonadExcept.throw e : Exec α) >>= f) ((MonadExcept.throw e : Exec β) >>= g) R :=
  fun s s' hs => .error e (h s s' hs)

theorem imp (hx : Both C P x y Q) (hQ : ∀ v v' s s', Q v v' s s' → Q' v v' s s') :
    Both C P x y Q' := by
  intro s s' hs
  have hxy := hx s s' hs
  generalize x s = r at hxy
  generalize y s' = r' at hxy
  cases hxy with
  | ok h => exact .ok (hQ _ _ _ _ h)
  | error e h => exact .error e h

/-- What is known apart from the states. -/
theorem extract {p : Prop} (h : p → Both C P x y Q) : Both C (fun s s' => p ∧ P s s') x y Q :=
  fun s s' hs => h hs.1 s s' hs.2

theorem discard (h : Both C P x y Q) :
    Both C P (discard x) (discard y) (fun _ _ s s' => ∃ v v', Q v v' s s') := by
  intro s s' hs
  have hxy := h s s' hs
  change ResultAlike C _ (EStateM.map _ x s) (EStateM.map _ y s')
  simp only [EStateM.map]
  generalize x s = r at hxy
  generalize y s' = r' at hxy
  cases hxy with
  | ok hQ => exact .ok ⟨_, _, hQ⟩
  | error e hs => exact .error e hs

end Both

end

section
variable {i j : Image} {a b : Nat} {limits : Limits} {host : Host} {s s' : State}

/-! ## Changes that both sides make -/

namespace Here

theorem stack (h : Here C i a j b s s') {st st' : Array Value}
    (hst : Pairs (Value.Like C.function) st st') :
    Here C i a j b { s with thread := { s.thread with stack := st } }
      { s' with thread := { s'.thread with stack := st' } } :=
  ⟨⟨{ h.like.thread with stack := hst }, h.like.world⟩, h.image, h.ip, h.image', h.ip'⟩

theorem ip_succ (h : Here C i a j b s s') :
    Here C i (a + 1) j (b + 1) { s with thread := { s.thread with ip := s.thread.ip + 1 } }
      { s' with thread := { s'.thread with ip := s'.thread.ip + 1 } } :=
  ⟨⟨{ h.like.thread with }, h.like.world⟩, h.image, congrArg (· + 1) h.ip, h.image',
    congrArg (· + 1) h.ip'⟩

theorem jump (h : Here C i a j b s s') (a' b' : Nat) :
    Here C i a' j b' { s with thread := { s.thread with ip := a' } }
      { s' with thread := { s'.thread with ip := b' } } :=
  ⟨⟨{ h.like.thread with }, h.like.world⟩, h.image, rfl, h.image', rfl⟩

theorem globals (h : Here C i a j b s s') {g g' : Table String Value}
    (hg : g.Related (Value.Like C.function) g') :
    Here C i a j b { s with thread := { s.thread with globals := g } }
      { s' with thread := { s'.thread with globals := g' } } :=
  ⟨⟨{ h.like.thread with globals := hg }, h.like.world⟩, h.image, h.ip, h.image', h.ip'⟩

theorem handler (h : Here C i a j b s s') {o o' : Option Handler}
    (ho : Option.Rel (Handler.Like C) o o') :
    Here C i a j b { s with thread := { s.thread with handler := o } }
      { s' with thread := { s'.thread with handler := o' } } :=
  ⟨⟨{ h.like.thread with handler := ho }, h.like.world⟩, h.image, h.ip, h.image', h.ip'⟩

theorem world (h : Here C i a j b s s') {w w' : World} (hw : w.Like C w') :
    Here C i a j b { s with world := w } { s' with world := w' } :=
  ⟨⟨h.like.thread, hw⟩, h.image, h.ip, h.image', h.ip'⟩

theorem next (h : Here C i a j b s s') (hplace : C.place i a j b) : Onward C none none s s' := by
  refine .goes h.like ?_
  rw [Thread.AtPlace, h.image, h.ip, h.image', h.ip']
  exact hplace

end Here

/-! ## The operand stack -/

theorem push_both {v v' : Value} (hv : v.Like C.function v') :
    Both C (Here C i a j b) (push limits v) (push limits v') (fun _ _ => Here C i a j b) := by
  intro s s' h
  rw [push_apply, push_apply, h.like.thread.stack.size_eq]
  split
  · exact .error _ h.like
  · exact .ok (h.stack (h.like.thread.stack.push hv))

/-- Most instructions end by pushing their result. -/
theorem pushed_both {v v' : Value} (hv : v.Like C.function v') (hplace : C.place i a j b) :
    Both C (Here C i a j b) (do push limits v; return none) (do push limits v'; return none)
      (Onward C) :=
  (push_both hv).bind fun _ _ => .pure fun _ _ h => h.next hplace

theorem pop_both : Both C (Here C i a j b) pop pop
    (fun v v' s s' => v.Like C.function v' ∧ Here C i a j b s s') := by
  intro s s' h
  simp only [pop, bind_apply, thread_apply]
  obtain ⟨ho, ho'⟩ | ⟨v, v', ho, ho', hv⟩ := rel_cases h.like.thread.stack.back?
  · rw [ho, ho']
    exact .error _ h.like
  · rw [ho, ho']
    exact .ok ⟨hv, h.stack h.like.thread.stack.pop⟩

theorem top_both : Both C (Here C i a j b) top top
    (fun v v' s s' => v.Like C.function v' ∧ Here C i a j b s s') := by
  intro s s' h
  simp only [top, bind_apply, thread_apply]
  obtain ⟨ho, ho'⟩ | ⟨v, v', ho, ho', hv⟩ := rel_cases h.like.thread.stack.back?
  · rw [ho, ho']
    exact .error _ h.like
  · rw [ho, ho']
    exact .ok ⟨hv, h⟩

theorem popMany_both (n : Nat) : Both C (Here C i a j b) (popMany n) (popMany n)
    (fun vs vs' s s' => ItemsLike C.function vs vs' ∧ Here C i a j b s s') := by
  intro s s' h
  have hst := h.like.thread.stack
  simp only [popMany, bind_apply, thread_apply, hst.size_eq]
  split
  · exact .error _ h.like
  · exact .ok ⟨itemsLike_iff.mpr (hst.drop _), h.stack (hst.take _)⟩

/-- What is read of the thread and the world agrees. -/
theorem thread_both : Both C (Here C i a j b) thread thread
    (fun t t' s s' => (t.Like C t' ∧ t.image = i ∧ t'.image = j) ∧ Here C i a j b s s') :=
  fun _ _ h => .ok ⟨⟨h.like.thread, h.image, h.image'⟩, h⟩

theorem world_both : Both C (Here C i a j b) world world
    (fun w w' s s' => w.Like C w' ∧ Here C i a j b s s') :=
  fun _ _ h => .ok ⟨h.like.world, h⟩

theorem updateWorld_both {f g : World → World}
    (h : ∀ {w w' : World}, w.Like C w' → (f w).Like C (g w')) :
    Both C (Here C i a j b) (updateWorld f) (updateWorld g) (fun _ _ => Here C i a j b) :=
  fun _ _ hs => .ok (hs.world (h hs.like.world))

/-! ## Calls -/

theorem enterFunction_apply (f : Function) (slot : Nat) (result : Option Value) (s : State) :
    enterFunction limits f slot result s =
      if limits.frames ≤ s.thread.frames.size then .error .stackOverflow s
      else
        .ok ()
          { s with
            thread :=
              { s.thread with
                frames := s.thread.frames.push
                  ⟨s.thread.image, s.thread.ip, s.thread.base, s.thread.handler, result⟩
                image := f.image
                ip := f.entry
                base := slot + 1 } } := by
  simp only [enterFunction, bind_apply, thread_apply]
  split <;> rfl

/-- A thread enters a function at its beginning. -/
theorem enterFunction_both (hS : C.Sound) {f g : Function} (hfg : C.function f g) (slot : Nat)
    {result result' : Option Value} (hresult : Option.Rel (Value.Like C.function) result result')
    (hplace : C.place i a j b) :
    Both C (Here C i a j b) (do enterFunction limits f slot result; return none)
      (do enterFunction limits g slot result'; return none) (Onward C) := by
  intro s s' h
  have hlike := h.like.thread
  rw [bind_apply, bind_apply, enterFunction_apply, enterFunction_apply, hlike.frames.size_eq]
  by_cases hfull : limits.frames ≤ s'.thread.frames.size
  · simp only [if_pos hfull]
    exact .error _ h.like
  · simp only [if_neg hfull]
    have hframe : Frame.Like C ⟨s.thread.image, s.thread.ip, s.thread.base, s.thread.handler, result⟩
        ⟨s'.thread.image, s'.thread.ip, s'.thread.base, s'.thread.handler, result'⟩ := by
      refine ⟨?_, hlike.base, hlike.handler, hresult⟩
      simp only [h.image, h.ip, h.image', h.ip']
      exact hplace
    exact .ok (.goes ⟨{ hlike with frames := hlike.frames.push hframe, base := rfl }, h.like.world⟩
      (hS.entry hfg))

theorem checkArity_both (hS : C.Sound) {f g : Function} (hfg : C.function f g) (argc : Nat) :
    Both C (Here C i a j b) (checkArity f argc) (checkArity g argc) (fun _ _ => Here C i a j b) := by
  intro s s' h
  simp only [checkArity, hS.functions.arity hfg, hS.functions.name hfg]
  split
  · exact .error _ h.like
  · exact .ok h

theorem bindReceiver_both (slot : Nat) {f g : Function} (hfg : C.function f g) (r : InstanceRef) :
    Both C (Here C i a j b) (bindReceiver limits slot f r) (bindReceiver limits slot g r)
      (fun _ _ => Here C i a j b) := by
  intro s s' h
  have hst := h.like.thread.stack
  simp only [bindReceiver, bind_apply, thread_apply, hst.size_eq]
  split
  · exact .error _ h.like
  · refine .ok (h.stack (((hst.take slot).append ?_).append (hst.drop (slot + 1))))
    exact .cons (.function hfg) (.cons (.inst r) .nil)

theorem callNative_both (hhost : host.Respects C) (n : Native) {vs vs' : List Value}
    (h : ItemsLike C.function vs vs') :
    Both C (Here C i a j b) (callNative host n vs) (callNative host n vs')
      (fun v v' s s' => v.Like C.function v' ∧ Here C i a j b s s') := by
  intro s s' hs
  obtain ⟨hresult, hworld⟩ := hhost n.builtin h hs.like.world
  rw [callNative_apply, callNative_apply]
  rcases hcall : host.call n.builtin vs s.world with ⟨_ | v, w⟩ <;>
    rcases hcall' : host.call n.builtin vs' s'.world with ⟨_ | v', w'⟩
  all_goals rw [hcall, hcall'] at hresult hworld
  · cases hresult
    exact .error _ (hs.world hworld).like
  · cases hresult
  · cases hresult
  · exact .ok ⟨hresult, hs.world hworld⟩

/-- A method takes its receiver and is entered. -/
theorem enterMethod_both (hS : C.Sound) {f g : Function} (hfg : C.function f g) (argc slot : Nat)
    (r : InstanceRef) {result result' : Option Value}
    (hresult : Option.Rel (Value.Like C.function) result result') (hplace : C.place i a j b) :
    Both C (Here C i a j b)
      (do checkArity f argc; bindReceiver limits slot f r; enterFunction limits f slot result
          return none)
      (do checkArity g argc; bindReceiver limits slot g r; enterFunction limits g slot result'
          return none) (Onward C) :=
  (checkArity_both hS hfg argc).bind fun _ _ =>
    (bindReceiver_both slot hfg r).bind fun _ _ => enterFunction_both hS hfg slot hresult hplace

theorem updateStack_both {f : Array Value → Array Value}
    (hf : ∀ {xs ys}, Pairs (Value.Like C.function) xs ys →
      Pairs (Value.Like C.function) (f xs) (f ys)) :
    Both C (Here C i a j b) (updateStack f) (updateStack f) (fun _ _ => Here C i a j b) :=
  fun _ _ h => .ok (h.stack (hf h.like.thread.stack))

theorem callValue_both (hS : C.Sound) (hhost : host.Respects C) (argc : Nat)
    (hplace : C.place i a j b) :
    Both C (Here C i a j b) (do callValue host argc; return none)
      (do callValue host argc; return none) (Onward C) := by
  simp only [callValue, bind_assoc]
  refine thread_both.bind fun t t' => .extract fun h => ?_
  have hst := h.1.stack
  rw [hst.size_eq]
  by_cases hsize : t'.stack.size < argc + 1
  · simp only [hsize, if_true]
    exact .fails _ fun _ _ h => h.like
  simp only [hsize, if_false]
  have hcallee : (t.stack.getD (t'.stack.size - (argc + 1)) .null).Like C.function
      (t'.stack.getD (t'.stack.size - (argc + 1)) .null) := by
    rw [Array.getD_eq_getD_getElem?, Array.getD_eq_getD_getElem?]
    obtain ⟨ho, ho'⟩ | ⟨v, v', ho, ho', hv⟩ :=
      rel_cases (hst.getElem? (t'.stack.size - (argc + 1)))
    · rw [ho, ho']
      exact .null
    · rw [ho, ho']
      exact hv
  generalize t.stack.getD (t'.stack.size - (argc + 1)) .null = callee at hcallee
  generalize t'.stack.getD (t'.stack.size - (argc + 1)) .null = callee' at hcallee
  cases hcallee with
  | function h =>
    simp only [bind_assoc]
    exact (checkArity_both hS h argc).bind fun _ _ => enterFunction_both hS h _ .none hplace
  | bound r h =>
    simp only [bind_assoc]
    exact enterMethod_both hS h argc _ r .none hplace
  | native n =>
    simp only [bind_assoc]
    refine (updateStack_both fun h => h.take _).bind fun _ _ => ?_
    refine (callNative_both hhost n (itemsLike_iff.mpr (hst.drop _))).bind fun v v' =>
      .extract fun hv => ?_
    exact pushed_both hv hplace
  | classRef c =>
    simp only [bind_assoc]
    refine world_both.bind fun w w' => .extract fun hw => ?_
    obtain ⟨hinst, hheap⟩ := hw.heap.newInstance c
    rw [hinst]
    refine (updateWorld_both ?_).bind fun _ _ => ?_
    · exact fun hw => { hw with heap := hheap }
    obtain ⟨ho, ho'⟩ | ⟨f, g, ho, ho', hfg⟩ := rel_cases (hheap.method? c "init")
    · simp only [ho, ho', bind_assoc]
      exact (updateStack_both fun h => h.take _).bind fun _ _ => pushed_both (.inst _) hplace
    · simp only [ho, ho', bind_assoc]
      exact enterMethod_both hS hfg argc _ _ (.some (.inst _)) hplace
  | _ => exact .fails _ fun _ _ h => h.like

/-- A return goes on in the caller, where that call was made. -/
theorem doReturn_both {v v' : Value} (hv : v.Like C.function v') {s s' : State} (h : s.Like C s') :
    ResultAlike C (Onward C) (doReturn host v s) (doReturn host v' s') := by
  obtain ⟨t, w⟩ := s
  obtain ⟨t', w'⟩ := s'
  have ht := h.thread
  have hfloor : t.floor = t'.floor := by
    have hwindows := ht.windows
    simp only [Thread.floor]
    generalize t.windows = ws at hwindows
    generalize t'.windows = ws' at hwindows
    cases hwindows with
    | nil => rfl
    | cons hw _ => exact hw.depth
  have hframes := ht.frames
  simp only [doReturn, bind_apply, thread_apply, hfloor, hframes.size_eq]
  by_cases hout : t'.frames.size ≤ t'.floor
  · simp only [hout, if_true]
    exact .ok (.returns hv h)
  simp only [hout, if_false]
  obtain ⟨ho, ho'⟩ | ⟨frame, frame', ho, ho', hframe⟩ := rel_cases hframes.back?
  · rw [ho, ho']
    exact .ok (.returns hv h)
  · rw [ho, ho']
    have hvalue : (frame.result.getD v).Like C.function (frame'.result.getD v') := by
      obtain ⟨hr, hr'⟩ | ⟨u, u', hr, hr', hu⟩ := rel_cases hframe.result
      · rw [hr, hr']
        exact hv
      · rw [hr, hr']
        exact hu
    have hthread : Thread.Like C
        { t with
          frames := t.frames.pop
          stack := t.stack.take (t.base - 1)
          image := frame.image
          ip := frame.ip
          base := frame.base
          handler := frame.handler }
        { t' with
          frames := t'.frames.pop
          stack := t'.stack.take (t'.base - 1)
          image := frame'.image
          ip := frame'.ip
          base := frame'.base
          handler := frame'.handler } := by
      refine { ht with
        frames := hframes.pop
        stack := ?_
        base := hframe.base
        handler := hframe.handler }
      rw [ht.base]
      exact ht.stack.take _
    exact pushed_both hvalue hframe.place _ _ ⟨⟨hthread, h.world⟩, rfl, rfl, rfl, rfl⟩

/-! ## Imports and spawned calls -/

/-- A module is the same unit on both sides, unless the correspondence ends with it. -/
theorem beginImport_both (hS : C.Sound) (path : String) (hplace : C.place i a j b) :
    Both C (Here C i a j b) (do beginImport host path; return none)
      (do beginImport host path; return none) (Onward C) := by
  rintro ⟨t, w⟩ ⟨t', w'⟩ h
  have ht : t.Like C t' := h.like.thread
  have hplace' : C.place t.image t.ip t'.image t'.ip := h.image ▸ h.ip ▸ h.image' ▸ h.ip' ▸ hplace
  rw [beginImport_then_none, beginImport_then_none, ← h.like.world.files, ← ht.imports]
  cases host.loader with
  | none => exact .error _ h.like
  | some load =>
    by_cases hdeep : host.limits.imports ≤ t.imports
    · simp only [hdeep, if_true]
      exact .error _ h.like
    simp only [hdeep, if_false]
    cases load w.files path with
    | error message => exact .error _ h.like
    | ok chunk =>
      have hwindow : Window.Like C
          ⟨path, t.frames.size, t.stack.size, t.image, t.ip, t.base, t.handler⟩
          ⟨path, t'.frames.size, t'.stack.size, t'.image, t'.ip, t'.base, t'.handler⟩ :=
        ⟨rfl, ht.frames.size_eq, ht.stack.size_eq, hplace', ht.base, ht.handler⟩
      by_cases hnext : C.fresh t'.id (t'.loaded + 1)
      case neg =>
        have hloaded : t.loaded + 1 = t'.loaded + 1 + C.lead t'.id := by
          rw [ht.loaded, Nat.add_right_comm]
        exact .ok (.leaves ⟨t'.loaded, ht.fresh, hnext, hloaded, rfl⟩)
      have hload : C.place ⟨⟨t.id, t.loaded⟩, chunk⟩ 0 ⟨⟨t'.id, t'.loaded⟩, chunk⟩ 0 := by
        rw [ht.id, ht.loaded]
        exact hS.load ht.fresh hnext chunk
      refine .ok (.goes ⟨{ ht with
        windows := .cons hwindow ht.windows
        imports := rfl
        loaded := ?_
        fresh := hnext
        base := ht.stack.size_eq
        handler := .none }, h.like.world⟩ ?_)
      · have hloaded := ht.loaded
        dsimp only
        omega
      · exact hload

/-- The threads of spawned calls that correspond begin at corresponding places. -/
theorem Job.Like.thread (hS : C.Sound) {job : Job} {t' : Thread} (h : job.Like C (.script t')) :
    ∃ t, job = .script t ∧ t.Like C t' ∧ t.AtPlace C t' := by
  cases h with
  | @script t t' f g vs vs' n id spawned fresh globals function slots =>
    refine ⟨t.child f vs, rfl, ?_, hS.entry function⟩
    exact {
      id := by simp only [Thread.child, spawned, id]
      globals
      stack := itemsLike_iff.mp slots
      frames := .empty
      base := rfl
      handler := .none
      windows := .nil
      imports := rfl
      loaded := by simp only [Thread.child, (hS.child fresh _).2]
      spawned := rfl
      fresh := (hS.child fresh _).1 }

theorem jobOf_like (hS : C.Sound) {t t' : Thread} (ht : t.Like C t') {v v' : Value}
    (hv : v.Like C.function v') {vs vs' : List Value} (hvs : ItemsLike C.function vs vs') :
    ResultLike (Job.Like C) (jobOf t v vs) (jobOf t' v' vs') := by
  have hlength : vs.length = vs'.length := (itemsLike_iff.mp hvs).length_eq
  cases hv with
  | native n => exact .native n hvs
  | function h =>
    simp only [jobOf, hlength, hS.functions.arity h, hS.functions.name h]
    split
    · rfl
    · exact .script ht.id ht.spawned ht.fresh ht.globals h hvs
  | bound r h =>
    simp only [jobOf, hlength, hS.functions.arity h, hS.functions.name h]
    split
    · rfl
    · exact .script ht.id ht.spawned ht.fresh ht.globals h (.cons (.inst r) hvs)
  | _ => rfl

theorem spawnCall_both (hS : C.Sound) (argc : Nat) (hplace : C.place i a j b) :
    Both C (Here C i a j b) (do spawnCall host argc; return none)
      (do spawnCall host argc; return none) (Onward C) := by
  simp only [spawnCall, bind_assoc]
  refine (popMany_both argc).bind fun args args' => .extract fun hargs => ?_
  refine pop_both.bind fun callee callee' => .extract fun hcallee => ?_
  refine Both.bind (Q := fun job job' s s' => job.Like C job' ∧ Here C i a j b s s') ?_
    fun job job' => .extract fun hjob => ?_
  · intro s s' h
    rw [spawnJob_apply, spawnJob_apply]
    obtain ⟨e, hr, hr'⟩ | ⟨job, job', hr, hr', hjob⟩ :=
      (jobOf_like hS h.like.thread hcallee hargs).cases
    · rw [hr, hr']
      exact .error _ h.like
    · rw [hr, hr']
      exact .ok ⟨hjob, h⟩
  · refine Both.bind (Q := fun _ _ => Here C i a j b) (fun s s' h => ?_) fun _ _ => ?_
    · exact .ok ⟨⟨{ h.like.thread with spawned := congrArg (· + 1) h.like.thread.spawned },
        h.like.world⟩, h.image, h.ip, h.image', h.ip'⟩
    · refine (updateWorld_both ?_).bind fun _ _ => pushed_both .null hplace
      intro w w' hw
      refine { hw with threads := ?_, pending := ?_ }
      · simp only [hw.threads]
        omega
      · exact List.rel_append hw.pending (.cons ⟨hw.threads, hjob⟩ .nil)

/-! ## Operators -/

theorem binary_both {f : Value → Value → Except RuntimeError Value}
    (hf : ∀ {v v' u u'}, v.Like C.function v' → u.Like C.function u' →
      ResultLike (Value.Like C.function) (f v u) (f v' u'))
    (hplace : C.place i a j b) :
    Both C (Here C i a j b) (do binary host f; return none) (do binary host f; return none)
      (Onward C) := by
  simp only [binary, bind_assoc]
  refine pop_both.bind fun u u' => .extract fun hu => ?_
  refine pop_both.bind fun v v' => .extract fun hv => ?_
  obtain ⟨e, hr, hr'⟩ | ⟨x, x', hr, hr', hx⟩ := (hf hv hu).cases
  · rw [hr, hr']
    exact .fails _ fun _ _ h => h.like
  · rw [hr, hr']
    exact pushed_both hx hplace

/-! ## Dispatch -/

theorem getGlobal_both (h : NameAlike C i a j b) :
    Both C (Here C i a j b) (execute host .getGlobal) (execute host .getGlobal) (Onward C) := by
  refine h.1.bind fun name name' => .extract fun hname => ?_
  subst hname
  refine thread_both.bind fun t t' => .extract fun ht => ?_
  obtain ⟨ho, ho'⟩ | ⟨v, v', ho, ho', hv⟩ := rel_cases (ht.1.globals.get? name)
  · rw [ho, ho']
    exact .fails _ fun _ _ h => h.like
  · rw [ho, ho']
    exact pushed_both hv h.2

theorem setGlobal_both (h : NameAlike C i a j b) :
    Both C (Here C i a j b) (execute host .setGlobal) (execute host .setGlobal) (Onward C) := by
  refine h.1.bind fun name name' => .extract fun hname => ?_
  subst hname
  refine top_both.bind fun v v' => .extract fun hv => ?_
  refine Both.bind (Q := fun _ _ => Here C i (a + 1) j (b + 1)) (fun s s' hs => ?_)
    fun _ _ => .pure fun _ _ hs => hs.next h.2
  exact .ok (hs.globals (hs.like.thread.globals.insert name hv))

theorem getLocal_both (h : IndexAlike C i a j b) :
    Both C (Here C i a j b) (execute host .getLocal) (execute host .getLocal) (Onward C) := by
  refine h.1.bind fun n n' => .extract fun hn => ?_
  subst hn
  refine thread_both.bind fun t t' => .extract fun ht => ?_
  obtain ⟨ho, ho'⟩ | ⟨v, v', ho, ho', hv⟩ := rel_cases (ht.1.stack.getElem? (t'.base + n))
  · rw [ht.1.base, ho, ho']
    exact .fails _ fun _ _ h => h.like
  · rw [ht.1.base, ho, ho']
    exact pushed_both hv h.2

theorem setLocal_both (h : IndexAlike C i a j b) :
    Both C (Here C i a j b) (execute host .setLocal) (execute host .setLocal) (Onward C) := by
  refine h.1.bind fun n n' => .extract fun hn => ?_
  subst hn
  refine top_both.bind fun v v' => .extract fun hv => ?_
  refine thread_both.bind fun t t' => .extract fun ht => ?_
  rw [ht.1.stack.size_eq, ht.1.base]
  by_cases hsize : t'.stack.size ≤ t'.base + n
  · simp only [hsize, if_true]
    exact .fails _ fun _ _ h => h.like
  · simp only [hsize, if_false]
    refine Both.bind (Q := fun _ _ => Here C i (a + 1) j (b + 1)) (fun s s' hs => ?_)
      fun _ _ => .pure fun _ _ hs => hs.next h.2
    exact .ok (hs.stack (hs.like.thread.stack.setIfInBounds _ hv))

theorem jumpTo_both {k : Nat} {k' : Nat} (hplace : C.place i k j k') :
    Both C (Here C i a j b) (do jumpTo k; return none) (do jumpTo k'; return none) (Onward C) :=
  Both.bind (Q := fun _ _ => Here C i k j k') (fun _ _ hs => .ok (hs.jump k k'))
    fun _ _ => .pure fun _ _ hs => hs.next hplace

theorem jump_both (h : TargetAlike C i a j b) :
    Both C (Here C i a j b) (execute host .jump) (execute host .jump) (Onward C) := by
  refine h.bind fun w w' => .extract fun htarget => ?_
  exact htarget.bind fun t t' => .extract fun ht => jumpTo_both ht

theorem jumpIfFalse_both (h : TargetAlike C i a j b ∧ C.place i (a + 1) j (b + 1)) :
    Both C (Here C i a j b) (execute host .jumpIfFalse) (execute host .jumpIfFalse) (Onward C) := by
  refine h.1.bind fun w w' => .extract fun htarget => ?_
  refine pop_both.bind fun v v' => .extract fun hv => ?_
  rw [hv.isFalsey_eq]
  cases v'.isFalsey with
  | true =>
    simp only [if_true]
    exact htarget.bind fun t t' => .extract fun ht => jumpTo_both ht
  | false =>
    simp only [if_false, Bool.false_eq_true]
    exact .pure fun _ _ hs => hs.next h.2

theorem tryEnter_both (h : TargetAlike C i a j b ∧ C.place i (a + 1) j (b + 1)) :
    Both C (Here C i a j b) (execute host .tryEnter) (execute host .tryEnter) (Onward C) := by
  refine h.1.bind fun w w' => .extract fun htarget => ?_
  refine htarget.bind fun k k' => .extract fun hk => ?_
  refine Both.bind (Q := fun _ _ => Here C i (a + 1) j (b + 1)) (fun s s' hs => ?_)
    fun _ _ => .pure fun _ _ hs => hs.next h.2
  have ht := hs.like.thread
  refine .ok (hs.handler (.some ⟨?_, ht.base, ht.frames.size_eq, ht.stack.size_eq⟩))
  rw [hs.image, hs.image']
  exact hk

theorem buildMap_both (h : IndexAlike C i a j b) :
    Both C (Here C i a j b) (execute host .buildMap) (execute host .buildMap) (Onward C) := by
  refine h.1.bind fun n n' => .extract fun hn => ?_
  subst hn
  refine (popMany_both _).bind fun vs vs' => .extract fun hvs => ?_
  obtain ⟨e, hr, hr'⟩ | ⟨t, t', hr, hr', ht⟩ := (buildMap_like hvs .empty).cases
  · rw [hr, hr']
    exact .fails _ fun _ _ h => h.like
  · rw [hr, hr']
    exact pushed_both (.map (entriesLike_iff.mpr ht)) h.2

theorem method_both (h : NameAlike C i a j b) :
    Both C (Here C i a j b) (execute host .method) (execute host .method) (Onward C) := by
  refine h.1.bind fun name name' => .extract fun hname => ?_
  subst hname
  refine pop_both.bind fun v v' => .extract fun hv => ?_
  cases hv with
  | function hfg =>
    refine top_both.bind fun u u' => .extract fun hu => ?_
    cases hu with
    | classRef c =>
      refine (updateWorld_both ?_).bind fun _ _ => .pure fun _ _ hs => hs.next h.2
      exact fun hw => { hw with heap := hw.heap.addMethod c name hfg }
    | _ => exact .fails _ fun _ _ h => h.like
  | _ => exact .fails _ fun _ _ h => h.like

theorem classDef_both (h : NameAlike C i a j b) :
    Both C (Here C i a j b) (execute host .classDef) (execute host .classDef) (Onward C) := by
  refine h.1.bind fun name name' => .extract fun hname => ?_
  subst hname
  refine world_both.bind fun w w' => .extract fun hw => ?_
  obtain ⟨hclass, hheap⟩ := hw.heap.newClass name
  simp only
  rw [hclass]
  refine (updateWorld_both ?_).bind fun _ _ => ?_
  · exact fun hw => { hw with heap := hheap }
  refine Both.bind (Q := fun _ _ => Here C i (a + 1) j (b + 1)) (fun s s' hs => ?_)
    fun _ _ => pushed_both (.classRef _) h.2
  exact .ok (hs.globals (hs.like.thread.globals.insert name (.classRef _)))

theorem getProperty_both (h : NameAlike C i a j b) :
    Both C (Here C i a j b) (execute host .getProperty) (execute host .getProperty) (Onward C) := by
  refine h.1.bind fun name name' => .extract fun hname => ?_
  subst hname
  refine pop_both.bind fun v v' => .extract fun hv => ?_
  cases hv with
  | inst r =>
    refine world_both.bind fun w w' => .extract fun hw => ?_
    obtain ⟨e, hp, hp'⟩ | ⟨u, u', hp, hp', hu⟩ := (property_like hw.heap r name).cases
    · rw [hp, hp']
      exact .fails _ fun _ _ h => h.like
    · rw [hp, hp']
      exact pushed_both hu h.2
  | _ => exact .fails _ fun _ _ h => h.like

theorem setProperty_both (h : NameAlike C i a j b) :
    Both C (Here C i a j b) (execute host .setProperty) (execute host .setProperty) (Onward C) := by
  refine h.1.bind fun name name' => .extract fun hname => ?_
  subst hname
  refine pop_both.bind fun v v' => .extract fun hv => ?_
  refine pop_both.bind fun o o' => .extract fun ho => ?_
  cases ho with
  | inst r =>
    refine (updateWorld_both ?_).bind fun _ _ => pushed_both hv h.2
    exact fun hw => { hw with heap := hw.heap.setField r name hv }
  | _ => exact .fails _ fun _ _ h => h.like

/-- The same opcode with operands that mean the same does the same. -/
theorem execute_both (hS : C.Sound) (hhost : host.Respects C) {op : Opcode}
    (h : Operand C i a j b op) :
    Both C (Here C i a j b) (execute host op) (execute host op) (Onward C) := by
  have hF := hS.functions
  cases op with
  | ret =>
    exact pop_both.bind fun v v' => .extract fun hv _ _ hs => doReturn_both hv hs.like
  | constant =>
    refine h.1.bind fun k k' => .extract fun hk => ?_
    refine thread_both.bind fun t t' => .extract fun ht => ?_
    rw [ht.2.1, ht.2.2]
    exact pushed_both hk h.2
  | add => exact binary_both (addValues_like hF) h
  | subtract | multiply | divide => exact binary_both (onNumbers_like _ fun _ _ => .number _) h
  | less | greater | lessEqual | greaterEqual =>
    exact binary_both (onNumbers_like _ fun _ _ => .bool _) h
  | equal | notEqual =>
    refine binary_both (fun hv hu => ?_) h
    rw [hv.eq_eq hF hu]
    exact .bool _
  | negate =>
    refine pop_both.bind fun v v' => .extract fun hv => ?_
    cases hv with
    | number n => exact pushed_both (.number _) h
    | _ => exact .fails _ fun _ _ h => h.like
  | not =>
    refine pop_both.bind fun v v' => .extract fun hv => ?_
    rw [hv.isFalsey_eq]
    exact pushed_both (.bool _) h
  | print =>
    refine pop_both.bind fun v v' => .extract fun hv => ?_
    refine thread_both.bind fun t t' => .extract fun ht => ?_
    refine (updateWorld_both ?_).bind fun _ _ => .pure fun _ _ hs => hs.next h
    exact fun hw => { hw with printed := by rw [hw.printed, ht.1.id, hv.text_eq hF] }
  | pop =>
    exact pop_both.discard.bind fun _ _ => .pure fun _ _ ⟨_, _, _, hs⟩ => hs.next h
  | getGlobal => exact getGlobal_both h
  | setGlobal => exact setGlobal_both h
  | getLocal => exact getLocal_both h
  | setLocal => exact setLocal_both h
  | jumpIfFalse => exact jumpIfFalse_both h
  | jump => exact jump_both h
  | call =>
    refine h.1.bind fun n n' => .extract fun hn => ?_
    exact hn ▸ callValue_both hS hhost n h.2
  | spawn =>
    refine h.1.bind fun n n' => .extract fun hn => ?_
    exact hn ▸ spawnCall_both hS n h.2
  | buildList =>
    refine h.1.bind fun n n' => .extract fun hn => ?_
    subst hn
    exact (popMany_both n).bind fun vs vs' => .extract fun hvs => pushed_both (.list hvs) h.2
  | buildMap => exact buildMap_both h
  | importUnit =>
    refine pop_both.bind fun v v' => .extract fun hv => ?_
    rw [hv.text_eq hF]
    exact beginImport_both hS _ h
  | classDef => exact classDef_both h
  | method => exact method_both h
  | getProperty => exact getProperty_both h
  | setProperty => exact setProperty_both h
  | tryEnter => exact tryEnter_both h
  | tryExit =>
    exact Both.bind (Q := fun _ _ => Here C i a j b) (fun _ _ hs => .ok (hs.handler .none))
      fun _ _ => .pure fun _ _ hs => hs.next h

/-- Where the same instruction stands at the places of two threads, they do the same. -/
theorem instruction_both (hS : C.Sound) (hhost : host.Respects C) {s s' : State} (h : s.Like C s')
    (hmeets : Meets C s.thread.image s.thread.ip s'.thread.image s'.thread.ip) :
    ResultAlike C (Onward C) (instruction host s) (instruction host s') := by
  simp only [instruction, bind_apply, thread_apply]
  cases hmeets with
  | off h₁ h₂ =>
    rw [h₁, h₂]
    exact doReturn_both .null h
  | invalid h₁ h₂ hw hab =>
    rw [h₁, h₂]
    simp only [hw, hab]
    exact .error _ h
  | op h₁ h₂ hw hw' hoperand =>
    rw [h₁, h₂]
    simp only [hw, hw']
    have hs : Here C s.thread.image s.thread.ip s'.thread.image s'.thread.ip s s' :=
      ⟨h, rfl, rfl, rfl, rfl⟩
    exact execute_both hS hhost hoperand _ _ hs.ip_succ

end

end DotScript.Machine
