import DotScript.Proofs.Machine.Shift

/-!
# What a thread has gone through

A thread runs next to others, so between two of its steps the world may have become any other. Its
history is the list of its states since it began to run, the latest first.

* `Thread.Moves`, `History`: the steps of one thread, whatever its code is;
* `Thread.LiveIn`: the activation that a thread was running is still there;
* `Armed`: by which instruction of the history a handler was armed, and what the locals of its
  activation are by now.
-/

namespace DotScript.Machine

open DotScript.Bytecode DotScript.Compile

/-! ## Steps of one thread -/

/-- A step of a thread, in some world. -/
def Thread.Moves (host : Host) (t t' : Thread) : Prop :=
  ∃ w w', step host ⟨t, w⟩ = .running ⟨t', w'⟩

/-- No call and no import is in progress, and no handler is armed. -/
structure Thread.Fresh (t : Thread) : Prop where
  frames : t.frames = #[]
  windows : t.windows = []
  imports : t.imports = 0
  handler : t.handler = none

/-- An idle thread is fresh when it begins to run a chunk. -/
theorem Thread.Fresh.start {t : Thread} (hwindows : t.windows = []) (himports : t.imports = 0)
    (c : Chunk) : (t.start c).Fresh :=
  ⟨rfl, hwindows, himports, rfl⟩

/-- The states of a thread since it began to run, the latest first. -/
inductive History (host : Host) : List Thread → Prop
  | begin {t} (fresh : t.Fresh) : History host [t]
  | next {t t' past} (before : History host (t :: past)) (moves : t.Moves host t') :
    History host (t' :: t :: past)

/-! ## Activations -/

/-- The activation that `u` runs is live on `t`: neither its frames nor its imports have gone. -/
structure Thread.LiveIn (u t : Thread) : Prop where
  frames : u.frames.toList <+: t.frames.toList
  windows : u.windows <:+ t.windows

theorem Thread.LiveIn.refl (t : Thread) : t.LiveIn t := ⟨List.prefix_refl _, List.suffix_refl _⟩

/-- A handler is armed, or saved in a frame or an import. -/
def Kept (frames : Array Frame) (handler : Option Handler) (windows : List Window) (h : Handler) :
    Prop :=
  handler = some h ∨ (∃ f ∈ frames, f.handler = some h) ∨ ∃ w ∈ windows, w.handler = some h

/-- A handler is armed on a thread, or saved in one of its frames or imports. -/
def Thread.Keeps (t : Thread) (h : Handler) : Prop := Kept t.frames t.handler t.windows h

/-! ## Locals -/

/-- The assignment that the next instruction makes: the slot and the value. -/
def Thread.assignment? (t : Thread) : Option (Nat × Value) := do
  let word ← t.image.chunk.code[t.ip]?
  let operand ← t.image.chunk.code[t.ip + 1]?
  let v ← t.stack.back?
  if word = Opcode.setLocal.encode ∧ 0 ≤ operand.toInt then some (operand.toInt.toNat, v) else none

/-- What the next instruction makes of the locals of its activation. -/
def Thread.assign (t : Thread) (ls : List Value) : List Value :=
  match t.assignment? with
  | some (k, v) => ls.set k v
  | none => ls

section
variable {t : Thread} {ls : List Value}

theorem Thread.assign_of_instrAt {k : Nat} {v : Value}
    (h : InstrAt t.image.chunk t.ip .setLocal k) (hv : t.stack.back? = some v) (ls : List Value) :
    t.assign ls = ls.set k v := by
  obtain ⟨hop, operand, hoperand, hk⟩ := h
  simp only [OpAt] at hop
  have hassignment : t.assignment? = some (k, v) := by
    simp only [assignment?, hop, hoperand, hv, Option.bind_eq_bind, Option.bind_some, true_and]
    rw [hk, if_pos (Int.natCast_nonneg k), Int.toNat_natCast]
  simp only [assign, hassignment]

theorem Thread.assign_of_not_opAt (h : ¬ OpAt t.image.chunk t.ip .setLocal) (ls : List Value) :
    t.assign ls = ls := by
  have hnone : t.assignment? = none := by
    cases hr : t.assignment? with
    | none => rfl
    | some a =>
      simp only [assignment?, Option.bind_eq_bind, Option.bind_eq_some_iff] at hr
      obtain ⟨word, hword, operand, hoperand, v, hv, hr⟩ := hr
      split at hr
      · next hset => exact absurd (hword.trans (congrArg some hset.1)) h
      · cases hr
  simp only [assign, hnone]

theorem Thread.length_assign (t : Thread) (ls : List Value) : (t.assign ls).length = ls.length := by
  unfold assign
  split <;> simp

end

/-- Whether the activation that `u` was running is the one that `t` runs; it must be live. -/
def Thread.atTop (u t : Thread) : Bool :=
  t.frames.size == u.frames.size && t.windows.length == u.windows.length

/-- What the next instruction of `t` makes of the locals of the activation that `u` was running. -/
def Thread.assignIn (u t : Thread) (ls : List Value) : List Value :=
  if u.atTop t then t.assign ls else ls

theorem Thread.length_assignIn (u t : Thread) (ls : List Value) :
    (u.assignIn t ls).length = ls.length := by
  unfold assignIn
  split
  · exact t.length_assign ls
  · rfl

/-! ## Handlers -/

/-- The handler `h` was armed by the instruction that `u` was at, it has been kept since, and the
activation that armed it has been live all the time. `ls` are the latest values of the locals that
this activation had when it armed the handler. -/
inductive Armed : List Thread → Handler → Thread → List Value → Prop
  | arm {u t past a} (op : OpAt u.image.chunk u.ip .tryEnter) (frames : t.frames = u.frames)
    (windows : t.windows = u.windows)
    (handler : t.handler = some ⟨a, u.image, u.base, u.frames.size, u.stack.size⟩) :
    Armed (t :: u :: past) ⟨a, u.image, u.base, u.frames.size, u.stack.size⟩ u
      (u.stack.drop u.base).toList
  | keep {u t t' past h ls} (before : Armed (t :: past) h u ls) (live : u.LiveIn t')
    (keeps : t'.Keeps h) : Armed (t' :: t :: past) h u (u.assignIn t ls)

namespace Armed

variable {u t : Thread} {past : List Thread} {h : Handler} {ls : List Value}

/-- What a handler records. -/
theorem handler_eq (ha : Armed (t :: past) h u ls) :
    ∃ a, h = ⟨a, u.image, u.base, u.frames.size, u.stack.size⟩ := by
  generalize hts : t :: past = ts at ha
  induction ha generalizing t past with
  | arm => exact ⟨_, rfl⟩
  | keep before live keeps ih => exact ih rfl

theorem liveIn (ha : Armed (t :: past) h u ls) : u.LiveIn t := by
  cases ha with
  | arm op frames windows handler =>
    exact ⟨frames ▸ List.prefix_refl _, windows ▸ List.suffix_refl _⟩
  | keep before live keeps => exact live

end Armed

end DotScript.Machine
