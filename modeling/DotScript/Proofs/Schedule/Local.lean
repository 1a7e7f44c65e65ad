import DotScript.Proofs.Compile.ClassFree
import DotScript.Proofs.Session.Compiled

/-!
# Threads without shared objects

Without classes there are no instances, and so nothing that a thread could share with another one
but the files. What an instruction does to its thread is then the same in all worlds with the same
files, and all that it does to the world is to print a line or to spawn a call: the `Signal` it
gives.

* `functionRealm`: the functions of programs without classes, and some natives;
* `local_of_stands`: an instruction of compiled code without classes is local;
* `Advances`, `exists_advances`: and so is a step.
-/

namespace DotScript.Machine

open DotScript.Bytecode DotScript.Compile DotScript.Files DotScript.Syntax

/-! ## Realms without objects -/

/-- The functions of programs without classes, and some natives. -/
def functionRealm (natives : Builtin → Prop) : Realm where
  program p := p.classFree = true
  function := IsCompiled (fun p => p.classFree = true) false
  method := IsCompiled (fun p => p.classFree = true) true
  native := natives
  objects := False
  classes := 0
  instances := 0

theorem functionRealm_ofCode (natives : Builtin → Prop) : (functionRealm natives).OfCode :=
  ⟨fun _ => Iff.rfl, fun _ => Iff.rfl, fun hp h => not_occurs_classDecl hp h⟩

theorem functionRealm_heap (natives : Builtin → Prop) (h : Heap) : h.In (functionRealm natives) where
  classes := Nat.zero_le _
  instances := Nat.zero_le _
  method hc _ := hc.1.elim
  field hi _ := hi.2.1.elim

section
variable {R : Realm} (hobjects : ¬ R.objects)
include hobjects

theorem Realm.not_hasClass {c : ClassRef} : ¬ R.HasClass c := fun h => hobjects h.1

theorem Realm.not_hasInstance {i : InstanceRef} : ¬ R.HasInstance i := fun h => hobjects h.2.1

end

/-! ## Signals -/

/-- What a thread tells the session. -/
inductive Signal
  | silent
  /-- It prints a line. -/
  | line (text : String)
  /-- It spawns a call. -/
  | spawn (job : Job)

namespace Signal

/-- The world after a signal of the thread with the name `id`. -/
def told (id : ThreadId) (w : World) : Signal → World
  | silent => w
  | line text => { w with printed := w.printed.push (id, text) }
  | spawn job =>
    { w with threads := w.threads + 1, pending := w.pending ++ [⟨w.threads, job⟩] }

/-- The number of spawned calls. -/
def calls : Signal → Nat
  | spawn _ => 1
  | _ => 0

/-- A thread that goes on as `t'` keeps its name and counts the calls that it spawns. The thread of
such a call is named by its parent and its number, and has spawned none itself. -/
structure From (t t' : Thread) (s : Signal) : Prop where
  id : t'.id = t.id
  spawned : t'.spawned = t.spawned + s.calls
  child : ∀ u, s = .spawn (.script u) → u.id = t.spawned :: t.id ∧ u.spawned = 0

theorem From.silent {t t' : Thread} (hid : t'.id = t.id) (hspawned : t'.spawned = t.spawned) :
    Signal.silent.From t t' := ⟨hid, hspawned, nofun⟩

theorem From.trans {t t' t'' : Thread} {s : Signal} (h : s.From t t') (hid : t''.id = t'.id)
    (hspawned : t''.spawned = t'.spawned) : s.From t t'' :=
  ⟨hid.trans h.id, hspawned.trans h.spawned, h.child⟩

theorem told_injective {id : ThreadId} {w : World} {s s' : Signal}
    (h : s.told id w = s'.told id w) : s = s' := by
  have hprinted := congrArg World.printed h
  have hpending := congrArg World.pending h
  have hsize := congrArg Array.size hprinted
  have hlength := congrArg List.length hpending
  cases s with
  | silent =>
    cases s' with
    | silent => rfl
    | line => simp [told] at hsize
    | spawn => simp [told] at hlength
  | line text =>
    cases s' with
    | silent => simp [told] at hsize
    | line text' =>
      simp only [told, Array.push_eq_push, Prod.mk.injEq] at hprinted
      rw [hprinted.1.2]
    | spawn => simp [told] at hlength
  | spawn job =>
    cases s' with
    | silent => simp [told] at hlength
    | line => simp [told] at hlength
    | spawn job' =>
      simp only [told, List.append_cancel_left_eq, List.cons.injEq, Task.mk.injEq] at hpending
      rw [hpending.1.2]

@[simp] theorem told_files (id : ThreadId) (w : World) (s : Signal) :
    (s.told id w).files = w.files := by
  cases s <;> rfl

end Signal

/-! ## Local instructions -/

/-- The result of an instruction of the thread `t`, as a function of the world: apart from the
files, it depends on the thread only. -/
inductive Local (files : FileTree) (t : Thread) (f : World → Result (Option Value)) : Prop
  | ok {s : Signal} {r t'} (hfrom : s.From t t')
    (h : ∀ w, w.files = files → f w = .ok r ⟨t', s.told t.id w⟩) : Local files t f
  | error {s : Signal} {e t'} (hfrom : s.From t t')
    (h : ∀ w, w.files = files → f w = .error e ⟨t', s.told t.id w⟩) : Local files t f

section
variable {R : Realm} {host : Host} {files : FileTree} {t t' : Thread} {s : Signal}

namespace Local

theorem congr {f g : World → Result (Option Value)} (h : Local files t g)
    (heq : ∀ w, w.files = files → f w = g w) : Local files t f := by
  cases h with
  | ok hfrom h => exact .ok hfrom fun w hw => (heq w hw).trans (h w hw)
  | error hfrom h => exact .error hfrom fun w hw => (heq w hw).trans (h w hw)

/-- An instruction that does nothing to the world. -/
theorem quiet (r : Option Value) (hid : t'.id = t.id := by rfl)
    (hspawned : t'.spawned = t.spawned := by rfl) : Local files t fun w => .ok r ⟨t', w⟩ :=
  .ok (.silent hid hspawned) fun _ _ => rfl

theorem fail (e : RuntimeError) (hid : t'.id = t.id := by rfl)
    (hspawned : t'.spawned = t.spawned := by rfl) : Local files t fun w => .error e ⟨t', w⟩ :=
  .error (.silent hid hspawned) fun _ _ => rfl

theorem signalled (hfrom : s.From t t') (v : Value) :
    Local files t fun w => pushed host v t' (s.told t.id w) := by
  unfold Machine.pushed
  split
  · exact .error hfrom fun _ _ => rfl
  · have hnext : s.From t { t' with stack := t'.stack.push v } := hfrom.trans rfl rfl
    exact .ok hnext fun _ _ => rfl

theorem pushed (v : Value) (hid : t'.id = t.id := by rfl)
    (hspawned : t'.spawned = t.spawned := by rfl) : Local files t fun w => pushed host v t' w :=
  signalled (.silent hid hspawned) v

theorem operated (r : Except RuntimeError Value) (hid : t'.id = t.id := by rfl)
    (hspawned : t'.spawned = t.spawned := by rfl) : Local files t fun w => operated host r t' w := by
  cases r with
  | ok v => exact pushed v hid hspawned
  | error e => exact fail e hid hspawned

theorem entered (f : Function) (slots : List Value) (result : Option Value) (st : Array Value)
    (hid : t'.id = t.id := by rfl) (hspawned : t'.spawned = t.spawned := by rfl) :
    Local files t fun w => entered host f slots result st t' w := by
  unfold Machine.entered
  dsimp only
  split
  · exact fail _ hid hspawned
  · exact quiet _ hid hspawned

theorem doReturn (v : Value) (hid : t'.id = t.id := by rfl)
    (hspawned : t'.spawned = t.spawned := by rfl) :
    Local files t fun w => doReturn host v ⟨t', w⟩ := by
  by_cases hle : t'.frames.size ≤ t'.floor
  · exact (quiet _ hid hspawned).congr fun w _ => doReturn_of_le host v hle
  · have hpos : 0 < t'.frames.size := by omega
    obtain ⟨fs, frame, hframes⟩ := Array.size_pos_iff_exists_push.mp hpos
    have hfloor : t'.floor ≤ fs.size := by
      rw [hframes, Array.size_push] at hle
      omega
    have hreturn := fun w => doReturn_of_push (w := w) host v hframes hfloor
    refine .congr ?_ fun w _ => hreturn w
    exact pushed _ (by exact hid) (by exact hspawned)

end Local

/-! ## All instructions -/

/-- The thread of a spawned call is named by its parent and its number. -/
theorem child_of_jobOf {callee : Value} {args : List Value} {u : Thread}
    (h : jobOf t callee args = .ok (.script u)) : u.id = t.spawned :: t.id ∧ u.spawned = 0 := by
  unfold jobOf at h
  split at h
  · cases h
  · split at h <;> cases h
    exact ⟨rfl, rfl⟩
  · split at h <;> cases h
    exact ⟨rfl, rfl⟩
  · cases h

variable {L : Level} {σ : Site} {ls vs : List Value}

theorem local_of_call (hobjects : ¬ R.objects) (hpure : host.PureIn R) {n : Nat}
    (hs : Stands R L ((σ.push .any).pushes n) ls vs t) (h : InstrAt t.image.chunk t.ip .call n) :
    Local files t fun w => instruction host ⟨t, w⟩ := by
  obtain ⟨callee, args, vs, rfl, hstack, rfl, hcallee, -, -⟩ := hs.exists_call
  refine .congr ?_ fun w _ => instruction_call host h hstack
  cases callee with
  | function f =>
    simp only [called]
    split
    · exact .fail _
    · exact .entered ..
  | bound receiver f =>
    exact absurd ((Value.in_bound receiver f).mp hcallee).1 (R.not_hasInstance hobjects)
  | native n =>
    obtain ⟨r, heval, -⟩ := hpure n.builtin ((Value.in_native n).mp hcallee) args
    simp only [called, heval]
    cases r with
    | ok v => exact .pushed v
    | error message => exact .fail _
  | classRef c => exact absurd ((Value.in_classRef c).mp hcallee) (R.not_hasClass hobjects)
  | _ => exact .fail _

theorem local_of_importUnit (hs : Stands R L (σ.push .any) ls vs t)
    (h : OpAt t.image.chunk t.ip .importUnit) :
    Local files t fun w => instruction host ⟨t, w⟩ := by
  obtain ⟨path, vs, rfl, hstack, -, -⟩ := hs.exists_push
  refine .congr ?_ fun w hw => by
    rw [instruction_importUnit host h hstack, beginImport_then_none, hw]
  cases host.loader with
  | none => exact .fail _
  | some load =>
    dsimp only
    split
    · exact .fail _
    · cases load files path.text with
      | error message => exact .fail _
      | ok chunk => exact .quiet _

theorem local_of_spawn {n : Nat} (hs : Stands R L ((σ.push .any).pushes n) ls vs t)
    (h : InstrAt t.image.chunk t.ip .spawn n) :
    Local files t fun w => instruction host ⟨t, w⟩ := by
  obtain ⟨callee, args, vs, rfl, hstack, rfl, -, -, -⟩ := hs.exists_call
  refine .congr ?_ fun w _ => instruction_spawn host h hstack
  cases hjob : jobOf { t with ip := t.ip + 2, stack := L.stack ls vs } callee args with
  | error e => exact .fail _
  | ok job =>
    have hfrom : (Signal.spawn job).From t
        { t with ip := t.ip + 2, stack := L.stack ls vs, spawned := t.spawned + 1 } :=
      ⟨rfl, rfl, fun u hu => child_of_jobOf (by cases hu; exact hjob)⟩
    exact .signalled hfrom .null

/-- What an instruction of compiled code does depends on its thread and the files only. -/
theorem local_of_stands (hobjects : ¬ R.objects) (hpure : host.PureIn R) (files : FileTree)
    (hs : Stands R L σ ls vs t) : Local files t fun w => instruction host ⟨t, w⟩ := by
  have hmove := hs.site.flow.point.move
  have himage := hs.carries.image
  cases hmove with
  | constant h hk hnext | methodConstant h hf hnext =>
    exact .congr (.pushed _) fun w _ => instruction_constant host (himage ▸ h)
  | @getGlobal _ name h hnext =>
    refine .congr ?_ fun w _ => instruction_getGlobal host (himage ▸ h)
    cases t.globals.get? name with
    | none => exact .fail _
    | some v => exact .pushed v
  | setGlobal h hnext =>
    obtain ⟨v, vs, rfl, hstack, -, -⟩ := hs.exists_push
    exact .congr (.quiet _) fun w _ => instruction_setGlobal host (himage ▸ h) hstack
  | @getLocal _ slot h hslot hnext =>
    obtain ⟨v, hv, -⟩ := hs.exists_local hslot
    exact .congr (.pushed _) fun w _ => instruction_getLocal host (himage ▸ h) hv
  | @setLocal ρ slot h hslot hnext =>
    obtain ⟨v, vs, rfl, hstack, -, -⟩ := hs.exists_push
    have hsize : t.base + slot < t.stack.size := hs.lt_size hslot
    exact .congr (.quiet _) fun w _ => instruction_setLocal host (himage ▸ h) hstack hsize
  | @binary _ op h hnext =>
    obtain ⟨b, a, vs, rfl, hstack, -, -, -⟩ := hs.exists_push_push
    obtain ⟨f, hf, -, -⟩ := binaryValue_binaryOpcode R op
    exact .congr (.operated _) fun w _ => instruction_binary host (himage ▸ h) hf hstack
  | @unary _ op h hnext =>
    obtain ⟨v, vs, rfl, hstack, -, -⟩ := hs.exists_push
    cases op with
    | neg => exact .congr (.operated _) fun w _ => instruction_negate host (himage ▸ h) hstack
    | not => exact .congr (.pushed _) fun w _ => instruction_not host (himage ▸ h) hstack
  | print h hnext =>
    obtain ⟨v, vs, rfl, hstack, -, -⟩ := hs.exists_push
    have hfrom : (Signal.line v.text).From t { t with ip := t.ip + 1, stack := L.stack ls vs } :=
      ⟨rfl, rfl, nofun⟩
    exact .ok hfrom fun w _ => instruction_print host (himage ▸ h) hstack
  | pop h hnext =>
    obtain ⟨v, vs, rfl, hstack, -, -⟩ := hs.exists_push
    exact .congr (.quiet _) fun w _ => instruction_pop host (himage ▸ h) hstack
  | @unbind b n ts h hnext =>
    obtain ⟨ls, v, rfl, -, hstack⟩ := hs.exists_newest
    exact .congr (.quiet _) fun w _ => instruction_pop host (himage ▸ h) hstack
  | jump h hnext hback => exact .congr (.quiet _) fun w _ => instruction_jump host (himage ▸ h)
  | jumpIfFalse h hnext htarget hforth =>
    obtain ⟨v, vs, rfl, hstack, -, -⟩ := hs.exists_push
    exact .congr (.quiet _) fun w _ => instruction_jumpIfFalse host (himage ▸ h) hstack
  | ret h hend =>
    obtain ⟨v, rfl, hstack, -⟩ := hs.exists_result
    exact .congr (.doReturn v) fun w _ => instruction_ret host (himage ▸ h) hstack
  | buildList h hnext =>
    obtain ⟨args, vs, rfl, hstack, rfl, -, -⟩ := hs.exists_pushes
    exact .congr (.pushed _) fun w _ => instruction_buildList host (himage ▸ h) hstack
  | buildMap h hnext =>
    obtain ⟨args, vs, rfl, hstack, hlength, -, -⟩ := hs.exists_pushes
    exact .congr (.operated _) fun w _ => instruction_buildMap host (himage ▸ h) hlength hstack
  | importUnit h hnext => exact local_of_importUnit hs (himage ▸ h)
  | classDef h hdeclared hnext => exact absurd hdeclared hobjects
  | method h hnext =>
    obtain ⟨_, _, vs, rfl, -, -, ⟨c, -, hc⟩, -⟩ := hs.exists_push_push
    exact absurd hc (R.not_hasClass hobjects)
  | @getProperty _ name h hnext =>
    obtain ⟨v, vs, rfl, hstack, hv, -⟩ := hs.exists_push
    refine .congr ?_ fun w _ => instruction_getProperty host (himage ▸ h) hstack
    cases v with
    | inst i => exact absurd ((Value.in_inst i).mp hv) (R.not_hasInstance hobjects)
    | _ => exact .operated _
  | @setProperty _ name h hnext =>
    obtain ⟨v, o, vs, rfl, hstack, -, ho, -⟩ := hs.exists_push_push
    refine .congr ?_ fun w _ => instruction_setProperty host (himage ▸ h) hstack
    cases o with
    | inst i => exact absurd ((Value.in_inst i).mp ho) (R.not_hasInstance hobjects)
    | _ => exact .fail _
  | call h hnext => exact local_of_call hobjects hpure hs (himage ▸ h)
  | spawn h hnext => exact local_of_spawn hs (himage ▸ h)
  | tryEnter h ha hnext =>
    exact .congr (.quiet _) fun w _ => instruction_tryEnter host (himage ▸ h)
  | tryExit h hnext =>
    exact .congr (.quiet _) fun w _ => instruction_tryExit host (himage ▸ h)

end

/-! ## Steps -/

/-- What a step makes of its thread. -/
inductive Turn
  | running (t : Thread)
  | finished (v : Value) (t : Thread)
  | failed (e : RuntimeError) (t : Thread)

namespace Turn

def thread : Turn → Thread
  | running t | finished _ t | failed _ t => t

/-- The outcome of a step that leaves a world. -/
def outcome (w : World) : Turn → Outcome
  | running t => .running ⟨t, w⟩
  | finished v t => .finished v ⟨t, w⟩
  | failed e t => .failed e ⟨t, w⟩

theorem outcome_injective {w w' : World} {a b : Turn} (h : a.outcome w = b.outcome w') :
    a = b ∧ w = w' := by
  cases a <;> cases b <;> cases h <;> exact ⟨rfl, rfl⟩

end Turn

/-- With these files, a step of a thread gives a signal and leads on in one way. -/
structure Advances (host : Host) (files : FileTree) (t : Thread) (s : Signal) (a : Turn) : Prop where
  named : s.From t a.thread
  step : ∀ w, w.files = files → step host ⟨t, w⟩ = a.outcome (s.told t.id w)

section
variable {host : Host} {files : FileTree} {t : Thread}

theorem Advances.unique {s s' : Signal} {a a' : Turn} (h : Advances host files t s a)
    (h' : Advances host files t s' a') : s = s' ∧ a = a' := by
  have heq := (h.step { files } rfl).symm.trans (h'.step { files } rfl)
  obtain ⟨hturn, htold⟩ := Turn.outcome_injective heq
  exact ⟨Signal.told_injective htold, hturn⟩

/-- Wherever a failure goes, its thread keeps its name and the number of calls it has spawned. -/
theorem raise_named {ws : List Window} {e : RuntimeError} {t t' : Thread}
    (h : t.raise ws e = .ok t' ∨ ∃ e', t.raise ws e = .error (e', t')) :
    t'.id = t.id ∧ t'.spawned = t.spawned := by
  induction ws generalizing e t with
  | nil =>
    unfold Thread.raise at h
    split at h
    · rcases h with h | ⟨e', h⟩ <;> cases h
      exact ⟨rfl, rfl⟩
    · rcases h with h | ⟨e', h⟩ <;> cases h
      exact ⟨rfl, rfl⟩
  | cons w outer ih =>
    unfold Thread.raise at h
    split at h
    · rcases h with h | ⟨e', h⟩ <;> cases h
      exact ⟨rfl, rfl⟩
    · exact ih (t := t.closeWindow w outer) h

/-- A step of a local instruction. -/
theorem exists_advances (h : Local files t fun w => instruction host ⟨t, w⟩) :
    ∃ s a, Advances host files t s a := by
  cases h with
  | @ok s r t' hfrom h =>
    cases r with
    | none =>
      refine ⟨s, .running t', hfrom, fun w hw => ?_⟩
      simp only [Machine.step, h w hw, Turn.outcome]
    | some v =>
      cases hwindows : t'.windows with
      | nil =>
        refine ⟨s, .finished v t', hfrom, fun w hw => ?_⟩
        simp only [Machine.step, h w hw, hwindows, Turn.outcome]
      | cons window outer =>
        refine ⟨s, .running (t'.closeWindow window outer), hfrom.trans rfl rfl, fun w hw => ?_⟩
        simp only [Machine.step, h w hw, hwindows, Turn.outcome]
  | @error s e t' hfrom h =>
    cases hraise : t'.raise t'.windows e with
    | ok t'' =>
      obtain ⟨hid, hspawned⟩ := raise_named (.inl hraise)
      refine ⟨s, .running t'', hfrom.trans hid hspawned, fun w hw => ?_⟩
      simp only [Machine.step, h w hw, hraise, Turn.outcome]
    | error failure =>
      obtain ⟨e', t''⟩ := failure
      obtain ⟨hid, hspawned⟩ := raise_named (.inr ⟨e', hraise⟩)
      refine ⟨s, .failed e' t'', hfrom.trans hid hspawned, fun w hw => ?_⟩
      simp only [Machine.step, h w hw, hraise, Turn.outcome]

end

end DotScript.Machine
