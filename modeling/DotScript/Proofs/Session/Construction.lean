import DotScript.Proofs.Session.Calls
import DotScript.Proofs.Session.StackLimit

/-!
# Making instances

A call of a class makes an instance, and runs `init` on it if the class has one at that moment. The
frame of `init` keeps the instance, and the return from that frame gives it to the caller, whatever
`init` returns and whatever has happened in between. A bound method has no such value in its frame.

* `instruction_construct`, `instruction_construct_arity`: classes without `init`, or with one that
  takes another number of arguments;
* `begins_of_construct`, `begins_of_bound`: what the callee finds;
* `Finishes.returned`: what the caller finds.

Main statement: `construction`.
-/

namespace DotScript.Machine

open DotScript.Bytecode DotScript.Compile DotScript.Syntax

/-- The call that `t` makes of the value in the slot `c` has come to `f`. The first local of `f` is
its receiver, and then come the arguments. The new frame keeps `result`. -/
structure Thread.Begins (t s : Thread) (c : Nat) (f : Function) (receiver : InstanceRef)
    (result : Option Value) : Prop where
  frames : s.frames = t.frames.push ⟨t.image, t.ip + 2, t.base, t.handler, result⟩
  image : s.image = f.image
  ip : s.ip = f.entry
  receiver : s.stack[s.base]? = some (.inst receiver)
  arguments : s.stack.drop (s.base + 1) = t.stack.drop (c + 1)

/-! ## The call -/

section
variable {host : Host} {t : Thread} {w : World} {c n : Nat}

/-- The callee and the arguments of a call stand on top of the stack. -/
theorem exists_args {callee : Value} (hsize : t.stack.size = c + n + 1)
    (hcallee : t.stack[c]? = some callee) :
    ∃ args : List Value, args.length = n ∧ (t.stack.take c).size = c ∧
      t.stack = (t.stack.take c).push callee ++ args.toArray := by
  rcases lt_or_exists_append t.stack (n + 1) with hlt | ⟨st, vs, hst, hvs⟩
  · omega
  · obtain ⟨v, args, rfl⟩ := List.exists_cons_of_length_eq_add_one hvs
    have hc : st.size = c := by
      rw [hst] at hsize
      simp at hsize hvs
      omega
    subst hc
    have htake : t.stack.take st.size = st := by simp [hst]
    have hv : v = callee := by
      rw [hst] at hcallee
      simpa using hcallee
    subst hv
    refine ⟨args, by simpa using hvs, by rw [htake], ?_⟩
    rw [htake, hst]
    simp

/-- A class without `init` gives a new instance at once. -/
theorem instruction_construct {C : ClassRef} (hcall : InstrAt t.image.chunk t.ip .call n)
    (hsize : t.stack.size = c + n + 1) (hclass : t.stack[c]? = some (.classRef C))
    (hroom : c < host.limits.stack) (hinit : w.heap.method? C "init" = none) :
    instruction host ⟨t, w⟩ = .ok none
      ⟨{ t with
          ip := t.ip + 2
          stack := (t.stack.take c).push (.inst (w.heap.newInstance C).1) },
        { w with heap := (w.heap.newInstance C).2 }⟩ := by
  obtain ⟨args, rfl, htake, hst⟩ := exists_args hsize hclass
  have hinit' : (w.heap.newInstance C).2.method? C "init" = none := hinit
  rw [instruction_call host hcall hst]
  simp only [called, hinit', pushed, htake, Nat.not_le.mpr hroom, if_false]

/-- Before `init` runs, its arguments are counted. -/
theorem instruction_construct_arity {C : ClassRef} {init : Function}
    (hcall : InstrAt t.image.chunk t.ip .call n) (hsize : t.stack.size = c + n + 1)
    (hclass : t.stack[c]? = some (.classRef C)) (hinit : w.heap.method? C "init" = some init)
    (harity : init.arity ≠ n) :
    instruction host ⟨t, w⟩ = .error (.arity init.name init.arity n)
      ⟨{ t with ip := t.ip + 2 }, { w with heap := (w.heap.newInstance C).2 }⟩ := by
  obtain ⟨args, rfl, -, hst⟩ := exists_args hsize hclass
  have hinit' : (w.heap.newInstance C).2.method? C "init" = some init := hinit
  rw [instruction_call host hcall hst]
  simp only [called, hinit', enteredWith, if_pos harity]

theorem drop_append_toArray {xs : Array Value} (zs : List Value) (n : Nat) (h : xs.size = n) :
    (xs ++ zs.toArray).drop n = zs.toArray := by
  subst h
  simp

theorem begins_of_enteredWith {f : Function} {receiver : InstanceRef} {callee : Value}
    {args : List Value} {result r : Option Value} {s : State} (hc : (t.stack.take c).size = c)
    (hst : t.stack = (t.stack.take c).push callee ++ args.toArray)
    (h : enteredWith host f receiver args result (t.stack.take c) { t with ip := t.ip + 2 } w =
      .ok r s) : f.arity = args.length ∧ s.world = w ∧ t.Begins s.thread c f receiver result := by
  unfold enteredWith at h
  split at h
  · cases h
  · next harity =>
    refine ⟨Decidable.not_not.mp harity, ?_⟩
    split at h
    · cases h
    · unfold entered at h
      simp only at h
      split at h
      · cases h
      · cases h
        refine ⟨rfl, rfl, rfl, rfl, ?_, ?_⟩
        · simp
        · have hbelow : ((t.stack.take c).push callee).size = c + 1 := by rw [Array.size_push, hc]
          have hlocals : (((t.stack.take c).push (.function f)).push (.inst receiver)).size = c + 2 := by
            rw [Array.size_push, Array.size_push, hc]
          have hargs : t.stack.drop (c + 1) = args.toArray :=
            (congrArg (Array.drop · (c + 1)) hst).trans (drop_append_toArray _ _ hbelow)
          simp only [hargs, hc]
          rw [List.toArray_cons, ← Array.append_assoc, ← Array.push_eq_append]
          exact drop_append_toArray _ _ hlocals

/-- The instance that a class makes is the receiver of its `init`, and the frame of `init` keeps it. -/
theorem begins_of_construct {C : ClassRef} {init : Function} {r : Option Value} {s : State}
    (hcall : InstrAt t.image.chunk t.ip .call n) (hsize : t.stack.size = c + n + 1)
    (hclass : t.stack[c]? = some (.classRef C)) (hinit : w.heap.method? C "init" = some init)
    (h : instruction host ⟨t, w⟩ = .ok r s) :
    init.arity = n ∧ s.world = { w with heap := (w.heap.newInstance C).2 } ∧
      t.Begins s.thread c init (w.heap.newInstance C).1 (some (.inst (w.heap.newInstance C).1)) := by
  obtain ⟨args, rfl, htake, hst⟩ := exists_args hsize hclass
  have hinit' : (w.heap.newInstance C).2.method? C "init" = some init := hinit
  rw [instruction_call host hcall hst] at h
  simp only [called, hinit'] at h
  exact begins_of_enteredWith htake hst h

theorem begins_of_bound {receiver : InstanceRef} {f : Function} {r : Option Value} {s : State}
    (hcall : InstrAt t.image.chunk t.ip .call n) (hsize : t.stack.size = c + n + 1)
    (hbound : t.stack[c]? = some (.bound receiver f))
    (h : instruction host ⟨t, w⟩ = .ok r s) :
    f.arity = n ∧ s.world = w ∧ t.Begins s.thread c f receiver none := by
  obtain ⟨args, rfl, htake, hst⟩ := exists_args hsize hbound
  rw [instruction_call host hcall hst] at h
  exact begins_of_enteredWith htake hst h

/-- A class stands on no place above the limit. -/
theorem lt_limit_of_class {C : ClassRef} (hlimit : WithinLimit host.limits t.stack)
    (hclass : t.stack[c]? = some (.classRef C)) : c < host.limits.stack := by
  refine Nat.lt_of_not_le fun hge => ?_
  obtain ⟨e, he⟩ := hlimit c _ hge hclass
  cases he

theorem newInstance_fresh (h : Heap) (C : ClassRef) :
    h.instances[(h.newInstance C).1.id]? = none ∧
      (h.newInstance C).2.instances[(h.newInstance C).1.id]? = some {} := by
  simp [Heap.newInstance]

end

/-! ## The return -/

/-- A return leaves objects, files and output as they are. -/
theorem step_world_of_ret (host : Host) {t : Thread} {w : World} {v : Value}
    (hret : OpAt t.image.chunk t.ip .ret) (hv : t.stack.back? = some v) :
    (step host ⟨t, w⟩).world = w := by
  obtain ⟨st, hst⟩ := Array.back?_eq_some_iff.mp hv
  rw [step_world, instruction_ret host hret hst]
  by_cases hfloor : t.frames.size ≤ t.floor
  · rw [doReturn_of_le (t := { t with ip := t.ip + 1, stack := st }) host v hfloor]
    rfl
  · have hpos : 0 < t.frames.size := Nat.zero_lt_of_lt (Nat.lt_of_not_le hfloor)
    obtain ⟨fs, frame, hframes⟩ := Array.size_pos_iff_exists_push.mp hpos
    have hle : t.floor ≤ fs.size := by
      rw [hframes, Array.size_push] at hfloor
      omega
    rw [doReturn_of_push (t := { t with ip := t.ip + 1, stack := st }) host v hframes hle,
      worldAfter_pushed]

/-- In the session `P`, the thread `u` is about to leave a call. The state `t` has begun it and has come
to `t₁`; since then there have been more frames than in `t`. The instruction of `u` does not fail, and
its step leads back to the frames of `t`. -/
structure Finishes (host : Host) (P : Pool) (t t₁ : Thread) (past : List Thread) (u : Thread)
    (s : State) : Prop where
  reachable : Reachable host Compiled P
  running : ∃ us upast work, ⟨u, upast, work, .running⟩ ∈ P.cells ∧
    u :: upast = us ++ t₁ :: t :: past ∧ ∀ x ∈ us ++ [t₁], t.frames.size < x.frames.size
  ok : ∃ r s₁, instruction host ⟨u, P.world⟩ = .ok r s₁
  step : step host ⟨u, P.world⟩ = .running s
  back : s.thread.frames.size ≤ t.frames.size

/-- The caller finds the value that the frame keeps, or else the value that is returned. -/
theorem Finishes.returned {host : Host} {P : Pool} {t t₁ u : Thread} {past : List Thread} {s : State}
    {c n : Nat} {f : Function} {receiver : InstanceRef} {result : Option Value}
    (h : Finishes host P t t₁ past u s) (hinert : host.Inert) (hload : host.LoadsCompiled)
    (hcall : InstrAt t.image.chunk t.ip .call n) (hsize : t.stack.size = c + n + 1)
    (hbegins : t.Begins t₁ c f receiver result) :
    ∃ v, OpAt u.image.chunk u.ip .ret ∧ u.stack.back? = some v ∧ t.BehindCall s.thread c ∧
      s.thread.stack = (t.stack.take c).push (result.getD v) ∧ s.world = P.world := by
  obtain ⟨us, upast, work, hu, hpast, hduring⟩ := h.running
  obtain ⟨r, s₁, hr⟩ := h.ok
  obtain ⟨R, -, -, -, hgood⟩ := good_of_reachable hinert hload h.reachable
  obtain ⟨hhistory, Ls, htracked, -⟩ := (hgood.cells _ hu).tracked
  obtain ⟨c', frame, v, hsize', hframes, hret, hv, hbehind, hstack⟩ :=
    htracked.returned hhistory hpast hcall hduring hr h.step h.back
  obtain rfl : c' = c := by omega
  obtain ⟨rfl, -⟩ := Array.push_eq_push.mp (hframes.symm.trans hbegins.frames)
  have hworld := step_world_of_ret host hret hv (w := P.world)
  rw [h.step] at hworld
  exact ⟨v, hret, hv, hbehind, hstack, hworld⟩

/-- Calls of classes and of bound methods, in the session of compiled programs. The callee of a call
is in the slot `c`.

A class makes an instance that was not there before and has no fields. If the class has no `init`, the
call succeeds with any number of arguments and the instance is its value. If it has one, the call
fails before anything runs unless the number of arguments is right. Once `init` has begun, with the
instance as its receiver, the call can only end with this instance, however `init` comes to its
return and whatever it returns. A bound method ends with the value that it returns, also if it is
`init`. The return leaves all objects as they are, so the caller finds the fields that have been set. -/
theorem construction (host : Host) (hinert : host.Inert) (hload : host.LoadsCompiled) (P : Pool)
    (h : Reachable host Compiled P) (t : Thread) (past : List Thread) (work : Work)
    (ht : ⟨t, past, work, .running⟩ ∈ P.cells) (n c : Nat)
    (hcall : InstrAt t.image.chunk t.ip .call n) (hsize : t.stack.size = c + n + 1) :
    (∀ C, t.stack[c]? = some (.classRef C) → ∃ (i : InstanceRef) (w : World),
      i.ofClass = C ∧ P.world.heap.instances[i.id]? = none ∧ w.heap.instances[i.id]? = some {} ∧
      w = { P.world with heap := w.heap } ∧
      (P.world.heap.method? C "init" = none →
        ∃ s, step host ⟨t, P.world⟩ = .running s ∧ s.world = w ∧ t.BehindCall s.thread c ∧
          s.thread.stack = (t.stack.take c).push (.inst i)) ∧
      ∀ init, P.world.heap.method? C "init" = some init →
        (init.arity ≠ n → instruction host ⟨t, P.world⟩ =
          .error (.arity init.name init.arity n) ⟨{ t with ip := t.ip + 2 }, w⟩) ∧
        ∀ r s₁, instruction host ⟨t, P.world⟩ = .ok r s₁ →
          init.arity = n ∧ s₁.world = w ∧ t.Begins s₁.thread c init i (some (.inst i)) ∧
          ∀ P' u s, Finishes host P' t s₁.thread past u s →
            t.BehindCall s.thread c ∧ s.thread.stack = (t.stack.take c).push (.inst i) ∧
              s.world = P'.world) ∧
    ∀ i f, t.stack[c]? = some (.bound i f) →
      ∀ r s₁, instruction host ⟨t, P.world⟩ = .ok r s₁ →
        f.arity = n ∧ s₁.world = P.world ∧ t.Begins s₁.thread c f i none ∧
        ∀ P' u s, Finishes host P' t s₁.thread past u s →
          ∃ v, OpAt u.image.chunk u.ip .ret ∧ u.stack.back? = some v ∧
            t.BehindCall s.thread c ∧ s.thread.stack = (t.stack.take c).push v ∧
              s.world = P'.world := by
  refine ⟨fun C hclass => ?_, fun i f hbound r s₁ hr => ?_⟩
  · obtain ⟨hold, hnew⟩ := newInstance_fresh P.world.heap C
    refine ⟨(P.world.heap.newInstance C).1, { P.world with heap := (P.world.heap.newInstance C).2 },
      rfl, hold, hnew, rfl, fun hinit => ?_, fun init hinit => ⟨fun harity => ?_, fun r s₁ hr => ?_⟩⟩
    · have hnatives : host.SpawnsNone :=
        (hinert (codeRealm (fun _ => True) {}) trivial fun _ => trivial).spawnsNone fun _ => trivial
      have hrunning : Activity.running ≠ .idle := nofun
      have hroom := lt_limit_of_class ((h.bounded hnatives).cells _ ht hrunning) hclass
      have hr := instruction_construct hcall hsize hclass hroom hinit
      refine ⟨_, step_of_ok hr, rfl, ?_, rfl⟩
      exact ⟨⟨_, rfl⟩, rfl, rfl, rfl, rfl, rfl, rfl, rfl⟩
    · exact instruction_construct_arity hcall hsize hclass hinit harity
    · obtain ⟨harity, hworld, hbegins⟩ := begins_of_construct hcall hsize hclass hinit hr
      refine ⟨harity, hworld, hbegins, fun P' u s hdone => ?_⟩
      obtain ⟨v, -, -, hbehind, hstack, hworld⟩ := hdone.returned hinert hload hcall hsize hbegins
      exact ⟨hbehind, hstack, hworld⟩
  · obtain ⟨harity, hworld, hbegins⟩ := begins_of_bound hcall hsize hbound hr
    refine ⟨harity, hworld, hbegins, fun P' u s hdone => ?_⟩
    exact hdone.returned hinert hload hcall hsize hbegins

/-- A program that makes an instance whose `init` gives a value: `class C: fun init: true . . C()`. -/
def makesInstance : Program where
  stmts := [.classDecl ⟨"C", ⟨6, 7⟩⟩ [⟨⟨"init", ⟨13, 17⟩⟩, [],
      ⟨[.expr (.bool true ⟨19, 23⟩)], ⟨19, 23⟩⟩, ⟨9, 25⟩⟩] ⟨0, 27⟩,
    .expr (.call (.var ⟨"C", ⟨28, 29⟩⟩) [] ⟨28, 31⟩)]
  span := ⟨0, 31⟩

/-- The thread is about to call a class whose `init` takes two steps, the second one to return. -/
def makesInTwoSteps (host : Host) (s : State) : Bool :=
  decide (s.thread.image.chunk.code[s.thread.ip]? = some Opcode.call.encode) &&
  decide (s.thread.image.chunk.code[s.thread.ip + 1]? = some 0) &&
  decide (s.thread.stack.size = 1) &&
  match (s.thread.stack[0]? : Option Value), instruction host s with
  | some (.classRef C), .ok none s₁ =>
    (s.world.heap.method? C "init").isSome && decide (s.thread.frames.size < s₁.thread.frames.size) &&
    match instruction host s₁ with
    | .ok none s₂ =>
      decide (s.thread.frames.size < s₂.thread.frames.size) &&
      match s₂.thread.stack.back?, instruction host s₂ with
      | some (.bool true), .ok none s₃ => decide (s₃.thread.frames.size ≤ s.thread.frames.size)
      | _, _ => false
    | _ => false
  | _, _ => false

/-- The value of the call is the new instance, not what `init` returns. -/
theorem construction_makesInstance : ∃ (P P' : Pool) (t t₁ u : Thread) (past : List Thread)
    (s : State) (C : ClassRef) (i : InstanceRef), Reachable (Session.hostWith {} none) Compiled P ∧
      (∃ work, ⟨t, past, work, .running⟩ ∈ P.cells) ∧ InstrAt t.image.chunk t.ip .call 0 ∧
      t.stack[0]? = some (.classRef C) ∧ P.world.heap.instances[i.id]? = none ∧
      Finishes (Session.hostWith {} none) P' t t₁ past u s ∧
      u.stack.back? = some (.bool true) ∧ s.thread.stack = (t.stack.take 0).push (.inst i) := by
  obtain ⟨chunk, hc, hcheck⟩ := exists_compiled makesInstance "main"
    (fun c => match trail (Session.hostWith {} none) 6 ⟨Thread.start {} c, {}⟩ [] with
      | some (s, _) => makesInTwoSteps (Session.hostWith {} none) s
      | none => false) (by decide +kernel)
  have hbegin : Reachable (Session.hostWith {} none) Compiled
      ⟨[] ++ ⟨Thread.start {} chunk, [], .main (some makesInstance), .running⟩ :: [], {}⟩ :=
    .next (.initial (t := {}) (w := {}) nofun rfl rfl rfl) (.begin hc nofun)
  split at hcheck
  · next s past hr =>
    have hP := reachable_trail hr hbegin
    simp only [makesInTwoSteps, Bool.and_eq_true, decide_eq_true_eq] at hcheck
    obtain ⟨⟨⟨hop, harg⟩, hsize⟩, hcheck⟩ := hcheck
    split at hcheck
    · next C s₁ hclass hr₁ =>
      simp only [Bool.and_eq_true, decide_eq_true_eq] at hcheck
      obtain ⟨⟨hinit, hframes₁⟩, hcheck⟩ := hcheck
      obtain ⟨init, hinit⟩ := Option.isSome_iff_exists.mp hinit
      split at hcheck
      · next s₂ hr₂ =>
        simp only [Bool.and_eq_true, decide_eq_true_eq] at hcheck
        obtain ⟨hframes₂, hcheck⟩ := hcheck
        split at hcheck
        · next s₃ htrue hr₃ =>
          have hP₂ := hP.next (.move (.run (step_of_ok hr₁))) |>.next (.move (.run (step_of_ok hr₂)))
          have hdone : Finishes (Session.hostWith {} none) _ s.thread s₁.thread past s₂.thread s₃ :=
            { reachable := hP₂
              running := ⟨[s₂.thread], _, _, List.mem_cons_self, rfl, by simp [hframes₁, hframes₂]⟩
              ok := ⟨none, s₃, hr₃⟩
              step := step_of_ok hr₃
              back := of_decide_eq_true hcheck }
          have hcall : InstrAt s.thread.image.chunk s.thread.ip .call 0 := ⟨hop, 0, harg, rfl⟩
          obtain ⟨i, w, -, hfresh, -, -, -, hmade⟩ := (construction (Session.hostWith {} none)
            (Natives.inert_of_callForHost rfl) (fun _ hload => by cases hload) _ hP s.thread past _
            List.mem_cons_self 0 0 hcall hsize).1 C hclass
          obtain ⟨-, -, -, hreturned⟩ := (hmade init hinit).2 none s₁ hr₁
          exact ⟨_, _, s.thread, s₁.thread, s₂.thread, past, s₃, C, i, hP, ⟨_, List.mem_cons_self⟩,
            hcall, hclass, hfresh, hdone, htrue, (hreturned _ _ _ hdone).2.1⟩
        · cases hcheck
      · cases hcheck
    · cases hcheck
  · cases hcheck

end DotScript.Machine
