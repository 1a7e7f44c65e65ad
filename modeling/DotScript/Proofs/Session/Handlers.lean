import DotScript.Proofs.Session.Compiled

/-!
# Handlers in force

A handler is in force, or saved by a call or an import, only while the activation that has armed it
is in the body of its `try` statement. So a failure that is caught goes on in the code of that
statement's handler, with the locals around it as they were last.

* `counterAt`, `Thread.counterOf`: where an activation of a thread is in its code;
* `Tower.inBody`: the handlers of a tower;
* `ArmedBy`: which `try` statement has armed a handler; `Resumes`: how a failure is caught.

Main statement: `handler_in_body`.
-/

namespace DotScript.Machine

open DotScript.Bytecode DotScript.Compile DotScript.Syntax

/-! ## Where activations are -/

section
variable {depth nested : Nat} {frames : Array Frame} {windows : List Window} {ip : Nat}

/-- Where the activation is that has `depth` frames and `nested` imports below it: at the address
that the import directly above it has saved, or else the call directly above it, or at `ip` if
nothing is above it. -/
def counterAt (depth nested : Nat) (frames : Array Frame) (windows : List Window) (ip : Nat) : Nat :=
  match windows.reverse[nested]?.filter (·.depth = depth) with
  | some w => w.ip
  | none =>
    match frames[depth]? with
    | some f => f.ip
    | none => ip

/-- An activation with `depth` frames and `nested` imports below it may be live: if there are no
more frames but more imports, then it has begun one. -/
structure Placed (depth nested : Nat) (frames : Array Frame) (windows : List Window) : Prop where
  depth_le : depth ≤ frames.size
  nested_le : nested ≤ windows.length
  importing : depth = frames.size → nested < windows.length →
    ∃ w, windows.reverse[nested]? = some w ∧ w.depth = depth

theorem placed_self (frames : Array Frame) (windows : List Window) :
    Placed frames.size windows.length frames windows :=
  ⟨Nat.le_refl _, Nat.le_refl _, fun _ h => absurd h (Nat.lt_irrefl _)⟩

theorem counterAt_self (frames : Array Frame) (windows : List Window) (ip : Nat) :
    counterAt frames.size windows.length frames windows ip = ip := by
  simp [counterAt]

namespace Placed

theorem push (h : Placed depth nested frames windows) (f : Frame) :
    Placed depth nested (frames.push f) windows := by
  have := h.depth_le
  refine ⟨by rw [Array.size_push]; omega, h.nested_le, fun heq => ?_⟩
  rw [Array.size_push] at heq
  omega

theorem cons (h : Placed depth nested frames windows) (w : Window) (hw : w.depth = frames.size) :
    Placed depth nested frames (w :: windows) := by
  have hnested := h.nested_le
  refine ⟨h.depth_le, Nat.le_succ_of_le h.nested_le, fun heq _ => ?_⟩
  rw [List.reverse_cons]
  rcases Nat.lt_or_eq_of_le h.nested_le with hlt | rfl
  · rw [List.getElem?_append_left (by simpa using hlt)]
    exact h.importing heq hlt
  · refine ⟨w, ?_, hw.trans heq.symm⟩
    simp

/-- A call saves where its caller is. -/
theorem counterAt_push (h : Placed depth nested frames windows) (f : Frame) (ip : Nat) :
    counterAt depth nested (frames.push f) windows ip =
      counterAt depth nested frames windows f.ip := by
  unfold counterAt
  cases windows.reverse[nested]?.filter (·.depth = depth) with
  | some w => rfl
  | none =>
    rcases Nat.lt_or_eq_of_le h.depth_le with hlt | rfl
    · simp only [Array.getElem?_push_lt hlt, Array.getElem?_eq_getElem hlt]
    · simp only [Array.getElem?_push_size, Array.getElem?_eq_none (Nat.le_refl _)]

/-- An import saves where its importer is. -/
theorem counterAt_cons (h : Placed depth nested frames windows) (w : Window)
    (hw : w.depth = frames.size) (ip : Nat) :
    counterAt depth nested frames (w :: windows) ip =
      counterAt depth nested frames windows w.ip := by
  unfold counterAt
  rw [List.reverse_cons]
  rcases Nat.lt_or_eq_of_le h.nested_le with hlt | rfl
  · rw [List.getElem?_append_left (by simpa using hlt)]
    cases hfilter : windows.reverse[nested]?.filter (·.depth = depth) with
    | some v => rfl
    | none =>
      rcases Nat.lt_or_eq_of_le h.depth_le with hdepth | hdepth
      · simp only [Array.getElem?_eq_getElem hdepth]
      · obtain ⟨v, hv, hdepth'⟩ := h.importing hdepth hlt
        simp [hv, hdepth'] at hfilter
  · have hnone : windows.reverse[windows.length]? = none := List.getElem?_eq_none (by simp)
    have hsome : (windows.reverse ++ [w])[windows.length]? = some w := by simp
    rw [hnone, hsome, Option.filter_none]
    rcases Nat.lt_or_eq_of_le h.depth_le with hdepth | rfl
    · have hne : ¬ w.depth = depth := by omega
      simp [Option.filter, hne, Array.getElem?_eq_getElem hdepth]
    · simp [Option.filter, hw]

end Placed

end

/-- Where the activation that `u` runs is on `t`, where it is live. -/
def Thread.counterOf (t u : Thread) : Nat :=
  counterAt u.frames.size u.windows.length t.frames t.windows t.ip

/-! ## The handlers of a tower -/

section
variable {R : Realm} {Q : Level → Try → List Value → Prop} {L : Level} {Ls : List Level}
  {inherited : Option Handler} {frames : Array Frame} {windows : List Window} {ip : Nat} {h : Handler}

/-- The handler is that of a `try` statement of an activation, and the activation is in its body. -/
inductive InBody (Q : Level → Try → List Value → Prop) (frames : Array Frame)
    (windows : List Window) (ip : Nat) (h : Handler) : Prop
  | mk {L τ vs} (known : Q L τ vs) (handler : h = L.handler τ)
    (placed : Placed L.frames.size L.windows.length frames windows)
    (enter : τ.enter + 2 ≤ counterAt L.frames.size L.windows.length frames windows ip)
    (exit : counterAt L.frames.size L.windows.length frames windows ip ≤ τ.exit)

theorem InBody.push {f : Frame} (hb : InBody Q frames windows f.ip h) (ip : Nat) :
    InBody Q (frames.push f) windows ip h := by
  obtain ⟨known, handler, placed, enter, exit⟩ := hb
  rw [← placed.counterAt_push f ip] at enter exit
  exact ⟨known, handler, placed.push f, enter, exit⟩

theorem InBody.cons {w : Window} (hb : InBody Q frames windows w.ip h)
    (hw : w.depth = frames.size) (ip : Nat) : InBody Q frames (w :: windows) ip h := by
  obtain ⟨known, handler, placed, enter, exit⟩ := hb
  rw [← placed.counterAt_cons w hw ip] at enter exit
  exact ⟨known, handler, placed.cons w hw, enter, exit⟩

/-- The handler of the innermost body in which an activation is. -/
theorem inBody_own {a : Nat} {σ : Site} {ls vs : List Value} {τ : Try} {outer : List Try}
    (hsite : AtSite R L a σ ls vs) (hτ : σ.tries = τ :: outer) (hQ : Q L τ (ls.take τ.names.length)) :
    InBody Q L.frames L.windows a (L.handler τ) := by
  obtain ⟨henter, hexit, -⟩ := hsite.flow.point.guarded τ outer hτ
  rw [← counterAt_self L.frames L.windows a] at henter hexit
  exact ⟨hQ, rfl, placed_self _ _, henter, hexit⟩

/-- The handlers that the activation on top of a tower may hold, and those that are saved in it. -/
theorem Tower.inBody (htower : Tower R Q L Ls inherited) :
    (∀ a σ ls vs h, AtSite R L a σ ls vs → Held Q L inherited ls σ.tries (some h) →
      InBody Q L.frames L.windows a h) ∧
    ∀ a h, L.Saves h → InBody Q L.frames L.windows a h := by
  -- A handler that is not that of the activation itself has been passed on from below.
  have hheld : ∀ {L inherited}, (∀ a h, inherited = some h → InBody Q L.frames L.windows a h) →
      ∀ a σ ls vs h, AtSite R L a σ ls vs → Held Q L inherited ls σ.tries (some h) →
      InBody Q L.frames L.windows a h := by
    intro L inherited hinherited a σ ls vs h hsite held
    generalize htries : σ.tries = ts at held
    generalize hhandler : some h = handler at held
    cases held with
    | none => cases hhandler
    | own hQ =>
      cases hhandler
      exact inBody_own hsite htries hQ
    | inherited => exact hinherited a h hhandler.symm
  induction htower with
  | ground =>
    refine ⟨hheld nofun, fun a h hs => ?_⟩
    rcases hs with ⟨f, hf, -⟩ | ⟨w, hw, -⟩
    · exact absurd hf (Array.not_mem_empty f)
    · cases hw
  | @call L Ls inherited a₀ σ₀ ls₀ vs₀ handler result f image p below wait held hresult ih =>
    have hpassed : ∀ a h, handler = some h → InBody Q
        (L.frames.push ⟨L.image, a₀, L.lower.size, handler, result⟩) L.windows a h := by
      rintro a h rfl
      exact (ih.1 a₀ σ₀ ls₀ _ h (wait .null Value.in_null) held).push (f := ⟨_, _, _, _, _⟩) a
    refine ⟨hheld hpassed, fun a h hs => ?_⟩
    rcases hs with ⟨g, hg, heq⟩ | ⟨w, hw, heq⟩
    · rcases Array.mem_push.mp hg with hg | rfl
      · exact (ih.2 a₀ h (.inl ⟨g, hg, heq⟩)).push (f := ⟨_, _, _, _, _⟩) a
      · exact hpassed a h heq
    · exact (ih.2 a₀ h (.inr ⟨w, hw, heq⟩)).push (f := ⟨_, _, _, _, _⟩) a
  | @module L Ls inherited a₀ σ₀ ls₀ vs₀ handler path image p below wait held ih =>
    have hpassed : ∀ a h, handler = some h → InBody Q L.frames
        (⟨path, L.frames.size, (L.stack ls₀ vs₀).size, L.image, a₀, L.lower.size, handler⟩ ::
          L.windows) a h := by
      rintro a h rfl
      exact (ih.1 a₀ σ₀ ls₀ _ h wait held).cons (w := ⟨_, _, _, _, _, _, _⟩) rfl a
    refine ⟨hheld nofun, fun a h hs => ?_⟩
    rcases hs with ⟨g, hg, heq⟩ | ⟨w, hw, heq⟩
    · exact (ih.2 a₀ h (.inl ⟨g, hg, heq⟩)).cons (w := ⟨_, _, _, _, _, _, _⟩) rfl a
    · rcases List.mem_cons.mp hw with rfl | hw
      · exact hpassed a h heq
      · exact (ih.2 a₀ h (.inr ⟨w, hw, heq⟩)).cons (w := ⟨_, _, _, _, _, _, _⟩) rfl a

/-- The handlers of a thread that runs compiled code. -/
theorem Runs.inBody {t : Thread} {past : List Thread} (hruns : Runs R (t :: past) Ls)
    (hkeeps : t.Keeps h) : InBody (Level.Knows (t :: past)) t.frames t.windows t.ip h := by
  obtain ⟨tower, stands, held⟩ := hruns
  obtain ⟨hheld, hsaved⟩ := tower.inBody
  rw [stands.carries.tops.frames, stands.carries.tops.windows]
  rcases hkeeps with heq | hframe | hwindow
  · exact hheld t.ip _ _ _ h stands.site (heq ▸ held)
  · exact hsaved t.ip h (.inl (stands.carries.tops.frames ▸ hframe))
  · exact hsaved t.ip h (.inr (stands.carries.tops.windows ▸ hwindow))

end

/-! ## Handlers and their statements -/

theorem Armed.length {ts : List Thread} {u : Thread} {h : Handler} {ls : List Value}
    (ha : Armed ts h u ls) : ls.length = u.stack.size - u.base := by
  induction ha with
  | arm => simp
  | keep before live keeps ih => rw [Thread.length_assignIn, ih]

/-- The handler `h` was armed by the `try` statement `τ` of the program `p`, in the activation that
`u` runs, and `ls` are the latest values of the locals around it. -/
structure ArmedBy (ts : List Thread) (h : Handler) (u : Thread) (ls : List Value) (p : Program)
    (τ : Try) : Prop where
  armed : Armed ts h u ls
  compiled : Compiled p u.image.chunk
  occurs : ∃ b k, Occurs p ⟨b, k, τ.names, τ.enter⟩ (.stmt τ.stmt)
  enter : u.ip = τ.enter
  address : h.address = τ.target
  exit : OpAt u.image.chunk τ.exit .tryExit
  locals : ls.length = τ.names.length

theorem Level.Knows.armedBy {ts : List Thread} {L : Level} {τ : Try} {vs : List Value}
    (h : L.Knows ts τ vs) : ∃ u, ArmedBy ts (L.handler τ) u vs L.program τ ∧
      u.frames = L.frames ∧ u.windows = L.windows ∧ u.image = L.image ∧ u.base = L.lower.size ∧
      u.stack.take u.base = L.lower := by
  obtain ⟨u, us, harmed, henters⟩ := h
  obtain ⟨name, hcompile⟩ := henters.compiled
  obtain ⟨k, hoccurs⟩ := henters.occurs
  have hchunk : compile L.program name = .ok u.image.chunk := henters.image ▸ hcompile
  have hlayout := hoccurs.layout (compile_layout hchunk)
  simp only [PieceAt, Try.stmt, StmtAt] at hlayout
  have hlocals : vs.length = τ.names.length := by
    rw [harmed.length, henters.stack, henters.base, Level.size_stack, henters.length]
    simp
  have hlower : u.stack.take u.base = L.lower := by
    rw [henters.base, henters.stack]
    exact prefix_take_size prefix_stack
  exact ⟨u, ⟨harmed, ⟨trivial, name, hchunk⟩, ⟨_, k, hoccurs⟩, henters.ip, rfl, hlayout.1.exit,
    hlocals⟩, henters.tops.frames, henters.tops.windows, henters.image, henters.base,
    hlower⟩

/-- The thread `t'` goes on where a failure `e` has been caught by the `try` statement `τ` of the
program `p`, in the activation that `u` runs, whose locals are `ls`. -/
structure Resumes (u : Thread) (ls : List Value) (p : Program) (τ : Try) (e : RuntimeError)
    (t' : Thread) : Prop where
  ip : t'.ip = τ.target
  block : ∃ b k, Occurs p ⟨b, k, τ.errorVar.name :: τ.names, t'.ip⟩ (.stmts τ.handler.stmts)
  frames : t'.frames = u.frames
  windows : t'.windows = u.windows
  image : t'.image = u.image
  base : t'.base = u.base
  handler : t'.handler = none
  stack : t'.stack = (u.stack.take u.base ++ ls.toArray).push (.str e.message)
  message : ∀ slot, slotOf τ.errorVar.name (τ.errorVar.name :: τ.names) = some slot →
    t'.stack[t'.base + slot]? = some (.str e.message)

section
variable {R : Realm} {Ls : List Level} {t t' : Thread} {past : List Thread} {h : Handler}
  {e : RuntimeError} {windows : List Window}

/-- A handler that is kept was armed by a `try` statement whose body its activation is in. -/
theorem InBody.armedBy (hb : InBody (Level.Knows (t :: past)) t.frames t.windows t.ip h) :
    ∃ u ls p τ, ArmedBy (t :: past) h u ls p τ ∧ u.LiveIn t ∧ τ.enter + 2 ≤ t.counterOf u ∧
      t.counterOf u ≤ τ.exit := by
  obtain ⟨known, rfl, placed, enter, exit⟩ := hb
  obtain ⟨u, harmed, hframes, hwindows, -⟩ := known.armedBy
  rw [← hframes, ← hwindows] at enter exit
  exact ⟨u, _, _, _, harmed, harmed.armed.liveIn, enter, exit⟩

theorem Caught.resumes (hc : Caught R (Level.Knows (t :: past)) Ls windows e t') :
    ∃ h u ls p τ closed, ArmedBy (t :: past) h u ls p τ ∧ windows = closed ++ u.windows ∧
      Resumes u ls p τ (arrived closed e) t' := by
  obtain @⟨L, Ls', inherited, τ, outer, vs, closed, suffix, tower, known, length, windows_eq, stands,
    ip, handler⟩ := hc
  obtain ⟨u, harmed, hframes, hwindows, himage, hbase, hlower⟩ := known.armedBy
  have hcarries := stands.carries
  have hstack : t'.stack = (u.stack.take u.base ++ vs.toArray).push
      (.str (arrived closed e).message) := by
    rw [stands.stack, Level.stack_unbind, Level.stack_cons, hlower]
    simp [Level.stack]
  refine ⟨_, u, vs, L.program, τ, closed, harmed, by rw [windows_eq, hwindows], ip, ?_,
    hcarries.tops.frames.trans hframes.symm, hcarries.tops.windows.trans hwindows.symm,
    hcarries.image.trans himage.symm, hcarries.base.trans hbase.symm, handler, hstack,
    fun slot hslot => ?_⟩
  · obtain ⟨b, k, hoccurs⟩ := harmed.occurs
    exact ⟨b, k + 1, ip ▸ hoccurs.handler⟩
  · simp only [slotOf, if_true, Option.some.injEq] at hslot
    rw [← hslot, ← length, stands.stack, hcarries.base, Level.stack_getElem? (by simp)]
    simp

end

/-- Handlers in every session whose loader gives compiled programs only and whose natives bring no
functions, bound methods, classes or instances.

A handler that is in force, or that a call or an import has saved, was armed by a `try` statement
whose activation is live and in its body, which ends with the instruction that disarms the handler.
A failure that is caught goes on in the code of the `try` statement's handler, in the activation
that has armed it, with the locals around the statement as they were last and the message of the
failure as the newest one. -/
theorem handler_in_body (host : Host) (hinert : host.Inert) (hload : host.LoadsCompiled) (P : Pool)
    (h : Reachable host Compiled P) (t : Thread) (past : List Thread) (work : Work)
    (ht : ⟨t, past, work, .running⟩ ∈ P.cells) :
    (∀ handler, t.Keeps handler → ∃ u ls p τ, ArmedBy (t :: past) handler u ls p τ ∧ u.LiveIn t ∧
      τ.enter + 2 ≤ t.counterOf u ∧ t.counterOf u ≤ τ.exit) ∧
    ∀ e s t', instruction host ⟨t, P.world⟩ = .error e s →
      s.thread.raise s.thread.windows e = .ok t' →
      ∃ handler u ls p τ closed, ArmedBy (t :: past) handler u ls p τ ∧ u.LiveIn t ∧
        t.windows = closed ++ u.windows ∧ Resumes u ls p τ (arrived closed e) t' := by
  obtain ⟨R, hR, hinert', hload', hgood⟩ := good_of_reachable hinert hload h
  obtain ⟨-, Ls, htracked, -⟩ := (hgood.cells _ ht).tracked
  refine ⟨fun handler hkeeps => (htracked.runs.inBody hkeeps).armedBy, fun e s t' hr hraise => ?_⟩
  obtain ⟨-, -, hwindows, hcaught, -⟩ := htracked.runs.failure hR hinert' hload' hgood.world hr
  obtain ⟨handler, u, ls, p, τ, closed, harmed, hclosed, hresumes⟩ := (hcaught t' hraise).resumes
  exact ⟨handler, u, ls, p, τ, closed, harmed, harmed.armed.liveIn, hwindows ▸ hclosed, hresumes⟩

/-- A program that fails where a handler is in force: `try: print m catch e: .` -/
def failsUnderTry : Program where
  stmts := [.tryCatch ⟨[.print (.var ⟨"m", ⟨12, 13⟩⟩) ⟨5, 13⟩], ⟨5, 13⟩⟩ ⟨"e", ⟨20, 21⟩⟩
    ⟨[], ⟨23, 23⟩⟩ ⟨0, 24⟩]
  span := ⟨0, 24⟩

/-- Whether the next instruction fails and a handler is in force. -/
def failsCaught (host : Host) (s : State) : Bool :=
  s.thread.handler.isSome &&
  match instruction host s with
  | .error e s => (s.thread.raise s.thread.windows e).isOk
  | .ok _ _ => false

/-- The handler in force is that of the statement, and it catches the failure. -/
theorem handler_in_body_failsUnderTry : ∃ (P : Pool) (t t' : Thread) (past : List Thread)
    (work : Work) (e : RuntimeError) (s : State),
    Reachable (Session.hostWith {} none) Compiled P ∧ ⟨t, past, work, .running⟩ ∈ P.cells ∧
      (∃ handler u ls p τ, t.handler = some handler ∧ ArmedBy (t :: past) handler u ls p τ ∧
        τ.enter + 2 ≤ t.counterOf u ∧ t.counterOf u ≤ τ.exit) ∧
      instruction (Session.hostWith {} none) ⟨t, P.world⟩ = .error e s ∧
      s.thread.raise s.thread.windows e = .ok t' ∧
      ∃ u ls p τ closed, Resumes u ls p τ (arrived closed e) t' := by
  obtain ⟨chunk, hc, hcheck⟩ := exists_compiled failsUnderTry "main"
    (fun c => match trail (Session.hostWith {} none) 1 ⟨Thread.start {} c, {}⟩ [] with
      | some (s, _) => failsCaught (Session.hostWith {} none) s
      | none => false) (by decide +kernel)
  cases hr : trail (Session.hostWith {} none) 1 ⟨Thread.start {} chunk, {}⟩ [] with
  | none =>
    rw [hr] at hcheck
    cases hcheck
  | some r =>
    obtain ⟨⟨t, w⟩, past⟩ := r
    rw [hr] at hcheck
    have hbegin : Reachable (Session.hostWith {} none) Compiled
        ⟨[] ++ ⟨Thread.start {} chunk, [], .main (some failsUnderTry), .running⟩ :: [], {}⟩ :=
      .next (.initial (t := {}) (w := {}) nofun rfl rfl rfl) (.begin hc nofun)
    have hP := reachable_trail hr hbegin
    obtain ⟨hbody, hcaught⟩ := handler_in_body (Session.hostWith {} none)
      (Natives.inert_of_callForHost rfl) nofun _ hP t _ _ List.mem_cons_self
    simp only [failsCaught, Bool.and_eq_true] at hcheck
    obtain ⟨hsome, hfails⟩ := hcheck
    obtain ⟨handler, hhandler⟩ := Option.isSome_iff_exists.mp hsome
    obtain ⟨u, ls, p, τ, harmed, -, henter, hexit⟩ := hbody handler (.inl hhandler)
    cases hinstr : instruction (Session.hostWith {} none) ⟨t, w⟩ with
    | ok v s =>
      rw [hinstr] at hfails
      cases hfails
    | error e s =>
      rw [hinstr] at hfails
      cases hraise : s.thread.raise s.thread.windows e with
      | error failure => simp [hraise, Except.isOk, Except.toBool] at hfails
      | ok t' =>
        obtain ⟨-, u', ls', p', τ', closed, -, -, -, hresumes⟩ := hcaught e s t' hinstr hraise
        exact ⟨_, t, t', past, _, e, s, hP, List.mem_cons_self,
          ⟨handler, u, ls, p, τ, hhandler, harmed, henter, hexit⟩, hinstr, hraise, u', ls', p', τ',
          closed, hresumes⟩

end DotScript.Machine
