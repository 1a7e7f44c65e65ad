import DotScript.Proofs.Parts.FirstPart

/-!
# Programs run in two parts

Running the first statements of a program as one unit and the rest as another does the same as running
the program as one unit. When the first part has been carried out, the second unit stands where the
whole program goes on. From there on both sessions correspond: the functions of both parts have
counterparts in the whole program, and units that are loaded later are one number further on.

* `bothParts`: two sessions of which one runs both parts, and the other one the whole program;
* `Exited.like_start`: they correspond where the second part begins;
* `Evolves.between`: in which states the first part may begin.

Main statement: `agree_of_append`.
-/

namespace DotScript.Machine

open DotScript.Bytecode DotScript.Syntax DotScript.Semantics
open DotScript.Compile hiding expr exprs pairs stmt stmts block program

/-! ## The second part -/

/-- Two sessions of which one has run the first part of a program, with the chunk `c`, and runs the
second part, with the chunk `c₂`, as the unit with the number `m`. The other one runs the whole program,
with the chunk `c'`. -/
def bothParts (unit : ImageId) (m : Nat) (p q : Program) (d c c₂ c' : Chunk) : Relocation where
  units u v := (u = v ∧ (u.thread = unit.thread → u.serial ≠ unit.serial ∧ u.serial < m)) ∨
    (u.thread = unit.thread ∧ v.thread = unit.thread ∧ m ≤ v.serial ∧ u.serial = v.serial + 1)
  functions := moved ⟨unit, c⟩ ⟨unit, c'⟩ 0 0 p.stmts ++
    moved ⟨⟨unit.thread, m⟩, c₂⟩ ⟨unit, c'⟩ 0 (stmtsWidth p.stmts) q.stmts
  places i a j b :=
    (i = ⟨unit, c⟩ ∧ j = ⟨unit, c'⟩ ∧
      InStep (Listed (moved ⟨unit, c⟩ ⟨unit, c'⟩ 0 0 p.stmts)) d d (fun _ _ => False) a b) ∨
    (i = ⟨⟨unit.thread, m⟩, c₂⟩ ∧ j = ⟨unit, c'⟩ ∧
      InStep (Listed (moved ⟨⟨unit.thread, m⟩, c₂⟩ ⟨unit, c'⟩ 0 (stmtsWidth p.stmts) q.stmts)) c₂ c'
        (fun _ _ => False) a b)
  fresh id n := (id = unit.thread ∧ m ≤ n) ∨ unit.thread.length < id.length
  lead id := if id = unit.thread then 1 else 0

section
variable {unit : ImageId} {m : Nat} {p q : Program} {d c c₂ c' : Chunk}

theorem bothParts_unique {u v u' v' : ImageId} (h : (bothParts unit m p q d c c₂ c').units u v)
    (h' : (bothParts unit m p q d c c₂ c').units u' v') : u = u' ↔ v = v' := by
  rcases h with ⟨rfl, hu⟩ | ⟨hu, hv, hlt, hserial⟩ <;> rcases h' with ⟨rfl, hu'⟩ | ⟨hu', hv', hlt', hserial'⟩
  · exact Iff.rfl
  · constructor
    · rintro rfl
      have hlt := (hu hu').2
      omega
    · rintro rfl
      have hlt := (hu hv').2
      omega
  · constructor
    · rintro rfl
      have hlt := (hu' hu).2
      omega
    · rintro rfl
      have hlt := (hu' hv).2
      omega
  · obtain ⟨thread, serial⟩ := u
    obtain ⟨thread', serial'⟩ := u'
    obtain ⟨_, k⟩ := v
    obtain ⟨_, k'⟩ := v'
    dsimp only at hu hu' hv hv' hserial hserial'
    subst hu hu' hv hv' hserial hserial'
    simp only [ImageId.mk.injEq, true_and, Nat.add_right_cancel_iff]

theorem not_units_first (hm : unit.serial < m) (u : ImageId) :
    ¬ (bothParts unit m p q d c c₂ c').units unit u ∧ ¬ (bothParts unit m p q d c c₂ c').units u unit := by
  constructor
  · rintro (⟨-, hu⟩ | ⟨-, -, hle, hserial⟩)
    · exact (hu rfl).1 rfl
    · omega
  · rintro (⟨rfl, hu⟩ | ⟨-, -, hle, -⟩)
    · exact (hu rfl).1 rfl
    · omega

theorem not_units_second (u : ImageId) :
    ¬ (bothParts unit m p q d c c₂ c').units ⟨unit.thread, m⟩ u := by
  rintro (⟨-, hu⟩ | ⟨-, -, hle, hserial⟩)
  · exact Nat.lt_irrefl _ (hu rfl).2
  · dsimp only at hserial
    omega

variable (hm : unit.serial < m) (h : CommonStart p q d c c') (h₂ : ProgramAt c₂ q)
include hm h h₂

theorem bothParts_valid : (bothParts unit m p q d c c₂ c').Valid where
  unique := bothParts_unique
  apart r hr u := by
    rcases List.mem_append.mp hr with hr | hr
    · obtain ⟨himage, himage'⟩ := image_of_moved h.layout h.layout hr
      rw [himage, himage']
      exact not_units_first hm u
    · obtain ⟨himage, himage'⟩ := image_of_moved h₂.1 h.rest hr
      rw [himage, himage']
      exact ⟨not_units_second u, (not_units_first hm u).2⟩
  header r hr := by
    rcases List.mem_append.mp hr with hr | hr
    · exact header_of_moved h.layout h.layout hr
    · exact header_of_moved h₂.1 h.rest hr
  distinct := by
    refine List.pairwise_append.mpr ⟨moved_pairwise h.layout h.layout _ _,
      moved_pairwise h₂.1 h.rest _ _, fun r hr r' hr' => ⟨?_, ?_⟩⟩
    · have himage := (image_of_moved h.layout h.layout hr).1
      have himage' := (image_of_moved h₂.1 h.rest hr').1
      refine sameCode_of_id_ne fun heq => ?_
      rw [himage, himage'] at heq
      have hserial : unit.serial = m := congrArg ImageId.serial heq
      exact Nat.ne_of_lt hm hserial
    · -- In the whole program the functions of the second part stand behind those of the first.
      have hfirst := (range_of_moved h.layout hr).2
      have hsecond := (range_of_moved h.rest hr').1
      exact sameCode_eq_false_of_lt (by omega)
  entry r hr := by
    rcases List.mem_append.mp hr with hr | hr
    · obtain ⟨himage, himage'⟩ := image_of_moved h.layout h.layout hr
      exact .inl ⟨himage, himage', inStep_of_moved h.layout h.layout hr⟩
    · obtain ⟨himage, himage'⟩ := image_of_moved h₂.1 h.rest hr
      exact .inr ⟨himage, himage', inStep_of_moved h₂.1 h.rest hr⟩
  load := by
    rintro id n (⟨rfl, hle⟩ | hlength) -
    · refine .inr ⟨rfl, rfl, hle, ?_⟩
      simp only [bothParts, if_true]
    · have hne : id ≠ unit.thread := fun heq => Nat.lt_irrefl _ (heq ▸ hlength)
      refine .inl ⟨?_, fun heq => absurd heq hne⟩
      simp only [bothParts, hne, if_false, Nat.add_zero]
  child := by
    rintro id n hfresh k
    have hlength : unit.thread.length < (k :: id).length := by
      rcases hfresh with ⟨rfl, -⟩ | hlength
      · exact Nat.lt_succ_self _
      · exact Nat.lt_succ_of_lt hlength
    have hne : k :: id ≠ unit.thread := fun heq => Nat.lt_irrefl _ (heq ▸ hlength)
    refine ⟨.inr hlength, ?_⟩
    simp only [bothParts, hne, if_false]

theorem bothParts_lasting : (bothParts unit m p q d c c₂ c').correspondence.Lasting where
  toSound := (bothParts_valid hm h h₂).correspondence_sound
  next := Or.imp_left fun hfresh => ⟨hfresh.1, Nat.le_succ_of_le hfresh.2⟩

omit hm in
theorem bothParts_closed : (bothParts unit m p q d c c₂ c').correspondence.Closed := by
  refine Relocation.closed ?_
  rintro _ a _ b (⟨rfl, rfl, hstep⟩ | ⟨rfl, rfl, hstep⟩)
  · refine hstep.leads h.alone h.whole (fun f g hfg => .inr (List.mem_append_left _ ?_)) ?_
    · exact function_of_listed (fun r hr => image_of_moved h.layout h.layout hr) hfg
    · exact fun x y hxy => .inr (.inl ⟨rfl, rfl, hxy.resolve_left id⟩)
  · refine hstep.leads (Begins.refl _) (Begins.refl _)
      (fun f g hfg => .inr (List.mem_append_right _ ?_)) ?_
    · exact function_of_listed (fun r hr => image_of_moved h₂.1 h.rest hr) hfg
    · exact fun x y hxy => .inr (.inr ⟨rfl, rfl, hxy.resolve_left id⟩)

omit hm in
/-- The second part goes in step with the rest of the whole program. -/
theorem secondPart_inStep : InStep
    (Listed (moved ⟨⟨unit.thread, m⟩, c₂⟩ ⟨unit, c'⟩ 0 (stmtsWidth p.stmts) q.stmts)) c₂ c'
    (fun _ _ => False) 0 (stmtsWidth p.stmts) := by
  obtain ⟨hstmts, hnull, hret, -⟩ := h₂
  refine (stmts_stepsOn hstmts h.rest _ _ (.inr ?_)).resolve_left id
  rw [Nat.zero_add]
  exact null_inStep hnull h.null (.inr (.of_twin (.ret hret h.ret)))

omit hm h h₂ in
/-- What was the same in the first part is so in the second one. -/
theorem firstPart_within : (firstPart unit m p d c c').correspondence.Within
    (bothParts unit m p q d c c₂ c').correspondence where
  function := by
    rintro f g (hfg | hfg)
    · exact .inl ⟨.inl hfg.units, hfg.chunk, hfg.name, hfg.arity, hfg.entry⟩
    · exact .inr (List.mem_append_left _ hfg)
  fresh := by
    rintro id n (⟨hid, -⟩ | hlength)
    · exact ⟨m, .inl ⟨hid, Nat.le_refl _⟩⟩
    · exact ⟨0, .inr hlength⟩
  numbers := rfl

end

/-! ## Where the second part begins -/

/-- A thread that corresponds to one on which nothing is left of a run is itself such a one. -/
theorem Thread.Cleared.of_like {C : Correspondence} {t t' : Thread} (h : t.Cleared)
    (hlike : t.Like C t') : t'.Cleared where
  frames := by
    have hsize := hlike.frames.size_eq
    rw [h.frames] at hsize
    exact Array.eq_empty_of_size_eq_zero hsize.symm
  windows := by
    have hwindows := hlike.windows
    rw [h.windows] at hwindows
    exact List.forall₂_nil_left_iff.mp hwindows
  stack := by
    have hsize := hlike.stack.size_eq
    rw [h.stack] at hsize
    exact Array.eq_empty_of_size_eq_zero hsize.symm
  base := hlike.base.symm.trans h.base
  handler := by
    have hhandler := hlike.handler
    rw [h.handler] at hhandler
    generalize t'.handler = handler at hhandler
    cases hhandler
    rfl

/-- Behind the first part, the second part begins on the one side where the whole program goes on on
the other. -/
theorem Exited.like_start {unit : ImageId} {m : Nat} {p q : Program} {d c c₂ c' : Chunk}
    {s s' : State} (h : Exited unit m p d c c' s s') (hm : s.thread.loaded = m) :
    (s.start c₂).Like (bothParts unit m p q d c c₂ c').correspondence s' := by
  have hlike := h.like.thread
  have hcleared := h.cleared.of_like hlike
  have hid : s'.thread.id = unit.thread := hlike.id.symm.trans h.id
  have hloaded : s.thread.loaded = s'.thread.loaded := hlike.loaded
  have hthread : (s.thread.start c₂).Like (bothParts unit m p q d c c₂ c').correspondence s'.thread :=
    { id := hlike.id
      globals := firstPart_within.values hlike.globals
      stack := by
        rw [hcleared.stack]
        exact .empty
      frames := by
        rw [hcleared.frames]
        exact .empty
      base := hcleared.base.symm
      handler := by
        rw [hcleared.handler]
        exact .none
      windows := by
        rw [hcleared.windows]
        simp only [Thread.start, h.cleared.windows]
        exact .nil
      imports := hlike.imports
      loaded := by
        simp only [Thread.start, Relocation.correspondence, bothParts, hid, if_true, hloaded]
      spawned := hlike.spawned
      fresh := .inl ⟨hid, Nat.le_of_eq (hm.symm.trans hloaded)⟩ }
  exact ⟨hthread, h.like.world.mono firstPart_within⟩

/-! ## Both parts and the whole program -/

/-- The main thread of a session that runs and loads compiled programs only is between two runs as
`agree_of_append` asks, whatever comes of the session. -/
theorem Evolves.between {host : Host} (hinert : host.Inert) (hload : host.LoadsCompiled)
    (hhost : ∀ C : Correspondence, Interchangeable C.function → host.Respects C) {t : Thread}
    {past : List Thread} {work : Work} {activity : Activity} {cells : List Cell} {w : World}
    (hP : Evolves host Compiled ⟨⟨t, past, work, activity⟩ :: cells, w⟩)
    (hidle : activity ≠ .running) : State.OfCode ⟨t, w⟩ ∧ State.Known ⟨t, w⟩ := by
  obtain ⟨id, hknown⟩ := exists_known hhost hP
  exact ⟨hP.reachable.ofCode hinert hload hidle, hknown.state⟩

/-- Splitting a program in two parts does not change what it does. Let a program that compiles consist
of the statements of `p` followed by those of `q`. Then these compile as well. Take a thread between two
runs of a session, whatever programs the session has run before, whatever its objects are, and whatever
spawned calls wait: no import is in progress, the functions that the thread can get at are those of
compiled programs, and the unit that it loads next is new to them. If a run of `p` on this thread ends
without failure, and without a `return` outside of all functions, then run `q` where it ends. That run
ends exactly if a run of the whole program in the first state does, with the same result or failure,
output and globals. In values only functions may differ: for each there is one with the same name and
parameters, and comparing functions comes out the same. -/
theorem agree_of_append (host : Host) (hinert : host.Inert) (hload : host.LoadsCompiled)
    (hhost : ∀ C : Correspondence, Interchangeable C.function → host.Respects C) (p q whole : Program)
    (hwhole : whole.stmts = p.stmts ++ q.stmts) (name : String) (c' : Chunk)
    (hc' : compile whole name = .ok c') (s₀ : State) (hs : s₀.OfCode) (hknown : s₀.Known) :
    ∃ c c₂, compile p name = .ok c ∧ compile q name = .ok c₂ ∧ ∀ v s,
      (∃ fuel, interpret host fuel c s₀ = some (.ok v, s)) → ¬ ReturnsAtTop host p (s₀.start c) →
      ∃ F, Interchangeable F ∧ RunsAgree F host c₂ s c' s₀ := by
  obtain ⟨c, c₂, d, hc, hc₂, hshared⟩ := compiles_of_append hwhole hc'
  refine ⟨c, c₂, hc, hc₂, fun v s hrun hreturn => ?_⟩
  obtain ⟨s₁, hhalts, rfl⟩ := interpret_eq_some_iff.mp hrun
  obtain ⟨s₂, s₂', hreaches, hexited, hs₁⟩ := exists_exit hinert hload hhost hs hknown
    ⟨trivial, name, hc⟩ hshared hhalts hreturn
  have hloaded : s₂.thread.loaded = s₁.thread.loaded := by rw [hs₁]
  have hm : s₀.thread.loaded < s₁.thread.loaded := (later_of_halts hhalts).loaded
  let unit : ImageId := ⟨s₀.thread.id, s₀.thread.loaded⟩
  let L : Relocation := bothParts unit s₁.thread.loaded p q d c c₂ c'
  have hlayout : ProgramAt c₂ q := compile_layout hc₂
  have hvalid : L.Valid := bothParts_valid hm hshared hlayout
  have hlasting : L.correspondence.Lasting := bothParts_lasting hm hshared hlayout
  have hclosed : L.correspondence.Closed := bothParts_closed hshared hlayout
  have hlike : (s₂.start c₂).Like L.correspondence s₂' := hexited.like_start hloaded
  have hplace : (s₂.start c₂).thread.AtPlace L.correspondence s₂'.thread := by
    refine .inr (.inr ⟨?_, hexited.image, ?_⟩)
    · simp only [State.start, Thread.start, hexited.id, hloaded, unit]
    · rw [hexited.ip]
      exact secondPart_inStep hshared hlayout
  have hstart : State.start ⟨leftBy (.ok v) s₁.thread, s₁.world⟩ c₂ = s₂.start c₂ := by
    rw [hs₁]
    rfl
  rw [← hstart] at hlike hplace
  exact ⟨L.Same, hvalid.interchangeable, runsAgree_of_reaches hlasting hclosed
    (hhost _ hvalid.interchangeable) rfl hreaches hlike hplace⟩

/-- `fun same x: x .` -/
def declaresSame : Program where
  stmts :=
    [.function ⟨⟨"same", ⟨4, 8⟩⟩, [⟨"x", ⟨9, 10⟩⟩], ⟨[.expr (.var ⟨"x", ⟨12, 13⟩⟩)], ⟨12, 15⟩⟩,
      ⟨0, 15⟩⟩]
  span := ⟨0, 15⟩

/-- `print same(same) == same` -/
def comparesSame : Program where
  stmts :=
    [.print (.binary .eq (.call (.var ⟨"same", ⟨22, 26⟩⟩) [.var ⟨"same", ⟨27, 31⟩⟩] ⟨22, 32⟩)
      (.var ⟨"same", ⟨36, 40⟩⟩) ⟨22, 40⟩) ⟨16, 40⟩]
  span := ⟨16, 40⟩

def declaresAndComparesSame : Program := ⟨declaresSame.stmts ++ comparesSame.stmts, ⟨0, 40⟩⟩

/-- The code runs to its end in a few steps. -/
def runsWell : Except CompileError Chunk → Bool
  | .ok c => match interpret (Session.hostWith {} none) 6 c ⟨{}, {}⟩ with
    | some (.ok _, _) => true
    | _ => false
  | .error _ => false

/-- A function that one entry at the prompt declares is equal to itself in the next one, too. -/
theorem agree_of_append_same : ∃ c c₂ c' v s F,
    compile declaresSame "main" = .ok c ∧ compile comparesSame "main" = .ok c₂ ∧
    compile declaresAndComparesSame "main" = .ok c' ∧
    (∃ fuel, interpret (Session.hostWith {} none) fuel c ⟨{}, {}⟩ = some (.ok v, s)) ∧
    ¬ ReturnsAtTop (Session.hostWith {} none) declaresSame (State.start ⟨{}, {}⟩ c) ∧
    Interchangeable F ∧ RunsAgree F (Session.hostWith {} none) c₂ s c' ⟨{}, {}⟩ := by
  have hcompiles : (compile declaresAndComparesSame "main").toBool = true := by decide +kernel
  let host : Host := Session.hostWith {} none
  have hinert : host.Inert := Natives.inert_of_callForHost rfl
  have hhost (C : Correspondence) (hC : Interchangeable C.function) : host.Respects C :=
    Natives.respects_of_callForHost hC rfl
  have hP : Evolves host Compiled ⟨[⟨{}, [], .main none, .idle⟩], {}⟩ := .initial (.mk nofun rfl rfl)
  obtain ⟨hs, hknown⟩ := hP.between hinert nofun hhost nofun
  cases hc' : compile declaresAndComparesSame "main" with
  | error e =>
    rw [hc'] at hcompiles
    cases hcompiles
  | ok c' =>
    obtain ⟨c, c₂, hc, hc₂, hagree⟩ := agree_of_append host hinert nofun hhost declaresSame
      comparesSame declaresAndComparesSame rfl "main" c' hc' _ hs hknown
    have hends : runsWell (compile declaresSame "main") = true := by decide +kernel
    rw [hc, runsWell] at hends
    have hreturn : ¬ ReturnsAtTop (Session.hostWith {} none) declaresSame (State.start ⟨{}, {}⟩ c) :=
      not_returnsAtTop (by decide)
    cases hrun : interpret (Session.hostWith {} none) 6 c ⟨{}, {}⟩ with
    | none =>
      rw [hrun] at hends
      cases hends
    | some r =>
      obtain ⟨result, s⟩ := r
      cases result with
      | error e =>
        rw [hrun] at hends
        cases hends
      | ok v =>
        obtain ⟨F, hF, hruns⟩ := hagree v s ⟨6, hrun⟩ hreturn
        exact ⟨c, c₂, c', v, s, F, hc, hc₂, rfl, ⟨6, hrun⟩, hreturn, hF, hruns⟩

end DotScript.Machine
