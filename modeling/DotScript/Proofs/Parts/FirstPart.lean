import DotScript.Proofs.Compile.LoopFree
import DotScript.Proofs.Compile.Parts
import DotScript.Proofs.Correspondence.Agreement
import DotScript.Proofs.Session.Completion
import DotScript.Proofs.Session.Known
import DotScript.Proofs.Tails.Counterparts

/-!
# The first part of a program

A program runs its first statements as a program that ends with them does, in a unit of the same
name, until they are carried out. Then nothing is left of the run but globals, objects and output.

* `moved`: the functions of statements whose code stands in two chunks;
* `firstPart`: two sessions that run the first part, by itself and in the whole program;
* `ReturnsAtTop`: a `return` outside of all functions is carried out;
* `exists_exit`: both runs come behind the first part.
-/

namespace DotScript.Machine

open DotScript.Bytecode DotScript.Syntax DotScript.Semantics
open DotScript.Compile hiding expr exprs pairs stmt stmts block program

/-! ## Functions that stand elsewhere -/

/-- The functions of statements whose code stands in the units `i` and `j`, at `a` and `b`. -/
def moved (i j : Image) (a b : Nat) (ss : List Stmt) : List (Function × Function) :=
  counterparts (stmtsDeclared i a ss) (stmtsDeclared j b ss)

/-- Functions that are listed as the same. -/
def Listed (fs : List (Function × Function)) (f g : Prototype) : Prop :=
  ∃ r ∈ fs, prototype r.1 = f ∧ prototype r.2 = g

section
variable {c c' : Chunk} {i j : Image} {ns : List String} {a b : Nat} {ss : List Stmt}
  {r : Function × Function} (h : StmtsAt c ns a ss) (h' : StmtsAt c' ns b ss)
include h h'

theorem image_of_moved (hr : r ∈ moved i j a b ss) : r.1.image = i ∧ r.2.image = j :=
  image_of_counterparts (stmts_lists ss h) (stmts_lists ss h') hr

theorem header_of_moved (hr : r ∈ moved i j a b ss) : r.1.name = r.2.name ∧ r.1.arity = r.2.arity :=
  header_of_counterparts (stmts_lists ss h) (stmts_lists ss h') (StmtsExplicit.refl ss).declarations hr

theorem moved_pairwise (i j : Image) : (moved i j a b ss).Pairwise fun r r' =>
    r.1.sameCode r'.1 = false ∧ r.2.sameCode r'.2 = false :=
  (pairwise_counterparts (stmts_lists ss h) (stmts_lists ss h')).imp fun hlt =>
    ⟨sameCode_eq_false_of_lt hlt.1, sameCode_eq_false_of_lt hlt.2⟩

omit h in
/-- The functions stand within the code of the statements. -/
theorem range_of_moved (hr : r ∈ moved i j a b ss) :
    b < r.2.entry ∧ r.2.entry ≤ b + stmtsWidth ss := by
  obtain ⟨k, d, d', -, hd', rfl⟩ := mem_counterparts.mp hr
  exact (stmts_lists ss h').range d' (List.mem_of_getElem? hd')

theorem sameFunctions_of_moved (i j : Image) : SameFunctions (Listed (moved i j a b ss))
    (stmtsDeclared i a ss) (stmtsDeclared j b ss) :=
  sameFunctions_of_counterparts
    (length_eq_of_lists (stmts_lists ss h) (stmts_lists ss h') (StmtsExplicit.refl ss).declarations)
    fun r hr => ⟨r, hr, rfl, rfl⟩

theorem inStep_of_moved (hr : r ∈ moved i j a b ss) :
    InStep (Listed (moved i j a b ss)) c c' (fun _ _ => False) r.1.entry r.2.entry :=
  inStep_of_counterparts (stmts_lists ss h) (stmts_lists ss h') (StmtsExplicit.refl ss).declarations
    (sameFunctions_of_moved h h' i j) hr

/-- The same statements go in step wherever their code stands. -/
theorem stmts_stepsOn (i j : Image) {K : Nat → Nat → Prop}
    (hend : StepsOn (Listed (moved i j a b ss)) c c' K (a + stmtsWidth ss) (b + stmtsWidth ss)) :
    StepsOn (Listed (moved i j a b ss)) c c' K a b :=
  stmts_inStep (StmtsExplicit.refl ss) h h' (sameFunctions_of_moved h h' i j) hend

end

theorem function_of_listed {i j : Image} {fs : List (Function × Function)}
    (himage : ∀ r ∈ fs, r.1.image = i ∧ r.2.image = j) {f g : Prototype} (h : Listed fs f g) :
    ((⟨f.name, f.arity, f.entry, i⟩, ⟨g.name, g.arity, g.entry, j⟩) : Function × Function) ∈ fs := by
  obtain ⟨r, hr, rfl, rfl⟩ := h
  obtain ⟨hi, hj⟩ := himage r hr
  rw [← hi, ← hj]
  exact hr

/-! ## Both units -/

/-- Behind the statements of a program, in the code of two units. -/
def Behind (p : Program) (x y : Nat) : Prop := x = stmtsWidth p.stmts ∧ y = stmtsWidth p.stmts

/-- Two sessions of which one runs the first part of a program, with the chunk `c`, and the other one
the whole program, with the chunk `c'`, as a unit of the same name. Both chunks begin with `d`. The
main thread has not loaded more than `m` units. -/
def firstPart (unit : ImageId) (m : Nat) (p : Program) (d c c' : Chunk) : Relocation where
  units u v := u = v ∧ (u.thread = unit.thread → u.serial ≠ unit.serial ∧ u.serial < m)
  functions := moved ⟨unit, c⟩ ⟨unit, c'⟩ 0 0 p.stmts
  places i a j b := i = ⟨unit, c⟩ ∧ j = ⟨unit, c'⟩ ∧
    StepsOn (Listed (moved ⟨unit, c⟩ ⟨unit, c'⟩ 0 0 p.stmts)) d d (Behind p) a b
  fresh id n := (id = unit.thread ∧ unit.serial < n ∧ n ≤ m) ∨ unit.thread.length < id.length
  lead _ := 0

section
variable {unit : ImageId} {m : Nat} {p q : Program} {d c c' : Chunk} (h : CommonStart p q d c c')
include h

theorem firstPart_valid : (firstPart unit m p d c c').Valid where
  unique h h' := by rw [h.1, h'.1]
  apart r hr u := by
    obtain ⟨himage, himage'⟩ := image_of_moved h.layout h.layout hr
    rw [himage, himage']
    refine ⟨fun hu => (hu.2 rfl).1 rfl, fun hu => ?_⟩
    obtain ⟨rfl, hu⟩ := hu
    exact (hu rfl).1 rfl
  header r hr := header_of_moved h.layout h.layout hr
  distinct := moved_pairwise h.layout h.layout _ _
  entry r hr := by
    obtain ⟨himage, himage'⟩ := image_of_moved h.layout h.layout hr
    refine ⟨himage, himage', .inr ((inStep_of_moved h.layout h.layout hr).mono ?_)⟩
    exact fun _ _ => False.elim
  load := by
    rintro id n hfresh hnext
    refine ⟨rfl, fun heq => ?_⟩
    change id = unit.thread at heq
    subst heq
    rcases hfresh with ⟨-, hlt, -⟩ | hlength
    · rcases hnext with ⟨-, -, hle⟩ | hlength
      · exact ⟨Nat.ne_of_gt hlt, hle⟩
      · exact absurd hlength (Nat.lt_irrefl _)
    · exact absurd hlength (Nat.lt_irrefl _)
  child := by
    rintro id n hfresh k
    refine ⟨.inr ?_, rfl⟩
    rcases hfresh with ⟨rfl, -⟩ | hlength
    · exact Nat.lt_succ_self _
    · exact Nat.lt_succ_of_lt hlength

/-- The two runs stay together until they are behind the first part. -/
theorem firstPart_places {i j : Image} {a b : Nat}
    (hplace : (firstPart unit m p d c c').correspondence.place i a j b) :
    Leads (firstPart unit m p d c c').correspondence i a j b ∨
      (i = ⟨unit, c⟩ ∧ j = ⟨unit, c'⟩ ∧ Behind p a b) := by
  rcases hplace with ⟨hid, hchunk, rfl⟩ | ⟨rfl, rfl, hsteps⟩
  · exact .inl (.meets (Relocation.meets_units hid hchunk a))
  · rcases hsteps with hbehind | hstep
    · exact .inr ⟨rfl, rfl, hbehind⟩
    · refine .inl (hstep.leads h.alone h.whole (fun f g hfg => .inr ?_) fun x y hxy => ?_)
      · exact function_of_listed (fun r hr => image_of_moved h.layout h.layout hr) hfg
      · exact .inr ⟨rfl, rfl, hxy⟩

omit h in
/-- What was known before counts as the same. -/
theorem known_within (hm : unit.serial < m) :
    (known unit.thread unit.serial).correspondence.Within (firstPart unit m p d c c').correspondence where
  function := by
    intro f g hfg
    obtain ⟨rfl, hknown⟩ := known_same hfg
    refine .inl ⟨⟨rfl, fun hid => ?_⟩, rfl, rfl, rfl, rfl⟩
    have hlt := hknown hid
    exact ⟨Nat.ne_of_lt hlt, Nat.lt_trans hlt hm⟩
  fresh := by
    rintro id n (⟨rfl, -⟩ | hlength)
    · exact ⟨unit.serial + 1, .inl ⟨rfl, Nat.lt_succ_self _, hm⟩⟩
    · exact ⟨0, .inr hlength⟩
  numbers := rfl

end

/-! ## Both runs -/

/-- Threads at rest that begin to run correspond where more is the same. -/
theorem starts_like {C C' : Correspondence} (hC : C.Within C') {s s' : State} (h : s.Like C s')
    (hwindows : s.thread.windows = []) (hlead : C.lead s'.thread.id = C'.lead s'.thread.id)
    (hfresh : C'.fresh s'.thread.id (s'.thread.loaded + 1)) (c c' : Chunk) :
    (s.start c).Like C' (s'.start c') where
  thread := {
    id := h.thread.id
    globals := hC.values h.thread.globals
    stack := .empty
    frames := .empty
    base := rfl
    handler := .none
    windows := by
      have hnone := h.thread.windows
      rw [hwindows] at hnone
      simp only [State.start, Thread.start, hwindows, List.forall₂_nil_left_iff.mp hnone]
      exact .nil
    imports := h.thread.imports
    loaded := by
      simp only [State.start, Thread.start, h.thread.loaded, hlead]
      omega
    spawned := h.thread.spawned
    fresh := hfresh }
  world := h.world.mono hC

/-- A `return` of a program that stands in no function is carried out in the run from `s`, with no
call and no import in progress. -/
def ReturnsAtTop (host : Host) (p : Program) (s : State) : Prop :=
  ∃ s' handlers ns a value span, Reaches host s s' ∧
    s'.thread.frames = #[] ∧ s'.thread.windows = [] ∧
    Occurs p ⟨true, handlers, ns, a⟩ (.stmt (.ret value span)) ∧
    s'.thread.ip = a + optionalWidth value

/-- A statement that is a `return`. -/
def isReturn : Stmt → Bool
  | .ret _ _ => true
  | _ => false

theorem not_returnsAtTop {host : Host} {p : Program} {s : State}
    (h : stmtsAvoid isReturn p.stmts = true) : ¬ ReturnsAtTop host p s := by
  rintro ⟨s', handlers, ns, a, value, span, -, -, -, hoccurs, -⟩
  have havoids : (Stmt.ret value span).avoids isReturn = true := hoccurs.avoids h
  exact Bool.noConfusion (not_kind_of_avoids havoids)

/-- Two states behind the first part, where nothing but globals, objects and output is left of the
run. -/
structure Exited (unit : ImageId) (m : Nat) (p : Program) (d c c' : Chunk) (s s' : State) : Prop where
  like : s.Like (firstPart unit m p d c c').correspondence s'
  cleared : s.thread.Cleared
  id : s.thread.id = unit.thread
  image : s'.thread.image = ⟨unit, c'⟩
  ip : s'.thread.ip = stmtsWidth p.stmts

section
variable {host : Host} {p q : Program} {d c c' : Chunk} {s s₁ : State} {v : Value}

/-- A run of the first part goes on to no unit beyond the last one that it has loaded in the end. -/
theorem not_leaves_of_halts {unit : ImageId} {s s₂ s₂' : State} (hhalts : Halts host s (.ok v) s₁)
    (hreaches : Reaches host s s₂) :
    ¬ s₂.thread.Leaves (firstPart unit s₁.thread.loaded p d c c').correspondence s₂'.thread := by
  rintro ⟨n, hfresh, hnot, hloaded, -⟩
  rcases hfresh with ⟨hid, hlt, -⟩ | hlength
  · have hle : s₂.thread.loaded ≤ s₁.thread.loaded := (later_of_halts (hhalts.after hreaches)).loaded
    refine hnot (.inl ⟨hid, Nat.lt_succ_of_lt hlt, ?_⟩)
    rw [hloaded] at hle
    exact hle
  · exact hnot (.inr hlength)

/-- A run of the first part that ends without a `return` comes behind it, and so does that of the
whole program. -/
theorem exists_exit (hinert : host.Inert) (hload : host.LoadsCompiled)
    (hhost : ∀ C : Correspondence, Interchangeable C.function → host.Respects C)
    (hs : s.OfCode) (hknown : s.Known) (hc : Compiled p c) (h : CommonStart p q d c c')
    (hhalts : Halts host (s.start c) (.ok v) s₁) (hreturn : ¬ ReturnsAtTop host p (s.start c)) :
    ∃ s₂ s₂', Reaches host (s.start c') s₂' ∧
      Exited ⟨s.thread.id, s.thread.loaded⟩ s₁.thread.loaded p d c c' s₂ s₂' ∧
      s₁ = ⟨{ s₂.thread with ip := s₂.thread.ip + 3 }, s₂.world⟩ := by
  let unit : ImageId := ⟨s.thread.id, s.thread.loaded⟩
  let m : Nat := s₁.thread.loaded
  have hm : unit.serial < m := (later_of_halts hhalts).loaded
  have hprogram : ProgramAt c p := by
    obtain ⟨name, hcompile⟩ := hc.compiled
    exact compile_layout hcompile
  obtain ⟨R, hR, hinertR, hloadR, Ls, hunderway⟩ := hs.exists_underway hinert hload hc
  -- Before the runs, all units but the one that is loaded next are known.
  have hfresh : (firstPart unit m p d c c').fresh s.thread.id (s.thread.loaded + 1) :=
    .inl ⟨rfl, Nat.lt_succ_self _, hm⟩
  have hwithin : (known unit.thread unit.serial).correspondence.Within
      (firstPart unit m p d c c').correspondence := known_within hm
  have hstart := starts_like hwithin hknown hs.windows rfl hfresh c c'
  have hvalid : (firstPart unit m p d c c').Valid := firstPart_valid h
  have hplace : (s.start c).thread.AtPlace (firstPart unit m p d c c').correspondence
      (s.start c').thread := by
    refine .inr ⟨rfl, rfl, stmts_stepsOn h.layout h.layout _ _ (.inl ⟨?_, ?_⟩)⟩
    · exact Nat.zero_add _
    · exact Nat.zero_add _
  cases arrives_like hvalid.correspondence_sound (hhost _ hvalid.interchangeable)
    (firstPart_places h) (fun _ _ => not_leaves_of_halts hhalts) hstart hplace hhalts with
  | @exits s₂ s₂' left right like place =>
    obtain ⟨himage, himage', hip, hip'⟩ := place
    have hid := (later_of_reaches left).id
    have hafter := hhalts.after left
    obtain ⟨n, hsteps⟩ := left
    obtain ⟨past', Ls', hunderway'⟩ := hunderway.steps hR hinertR hloadR hsteps
    have hcleared := hunderway'.cleared (Nat.lt_succ_self _) hprogram himage hip
    refine ⟨s₂, s₂', right, ⟨like, hcleared, hid, himage', hip'⟩, ?_⟩
    obtain ⟨-, hnull, hret, -⟩ := hprogram
    refine hcleared.halts ?_ ?_ hafter
    · rw [himage, hip]
      exact hnull
    · rw [himage, hip]
      exact hret
  | @finishes s₂ s₂' left place ends =>
    exfalso
    have hreaches := left
    obtain ⟨n, hsteps⟩ := left
    obtain ⟨past', Ls', hunderway'⟩ := hunderway.steps hR hinertR hloadR hsteps
    obtain ⟨hframes, hnone, himage, k, hends⟩ := hunderway'.finished hR hinertR hloadR rfl ends
    cases hends with
    | @ret ns a value span hoccurs ha =>
      exact hreturn ⟨s₂, k, ns, a, value, span, hreaches, hframes, hnone, hoccurs, ha⟩
    | last ha =>
      replace ha : s₂.thread.ip = stmtsWidth p.stmts + 2 := ha
      rcases place with ⟨⟨-, hunit⟩, -⟩ | ⟨-, -, hbehind | hstep⟩
      · rw [himage] at hunit
        exact (hunit rfl).1 rfl
      · rw [hbehind.1] at ha
        omega
      · have hlt := hstep.lt_size
        rw [h.size, ha] at hlt
        omega

end

end DotScript.Machine
