import DotScript.Proofs.Correctness.Expressions
import DotScript.Proofs.Semantics.Declared

/-!
# Statements

The machine follows a statement to the end of its code, with the stack as it was. Control flow comes
first, for any code in its branches: `branch_follows`, `loop_follows`, `guarded_follows`. Statements
are then followed by recursion on the tree.
-/

namespace DotScript.Correctness

open DotScript.Machine DotScript.Semantics DotScript.Bytecode DotScript.Syntax
open DotScript.Compile hiding expr exprs pairs stmt stmts block

/-! ## Control flow -/

section
variable {host : Host} {n : Nat} {x : Activation} {id : ThreadId} {image : Image}
  {ns : List String} {a : Nat} {σ : Store} {temps : Array Value} {α : Type}

theorem instruction_jump_state {target : Nat} (hx : x.Sound id image ns.length)
    (h : JumpAt image.chunk a .jump target) :
    instruction host (x.state a σ temps) = .ok none (x.state target σ temps) := by
  obtain rfl := hx.image
  exact instruction_jump host (t := (x.state a σ temps).thread) h

theorem instruction_pop_state (temps : Array Value) (v : Value) (hx : x.Sound id image ns.length)
    (h : OpAt image.chunk a .pop) :
    instruction host (x.state a σ (temps.push v)) = .ok none (x.state (a + 1) σ temps) := by
  obtain rfl := hx.image
  exact instruction_pop host (t := (x.state a σ (temps.push v)).thread) h (stack_push ..)

theorem instruction_jumpIfFalse_state {target : Nat} (host : Host) (σ : Store)
    (temps : Array Value) (v : Value) (hx : x.Sound id image ns.length)
    (h : JumpAt image.chunk a .jumpIfFalse target) :
    instruction host (x.state a σ (temps.push v)) =
      .ok none (x.state (if v.isFalsey then target else a + 2) σ temps) := by
  obtain rfl := hx.image
  exact instruction_jumpIfFalse host (t := (x.state a σ (temps.push v)).thread) h (stack_push ..)

/-- One of two branches. What they leave on the stack may depend on their results. -/
theorem branch_follows {thenWidth elseWidth : Nat} (left : α → Array Value) {v : Value}
    {y z : Eval α} (hx : x.Sound id image ns.length)
    (h : BranchAt image.chunk a thenWidth elseWidth)
    (hthen : Follows host n x ns (x.state (a + 2) σ #[])
      (fun r σ' => x.state (a + 2 + thenWidth) σ' (left r)) (y σ))
    (helse : Follows host n x ns (x.state (a + 2 + thenWidth + 2) σ #[])
      (fun r σ' => x.state (a + 2 + thenWidth + 2 + elseWidth) σ' (left r)) (z σ)) :
    Follows host n x ns (x.state a σ #[v])
      (fun r σ' => x.state (a + 2 + thenWidth + 2 + elseWidth) σ' (left r))
      ((if v.isFalsey then z else y) σ) := by
  have hinstr := instruction_jumpIfFalse_state host σ #[] v hx h.toElse
  cases hv : v.isFalsey with
  | true =>
    simp only [hv, if_true] at hinstr ⊢
    exact Follows.step hinstr helse
  | false =>
    simp only [hv, Bool.false_eq_true, if_false] at hinstr ⊢
    exact Follows.step hinstr (hthen.andThen fun r σ' _ => instruction_jump_state hx h.toEnd)

/-- A loop, for at most as many rounds as the machine has steps. -/
theorem loop_follows {condWidth bodyWidth : Nat} {cond : Eval Value} {body : Eval Unit}
    (hx : x.Sound id image ns.length) (h : LoopAt image.chunk a (a + condWidth) bodyWidth)
    (hcond : ∀ {σ}, x.Fits ns σ → Follows host n x ns (x.state a σ #[])
      (fun v σ' => x.state (a + condWidth) σ' #[v]) (cond σ))
    (hbody : ∀ {σ}, x.Fits ns σ → Follows host n x ns (x.state (a + condWidth + 2) σ #[])
      (fun _ σ' => x.state (a + condWidth + 2 + bodyWidth) σ' #[]) (body σ))
    {k : Nat} (hk : k ≤ n) (hσ : x.Fits ns σ) :
    Follows host k x ns (x.state a σ #[])
      (fun _ σ' => x.state (a + condWidth + 2 + bodyWidth + 2) σ' #[]) (loop cond body k σ) := by
  induction k generalizing σ with
  | zero => exact fun _ => ⟨_, rfl⟩
  | succ k ih =>
    simp only [loop]
    refine (hcond hσ |>.mono hk).bind fun v σ₁ _ hσ₁ => ?_
    have hinstr := instruction_jumpIfFalse_state host σ₁ #[] v hx h.toEnd
    cases hv : v.isFalsey with
    | true =>
      simp only [hv, if_true] at hinstr ⊢
      exact Follows.step hinstr (Follows.ok hσ₁ rfl)
    | false =>
      simp only [hv, Bool.false_eq_true, if_false] at hinstr ⊢
      refine Follows.step_succ hinstr ((hbody hσ₁ |>.mono (by omega)).bind fun _ σ₂ _ hσ₂ => ?_)
      exact Follows.step (instruction_jump_state hx h.toStart) (ih (by omega) hσ₂)

/-! ## Handlers -/

/-- The newest local is out of the reach of a handler armed before it was declared. -/
theorem caught_tail {h : Handler} {name : String} (e : RuntimeError)
    (hx : x.Sound id image ns.length) (hh : x.handler = some h) (hσ : x.Fits (name :: ns) σ) :
    x.caught h e { σ with locals := σ.locals.tail } = x.caught h e σ := by
  obtain ⟨locals, armed, globals, world⟩ := σ
  cases locals with
  | nil => rfl
  | cons l locals =>
    have hnames : locals.map (·.1) = ns := (List.cons.inj hσ.names).2
    have hheight : h.height ≤ (x.lower ++ values locals).size := by
      rw [Array.size_append, size_values, ← List.length_map (·.1), hnames]
      exact hx.height h hh
    have htake : (x.lower ++ values (l :: locals) ++ #[]).take h.height =
        (x.lower ++ values locals ++ #[]).take h.height := by
      obtain ⟨m, v⟩ := l
      rw [values_cons, ← Array.append_singleton, ← Array.append_assoc, Array.append_assoc,
        take_append_of_le _ hheight, take_append_of_le _ hheight]
    simp only [Activation.caught, Activation.state, Thread.enterHandler, List.tail_cons, htake]

/-- Code with one more local, which is popped behind it. -/
theorem withLocal_follows {name : String} {v : Value} {width : Nat} {body : Eval Unit}
    (hx : x.Sound id image ns.length) (hσ : x.Fits ns σ)
    (hpop : OpAt image.chunk (a + width) .pop)
    (hbody : ∀ {σ}, x.Fits (name :: ns) σ → Follows host n x (name :: ns) (x.state a σ #[])
      (fun _ σ' => x.state (a + width) σ' #[]) (body σ)) :
    Follows host n x ns (x.state a { σ with locals := (name, v) :: σ.locals } #[])
      (fun _ σ' => x.state (a + width + 1) σ' #[]) (withLocal name v body σ) := by
  have hbody := hbody (σ := { σ with locals := (name, v) :: σ.locals })
    ⟨by rw [List.map_cons, hσ.names], hσ.armed⟩
  have hfits : ∀ {σ' : Store}, x.Fits (name :: ns) σ' →
      x.Fits ns { σ' with locals := σ'.locals.tail } := fun h =>
    ⟨by rw [List.map_tail, h.names, List.tail_cons], h.armed⟩
  simp only [withLocal]
  intro hcalm
  have hbody := hbody hcalm
  cases hr : body { σ with locals := (name, v) :: σ.locals } with
  | ok _ σ' =>
    rw [hr] at hbody
    obtain ⟨hσ', hreach⟩ := hbody
    refine ⟨hfits hσ', hreach.trans (.step ?_)⟩
    obtain ⟨locals, armed, globals, world⟩ := σ'
    cases locals with
    | nil => cases hσ'.names
    | cons l locals =>
      obtain ⟨m, u⟩ := l
      have hstate : x.state (a + width) ⟨(m, u) :: locals, armed, globals, world⟩ #[] =
          x.state (a + width) ⟨locals, armed, globals, world⟩ (#[].push u) := by
        simp [Activation.state, values_cons]
      simp only [hstate, Machine.step, instruction_pop_state #[] u hx hpop, List.tail_cons]
  | error stop σ' =>
    rw [hr] at hbody
    cases stop with
    | raised e =>
      obtain ⟨hσ', h, hh, hreach⟩ := hbody
      exact ⟨hfits hσ', h, hh, by rwa [caught_tail e hx hh hσ']⟩
    | _ => exact hbody

/-- The handler that a `try` arms whose handler code begins at an address. -/
def Activation.arming (x : Activation) (address : Nat) (σ : Store) : Activation :=
  { x with
    handler := some ⟨address, x.thread.image, x.thread.base, x.thread.frames.size,
      (x.lower ++ values σ.locals).size⟩ }

theorem Activation.Sound.arming {address : Nat} (hx : x.Sound id image ns.length)
    (hσ : x.Fits ns σ) : (x.arming address σ).Sound id image ns.length where
  id := hx.id
  image := hx.image
  base := hx.base
  windows := hx.windows
  depth := by
    rintro h ⟨⟩
    exact Nat.le_refl _
  height := by
    rintro h ⟨⟩
    simp only [Array.size_append, hσ.size_values]
    exact Nat.le_refl _

/-- What a handler finds is the store of the body with the message as one more local. -/
theorem caught_arming {address : Nat} {σ' : Store} {h : Handler} (e : RuntimeError) (name : String)
    (hσ : x.Fits ns σ) (hh : (x.arming address σ).handler = some h)
    (hσ' : (x.arming address σ).Fits ns σ') :
    (x.arming address σ).caught h e σ' =
      x.state address
        { σ' with locals := (name, .str e.message) :: σ'.locals, armed := false } #[] := by
  cases hh
  have hsize : (x.lower ++ values σ.locals).size = (x.lower ++ values σ'.locals ++ #[]).size := by
    simp only [Array.size_append, hσ.size_values, hσ'.size_values]
    rfl
  have htake : (x.lower ++ values σ'.locals ++ #[]).take (x.lower ++ values σ.locals).size =
      x.lower ++ values σ'.locals ++ #[] := by
    rw [hsize, Array.take_eq_extract, Array.extract_size]
  have hframes : x.thread.frames.take x.thread.frames.size = x.thread.frames := by
    rw [Array.take_eq_extract, Array.extract_size]
  simp only [Activation.caught, Activation.state, Thread.enterHandler, Activation.arming, htake,
    hframes, values_cons, Bool.false_eq_true, if_false]
  simp

theorem guarded_follows {bodyWidth handlerWidth : Nat} {name : String} {body handler : Eval Unit}
    (hx : x.Sound id image ns.length) (hσ : x.Fits ns σ)
    (h : TryAt image.chunk a bodyWidth handlerWidth)
    (hbody : ∀ {y : Activation} {σ}, y.Sound id image ns.length → y.Fits ns σ →
      Follows host n y ns (y.state (a + 2) σ #[])
        (fun _ σ' => y.state (a + 2 + bodyWidth) σ' #[]) (body σ))
    (hhandler : ∀ {σ}, x.Fits (name :: ns) σ →
      Follows host n x (name :: ns) (x.state (a + 2 + bodyWidth + 3) σ #[])
        (fun _ σ' => x.state (a + 2 + bodyWidth + 3 + handlerWidth) σ' #[]) (handler σ)) :
    Follows host n x ns (x.state a σ #[])
      (fun _ σ' => x.state (a + 2 + bodyWidth + 3 + handlerWidth + 1) σ' #[])
      (guarded body name handler σ) := by
  have hy : (x.arming (a + 2 + bodyWidth + 3) σ).Sound id image ns.length := hx.arming hσ
  have hσy : (x.arming (a + 2 + bodyWidth + 3) σ).Fits ns { σ with armed := true } :=
    ⟨hσ.names, fun _ => rfl⟩
  have hbody := hbody hy hσy
  have henter : instruction host (x.state a σ #[]) =
      .ok none ((x.arming (a + 2 + bodyWidth + 3) σ).state (a + 2) { σ with armed := true } #[]) := by
    obtain rfl := hx.image
    rw [instruction_tryEnter host (t := (x.state a σ #[]).thread) h.enter]
    simp [Activation.state, Activation.arming]
  have hdisarmed : ∀ {σ' : Store}, (x.arming (a + 2 + bodyWidth + 3) σ).Fits ns σ' →
      x.Fits ns { σ' with armed := false } := fun hσ' =>
    ⟨hσ'.names, fun harmed => absurd harmed Bool.false_ne_true⟩
  refine Follows.step henter ?_
  simp only [guarded]
  refine Follows.calm fun hcalm => ?_
  have hbody := hbody hcalm
  cases hr : body { σ with armed := true } with
  | ok _ σ' =>
    rw [hr] at hbody
    obtain ⟨hσ', hreach⟩ := hbody
    refine Follows.of_reaches hreach ?_
    have hexit : instruction host
        ((x.arming (a + 2 + bodyWidth + 3) σ).state (a + 2 + bodyWidth) σ' #[]) =
        .ok none (x.state (a + 2 + bodyWidth + 1) { σ' with armed := false } #[]) := by
      obtain rfl := hx.image
      rw [instruction_tryExit host (t := ((x.arming (a + 2 + bodyWidth + 3) σ).state
        (a + 2 + bodyWidth) σ' #[]).thread) h.exit]
      rfl
    exact Follows.step hexit (Follows.step (instruction_jump_state hx h.toEnd)
      (Follows.ok (hdisarmed hσ') rfl))
  | error stop σ' =>
    rw [hr] at hbody
    cases stop with
    | raised e =>
      obtain ⟨hσ', hd, hhd, hreach⟩ := hbody
      rw [caught_arming e name hσ hhd hσ'] at hreach
      exact Follows.of_reaches hreach
        (withLocal_follows hx (hdisarmed hσ') h.unbind hhandler)
    | _ => exact fun _ => hbody

end

/-! ## Declarations -/

section
variable {Γ : Context} {x : Activation} {image : Image} {ns : List String} {a k : Nat} {σ : Store}

/-- The code that pushes a function, behind its body. -/
theorem function_follows {isMethod : Bool} {decl : FunctionDecl} (temps : Array Value)
    (hx : x.Sound Γ.thread image ns.length) (hσ : x.Fits ns σ)
    (hcode : FunctionAt image.chunk isMethod a decl)
    (hconst : ConstAt image.chunk (a + decl.width) .constant (.function (protoOf decl (a + 2))))
    (hnum : Numbered Γ k (functionDeclared image a isMethod decl)) :
    ∃ d, Γ.declared[k]? = some d ∧
      Follows Γ.host Γ.rounds x ns (x.state a σ temps)
        (fun v σ' => x.state (a + decl.width + 2) σ' (temps.push v))
          (.ok (.function d.function) σ) := by
  obtain ⟨name, params, ⟨body, blockSpan⟩, span⟩ := decl
  simp only [functionDeclared] at hnum
  simp only [FunctionAt, bodyWidth] at hcode
  simp only [FunctionDecl.width, ← Nat.add_assoc] at hconst ⊢
  exact ⟨_, hnum.head, Follows.step (instruction_jump_state hx hcode.1)
    (constant_follows hx hσ hconst)⟩

theorem bindFunction_follows {decl : FunctionDecl} (hx : x.Sound Γ.thread image ns.length)
    (hσ : x.Fits ns σ) (h : StmtAt image.chunk ns a (.function decl))
    (hnum : Numbered Γ k (functionDeclared image a false decl)) :
    Follows Γ.host Γ.rounds x ns (x.state a σ #[])
      (fun _ σ' => x.state (a + (decl.width + 5)) σ' #[]) (bindFunction Γ k decl σ) := by
  simp only [StmtAt] at h
  obtain ⟨hcode, hconst, hset, hpop⟩ := h
  obtain ⟨d, hd, hfollows⟩ := function_follows #[] hx hσ hcode hconst hnum
  simp only [bindFunction, hd]
  rw [modify_apply]
  have hglobal : instruction Γ.host (x.state (a + decl.width + 2) σ
    (#[].push (.function d.function))) =
      .ok none (x.state (a + decl.width + 4)
        { σ with globals := σ.globals.insert decl.name.name (.function d.function) }
        (#[].push (.function d.function))) := by
    obtain rfl := hx.image
    exact instruction_setGlobal Γ.host
      (t := (x.state (a + decl.width + 2) σ (#[].push (.function d.function))).thread) hset
      (stack_push ..)
  exact hfollows.afterOk (Follows.step hglobal (Follows.step (instruction_pop_state _ _ hx hpop)
    (Follows.ok ⟨hσ.names, hσ.armed⟩ rfl)))

theorem bindClass_follows {name : String} (hx : x.Sound Γ.thread image ns.length)
    (hσ : x.Fits ns σ) (h : ConstAt image.chunk a .classDef (.str name)) :
    Follows Γ.host Γ.rounds x ns (x.state a σ #[])
      (fun c σ' => x.state (a + 2) σ' #[.classRef c]) (bindClass name σ) := by
  obtain rfl := hx.image
  let σ' : Store :=
    { σ with
      globals := σ.globals.insert name (.classRef (σ.world.heap.newClass name).1)
      world := { σ.world with heap := (σ.world.heap.newClass name).2 } }
  have hpush : Follows Γ.host Γ.rounds x ns (x.state a σ #[])
      (fun v σ' => x.state (a + 2) σ' (#[].push v))
      (.ok (.classRef (σ.world.heap.newClass name).1) σ') :=
    Follows.operated (r := .ok _) hx ⟨hσ.names, hσ.armed⟩
      (instruction_classDef Γ.host (t := (x.state a σ #[]).thread) h)
  exact hpush.afterOk (Follows.ok ⟨hσ.names, hσ.armed⟩ rfl)

theorem addMethods_follows {c : ClassRef} {ms : List FunctionDecl}
    (hx : x.Sound Γ.thread image ns.length) (hσ : x.Fits ns σ) (h : MethodsAt image.chunk a ms)
    (hnum : Numbered Γ k (methodsDeclared image a ms)) :
    Follows Γ.host Γ.rounds x ns (x.state a σ #[.classRef c])
      (fun _ σ' => x.state (a + methodsWidth ms) σ' #[.classRef c]) (addMethods Γ c k ms σ) := by
  induction ms generalizing a k σ with
  | nil => exact Follows.ok hσ rfl
  | cons m ms ih =>
    simp only [MethodsAt] at h
    obtain ⟨hcode, hconst, hmethod, hrest⟩ := h
    simp only [methodsDeclared] at hnum
    obtain ⟨hfirst, hnum⟩ := hnum.append (function_lists true m hcode).length
    obtain ⟨d, hd, hfollows⟩ := function_follows #[.classRef c] hx hσ hcode hconst hfirst
    have hadd : instruction Γ.host
        (x.state (a + m.width + 2) σ (#[.classRef c].push (.function d.function))) =
        .ok none (x.state (a + m.width + 4)
          { σ with world := { σ.world with
            heap := σ.world.heap.addMethod c m.name.name d.function } } #[.classRef c]) := by
      obtain rfl := hx.image
      rw [show x.state (a + m.width + 2) σ (#[.classRef c].push (.function d.function)) =
        x.state (a + m.width + 2) σ ((#[].push (.classRef c)).push (.function d.function)) from rfl,
        instruction_method Γ.host (t := (x.state (a + m.width + 2) σ
          ((#[].push (.classRef c)).push (.function d.function))).thread) hmethod
          (by rw [← stack_push, ← stack_push]; rfl)]
      rw [← stack_push]
      rfl
    simp only [addMethods, hd, methodsWidth, ← Nat.add_assoc]
    exact hfollows.afterOk (Follows.step hadd (ih ⟨hσ.names, hσ.armed⟩ hrest hnum))

theorem print_follows {v : Value} (hx : x.Sound Γ.thread image ns.length) (hσ : x.Fits ns σ)
    (h : OpAt image.chunk a .print) :
    Follows Γ.host Γ.rounds x ns (x.state a σ #[v]) (fun _ σ' => x.state (a + 1) σ' #[])
      (printValue Γ.thread v σ) := by
  obtain rfl := hx.image
  have hinstr := instruction_print Γ.host (w := σ.world) (t := (x.state a σ #[v]).thread) h
    (stack_push x.lower (values σ.locals) #[] v)
  refine Follows.step hinstr (Follows.ok ⟨hσ.names, hσ.armed⟩ ?_)
  rw [← hx.id]
  rfl

theorem optional_follows (hcalls : CallsFollow Γ image) {value : Option Expr}
    (hx : x.Sound Γ.thread image ns.length) (hσ : x.Fits ns σ)
    (h : OptionalAt image.chunk ns a value) :
    Follows Γ.host Γ.rounds x ns (x.state a σ #[])
      (fun v σ' => x.state (a + optionalWidth value) σ' #[v]) (optional Γ value σ) := by
  cases value with
  | some e => exact expr_follows hcalls e hx hσ h
  | none => exact constant_follows hx hσ h

/-- A return, with its value on the stack. -/
theorem return_follows {α : Type} {Q : α → Store → State} {v : Value}
    (hx : x.Sound Γ.thread image ns.length) (h : OpAt image.chunk a .ret) :
    Follows Γ.host Γ.rounds x ns (x.state a σ #[v]) Q ((throw (.returned v) : Eval α) σ) := by
  obtain rfl := hx.image
  refine fun _ => ⟨a, values σ.locals, if σ.armed then x.handler else none, h, ?_⟩
  have hstack : x.lower ++ values σ.locals ++ #[v] = (x.lower ++ values σ.locals).push v := by simp
  simp only [Activation.state, Activation.returning, hstack]
  exact .refl _

/-! ## Statements -/

mutual

theorem stmt_follows (hcalls : CallsFollow Γ image) : (s : Stmt) → {x : Activation} →
    {ns : List String} → {a k : Nat} → {σ : Store} → x.Sound Γ.thread image ns.length →
    x.Fits ns σ → StmtAt image.chunk ns a s → Numbered Γ k (stmtDeclared image a s) →
    Follows Γ.host Γ.rounds x ns (x.state a σ #[])
      (fun _ σ' => x.state (a + s.width) σ' #[]) (stmt Γ k s σ)
  | .expr e, x, ns, a, k, σ, hx, hσ, h, hnum => by
    simp only [StmtAt] at h
    simp only [stmt, Stmt.width, ← Nat.add_assoc]
    exact (expr_follows hcalls e hx hσ h.1).bind fun v σ' _ hσ' =>
      Follows.step (instruction_pop_state #[] v hx h.2) (Follows.ok hσ' rfl)
  | .print value _, x, ns, a, k, σ, hx, hσ, h, hnum => by
    simp only [StmtAt] at h
    simp only [stmt, Stmt.width, ← Nat.add_assoc]
    exact (expr_follows hcalls value hx hσ h.1).bind fun v σ' _ hσ' => print_follows hx hσ' h.2
  | .function decl, x, ns, a, k, σ, hx, hσ, h, hnum => by
    simp only [stmtDeclared] at hnum
    simp only [stmt, Stmt.width]
    exact bindFunction_follows hx hσ h hnum
  | .classDecl name methods _, x, ns, a, k, σ, hx, hσ, h, hnum => by
    simp only [StmtAt] at h
    simp only [stmtDeclared] at hnum
    simp only [stmt]
    rw [Stmt.add_width_classDecl]
    exact (bindClass_follows hx hσ h.1).bind fun c σ₁ _ hσ₁ =>
      (addMethods_follows hx hσ₁ h.2.1 hnum).andThen fun _ _ _ => instruction_pop_state #[]
        (.classRef c) hx h.2.2
  | .block body, x, ns, a, k, σ, hx, hσ, h, hnum => by
    simp only [StmtAt] at h
    simp only [stmtDeclared] at hnum
    simp only [stmt, Stmt.width]
    exact block_follows hcalls body hx hσ h hnum
  | .ifElse cond thenBlock none _, x, ns, a, k, σ, hx, hσ, h, hnum => by
    simp only [StmtAt] at h
    simp only [stmtDeclared, List.append_nil] at hnum
    obtain ⟨hcond, hbranch, hthen, -⟩ := h
    simp only [stmt]
    rw [Stmt.add_width_ifThen, ← Nat.add_zero (a + cond.width + 2 + thenBlock.width + 2)]
    refine (expr_follows hcalls cond hx hσ hcond).bind fun v σ₁ _ hσ₁ => ?_
    exact branch_follows (fun _ => #[]) hx hbranch
      (block_follows hcalls thenBlock hx hσ₁ hthen hnum) (Follows.ok hσ₁ rfl)
  | .ifElse cond thenBlock (some b) _, x, ns, a, k, σ, hx, hσ, h, hnum => by
    simp only [StmtAt] at h
    simp only [stmtDeclared] at hnum
    obtain ⟨hcond, hbranch, hthen, helse⟩ := h
    obtain ⟨hfirst, hnum⟩ := hnum.append (block_lists thenBlock hthen).length
    simp only [stmt]
    rw [Stmt.add_width_ifElse]
    refine (expr_follows hcalls cond hx hσ hcond).bind fun v σ₁ _ hσ₁ => ?_
    exact branch_follows (fun _ => #[]) hx hbranch
      (block_follows hcalls thenBlock hx hσ₁ hthen hfirst)
      (block_follows hcalls b hx hσ₁ helse hnum)
  | .whileLoop cond body _, x, ns, a, k, σ, hx, hσ, h, hnum => by
    simp only [StmtAt] at h
    simp only [stmtDeclared] at hnum
    obtain ⟨hcond, hloop, hbody⟩ := h
    simp only [stmt]
    rw [Stmt.add_width_whileLoop]
    exact loop_follows hx hloop (fun hσ' => expr_follows hcalls cond hx hσ' hcond)
      (fun hσ' => block_follows hcalls body hx hσ' hbody hnum) (Nat.le_refl _) hσ
  | .ret value _, x, ns, a, k, σ, hx, hσ, h, hnum => by
    simp only [StmtAt] at h
    simp only [stmt, Stmt.width, ← Nat.add_assoc]
    exact (optional_follows hcalls hx hσ h.1).bind fun v σ' _ _ => return_follows hx h.2
  | .importUnit _ _, x, ns, a, k, σ, hx, hσ, h, hnum => fun _ => trivial
  | .tryCatch body errorVar handler _, x, ns, a, k, σ, hx, hσ, h, hnum => by
    simp only [StmtAt] at h
    simp only [stmtDeclared] at hnum
    obtain ⟨htry, hbody, hhandler⟩ := h
    obtain ⟨hfirst, hnum⟩ := hnum.append (block_lists body hbody).length
    simp only [stmt]
    rw [Stmt.add_width_tryCatch]
    exact guarded_follows hx hσ htry
      (fun hy hσ' => block_follows hcalls body hy hσ' hbody hfirst)
      (fun hσ' => block_follows hcalls handler (hx.mono (Nat.le_succ _)) hσ' hhandler hnum)

theorem stmts_follows (hcalls : CallsFollow Γ image) : (ss : List Stmt) → {x : Activation} →
    {ns : List String} → {a k : Nat} → {σ : Store} → x.Sound Γ.thread image ns.length →
    x.Fits ns σ → StmtsAt image.chunk ns a ss → Numbered Γ k (stmtsDeclared image a ss) →
    Follows Γ.host Γ.rounds x ns (x.state a σ #[])
      (fun _ σ' => x.state (a + stmtsWidth ss) σ' #[]) (stmts Γ k ss σ)
  | [], x, ns, a, k, σ, hx, hσ, h, hnum => by
    simp only [stmts]
    exact Follows.ok hσ rfl
  | s :: ss, x, ns, a, k, σ, hx, hσ, h, hnum => by
    simp only [StmtsAt] at h
    simp only [stmtsDeclared] at hnum
    obtain ⟨hfirst, hnum⟩ := hnum.append (stmt_lists s h.1).length
    simp only [stmts, stmtsWidth, ← Nat.add_assoc]
    exact (stmt_follows hcalls s hx hσ h.1 hfirst).bind fun _ σ₁ _ hσ₁ =>
      stmts_follows hcalls ss hx hσ₁ h.2 hnum

theorem block_follows (hcalls : CallsFollow Γ image) : (b : Block) → {x : Activation} →
    {ns : List String} → {a k : Nat} → {σ : Store} → x.Sound Γ.thread image ns.length →
    x.Fits ns σ → BlockAt image.chunk ns a b → Numbered Γ k (blockDeclared image a b) →
    Follows Γ.host Γ.rounds x ns (x.state a σ #[])
      (fun _ σ' => x.state (a + b.width) σ' #[]) (block Γ k b σ)
  | ⟨ss, _⟩, x, ns, a, k, σ, hx, hσ, h, hnum => by
    simp only [BlockAt] at h
    simp only [blockDeclared] at hnum
    simp only [block, Block.width]
    exact stmts_follows hcalls ss hx hσ h hnum

end

end

end DotScript.Correctness
