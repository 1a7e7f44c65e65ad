import DotScript.Proofs.Correctness.Statements

/-!
# Calls

The machine follows the body of a function to a return, and therefore a call to the instruction
behind it. A call nested at most `n` deep runs a body whose own calls are nested less deep, so that
`CallsFollow` holds by induction on the bound.
-/

namespace DotScript.Correctness

open DotScript.Machine DotScript.Semantics DotScript.Bytecode DotScript.Syntax
open DotScript.Compile hiding expr exprs pairs stmt stmts block

/-! ## Function bodies -/

section
variable {Γ : Context} {image : Image}

theorem value_follows (hcalls : CallsFollow Γ image) : (ss : List Stmt) → {x : Activation} →
    {ns : List String} → {a k : Nat} → {σ : Store} → x.Sound Γ.thread image ns.length →
    x.Fits ns σ → ValueAt image.chunk ns a ss → Numbered Γ k (valueDeclared image a ss) →
    Follows Γ.host Γ.rounds x ns (x.state a σ #[])
      (fun v σ' => x.state (a + valueWidth ss) σ' #[v]) (value Γ k ss σ)
  | [], x, ns, a, k, σ, hx, hσ, h, hnum => constant_follows hx hσ h
  | [s], x, ns, a, k, σ, hx, hσ, h, hnum => by
    have hplain : StmtAt image.chunk ns a s →
        ConstAt image.chunk (a + s.width) .constant .null →
        Numbered Γ k (stmtDeclared image a s) →
        Follows Γ.host Γ.rounds x ns (x.state a σ #[])
          (fun v σ' => x.state (a + (s.width + 2)) σ' #[v])
          ((do stmt Γ k s; return .null : Eval Value) σ) := by
      intro hs hnull hnum
      rw [← Nat.add_assoc]
      exact (stmt_follows hcalls s hx hσ hs hnum).bind fun _ σ' _ hσ' =>
        constant_follows hx hσ' hnull
    match s, h, hnum with
    | .expr e, h, hnum => exact expr_follows hcalls e hx hσ h
    | .ifElse cond ⟨thenStmts, _⟩ none _, h, hnum =>
      obtain ⟨hcond, hbranch, hthen, helse⟩ := h
      change Numbered Γ k (valueDeclared image (a + cond.width + 2) thenStmts ++ []) at hnum
      rw [List.append_nil] at hnum
      rw [add_valueWidth_ifThen]
      refine (expr_follows hcalls cond hx hσ hcond).bind fun v σ₁ _ hσ₁ => ?_
      exact branch_follows (fun v => #[v]) hx hbranch
        (value_follows hcalls thenStmts hx hσ₁ hthen hnum) (constant_follows hx hσ₁ helse)
    | .ifElse cond ⟨thenStmts, _⟩ (some ⟨elseStmts, _⟩) _, h, hnum =>
      obtain ⟨hcond, hbranch, hthen, helse⟩ := h
      obtain ⟨hfirst, hnum⟩ := Numbered.append hnum (value_lists thenStmts hthen).length
      rw [add_valueWidth_ifElse]
      refine (expr_follows hcalls cond hx hσ hcond).bind fun v σ₁ _ hσ₁ => ?_
      exact branch_follows (fun v => #[v]) hx hbranch
        (value_follows hcalls thenStmts hx hσ₁ hthen hfirst)
        (value_follows hcalls elseStmts hx hσ₁ helse hnum)
    | .print _ _, h, hnum | .function _, h, hnum | .classDecl _ _ _, h, hnum
    | .block _, h, hnum | .whileLoop _ _ _, h, hnum | .ret _ _, h, hnum
    | .importUnit _ _, h, hnum | .tryCatch _ _ _ _, h, hnum => exact hplain h.1 h.2 hnum
  | s :: s' :: ss, x, ns, a, k, σ, hx, hσ, h, hnum => by
    obtain ⟨hs, hrest⟩ := h
    obtain ⟨hfirst, hnum⟩ := Numbered.append hnum (stmt_lists s hs).length
    rw [add_valueWidth_cons]
    exact (stmt_follows hcalls s hx hσ hs hfirst).bind fun _ σ₁ _ hσ₁ =>
      value_follows hcalls (s' :: ss) hx hσ₁ hrest hnum

/-- A body that ends in a `return`. -/
theorem returning_follows (hcalls : CallsFollow Γ image) {body : List Stmt} {x : Activation}
    {ns : List String} {a k : Nat} {σ : Store} {Q : Value → Store → State}
    (hx : x.Sound Γ.thread image ns.length) (hσ : x.Fits ns σ) (hends : endsInReturn body)
    (h : StmtsAt image.chunk ns a body) (hnum : Numbered Γ k (stmtsDeclared image a body)) :
    Follows Γ.host Γ.rounds x ns (x.state a σ #[]) Q
      ((value Γ k body >>= fun v => throw (.returned v)) σ) := by
  induction body generalizing a k σ with
  | nil => cases hends
  | cons s ss ih =>
    simp only [StmtsAt] at h
    simp only [stmtsDeclared] at hnum
    obtain ⟨hfirst, hnum⟩ := hnum.append (stmt_lists s h.1).length
    have hs := stmt_follows hcalls s hx hσ h.1 hfirst
    cases ss with
    | nil =>
      cases s with
      | ret e span =>
        change Follows _ _ _ _ _ _
          (((do stmt Γ k (.ret e span); return .null : Eval Value) >>= fun v => throw (.returned v)) σ)
        rw [bind_assoc]
        refine hs.bind fun _ σ' hok _ => ?_
        -- The statement itself returns.
        simp only [stmt, bind_eq_ok] at hok
        obtain ⟨_, _, -, hthrow⟩ := hok
        cases hthrow
      | _ => cases hends
    | cons s' ss' =>
      have hends' : endsInReturn (s' :: ss') := by
        cases s <;> exact hends
      change Follows _ _ _ _ _ _
        (((do stmt Γ k s; value Γ (k + s.declarations.length) (s' :: ss') : Eval Value) >>=
          fun v => throw (.returned v)) σ)
      rw [bind_assoc]
      exact hs.bind fun _ σ' _ hσ' => ih hσ' hends' h.2 hnum

/-- The body of a function leads to a return of its value. -/
theorem body_follows (hcalls : CallsFollow Γ image) {isMethod : Bool} {decl : FunctionDecl}
    {x : Activation} {a k : Nat} {σ : Store} {Q : Value → Store → State}
    (hx : x.Sound Γ.thread image (bodyNames isMethod (decl.params.map (·.name))).length)
    (hσ : x.Fits (bodyNames isMethod (decl.params.map (·.name))) σ)
    (h : FunctionAt image.chunk isMethod a decl)
    (hnum : Numbered Γ k (valueDeclared image (a + 2) decl.body.stmts)) :
    Follows Γ.host Γ.rounds x (bodyNames isMethod (decl.params.map (·.name)))
      (x.state (a + 2) σ #[]) Q
      ((value Γ k decl.body.stmts >>= fun v => throw (.returned v)) σ) := by
  obtain ⟨name, params, ⟨body, blockSpan⟩, span⟩ := decl
  simp only [FunctionAt] at h
  obtain ⟨-, h⟩ := h
  by_cases hends : endsInReturn body
  · simp only [hends, if_true] at h
    rw [valueDeclared_of_endsInReturn _ hends] at hnum
    exact returning_follows hcalls hx hσ hends h hnum
  · simp only [hends, Bool.false_eq_true, if_false] at h
    exact (value_follows hcalls body hx hσ h.1 hnum).bind fun v σ' _ _ => return_follows hx h.2

end

/-! ## Entering and leaving a function -/

section
variable {Γ : Context} {x : Activation} {image : Image} {ns : List String} {a : Nat} {σ : Store}
  {temps : Array Value}

/-- The activation of a function called at an address; the instruction behind it is at `a`. -/
def Activation.callee (x : Activation) (f : Function) (a : Nat) (σ : Store) (temps : Array Value)
    (result : Option Value) : Activation where
  thread :=
    { (x.state a σ temps).thread with
      frames := x.thread.frames.push
        ⟨x.thread.image, a, x.thread.base, if σ.armed then x.handler else none, result⟩
      image := f.image
      base := (x.lower ++ values σ.locals ++ temps).size + 1 }
  lower := (x.lower ++ values σ.locals ++ temps).push (.function f)
  handler := x.handler

theorem Activation.Sound.callee {f : Function} {result : Option Value} (m : Nat)
    (hx : x.Sound Γ.thread image ns.length) (hσ : x.Fits ns σ) (hf : f.image = image) :
    (x.callee f a σ temps result).Sound Γ.thread image m where
  id := hx.id
  image := hf
  base := by simp only [Activation.callee, Array.size_push]
  windows := hx.windows
  depth := fun h hh => by
    have := hx.depth h hh
    simp only [Activation.callee, Array.size_push]
    omega
  height := fun h hh => by
    have := hx.height h hh
    simp only [Activation.callee, Array.size_push, Array.size_append, hσ.size_values]
    omega

/-- A failure that is caught outside a function leaves nothing of it. -/
theorem caught_callee {f : Function} {result : Option Value} {σ' : Store} {h : Handler}
    (e : RuntimeError) (hx : x.Sound Γ.thread image ns.length) (hσ : x.Fits ns σ)
    (hh : x.handler = some h) :
    (x.callee f a σ temps result).caught h e σ' =
      x.caught h e { σ' with locals := σ.locals, armed := σ.armed } := by
  have hheight : h.height ≤ (x.lower ++ values σ.locals).size := by
    rw [Array.size_append, hσ.size_values]
    exact hx.height h hh
  have hframes : ∀ frame, (x.thread.frames.push frame).take h.depth =
      x.thread.frames.take h.depth := by
    intro frame
    rw [← Array.append_singleton, take_append_of_le _ (hx.depth h hh)]
  have hstack : ((x.lower ++ values σ.locals ++ temps).push (.function f) ++ values σ'.locals ++
      #[]).take h.height = (x.lower ++ values σ.locals ++ #[]).take h.height := by
    have hassoc : (x.lower ++ values σ.locals ++ temps).push (.function f) ++ values σ'.locals ++
        #[] = x.lower ++ values σ.locals ++ (temps.push (.function f) ++ values σ'.locals) := by
      simp
    rw [hassoc, take_append_of_le _ hheight, take_append_of_le _ hheight]
  simp only [Activation.caught, Activation.state, Activation.callee, Thread.enterHandler, hframes,
    hstack]

/-- A return leads behind the call. -/
theorem return_reaches {f : Function} {result : Option Value} {σ' : Store} {v : Value} {b : Nat}
    {st : Array Value} {handler : Option Handler} (hx : x.Sound Γ.thread image ns.length)
    (h : OpAt f.image.chunk b .ret)
    (hcalm : Calm Γ.host ((x.callee f a σ temps result).returning b st handler v σ')) :
    Reaches Γ.host ((x.callee f a σ temps result).returning b st handler v σ')
      (x.state a { σ' with locals := σ.locals, armed := σ.armed } (temps.push (result.getD v))) := by
  have hinstr : instruction Γ.host ((x.callee f a σ temps result).returning b st handler v σ') =
      pushed Γ.host (result.getD v)
        (x.state a { σ' with locals := σ.locals, armed := σ.armed } temps).thread σ'.world := by
    have hfloor : ((x.callee f a σ temps result).returning b st handler v σ').thread.floor = 0 := by
      simp only [Thread.floor, Activation.returning, Activation.callee, Activation.state, hx.windows]
    refine (instruction_ret Γ.host h rfl).trans ((doReturn_of_push Γ.host v rfl ?_).trans ?_)
    · exact Nat.le_trans (Nat.le_of_eq hfloor) (Nat.zero_le _)
    · simp only [Activation.callee, Activation.state, Nat.add_sub_cancel, take_push_append]
  simp only [pushed] at hinstr
  split at hinstr
  · exact absurd hinstr hcalm.here
  · refine .step ?_
    simp only [step, hinstr, Activation.state, stack_push]

theorem values_zip {ns : List String} {slots : List Value} (h : ns.length = slots.length) :
    values (ns.zip slots.reverse) = slots.toArray ∧
      (ns.zip slots.reverse).map (·.1) = ns := by
  have hsnd : (ns.zip slots.reverse).map (·.2) = slots.reverse :=
    List.map_snd_zip (by simp [h])
  have hfst : (ns.zip slots.reverse).map (·.1) = ns := List.map_fst_zip (by simp [h])
  exact ⟨by rw [values, hsnd, List.reverse_reverse], hfst⟩

/-- A function runs on its first locals, and its value is pushed behind the call unless `result`
takes its place. -/
theorem enter_follows (hcalls : CallsFollow Γ image) (hplaced : AllPlaced Γ image)
    (hx : x.Sound Γ.thread image ns.length) (hσ : x.Fits ns σ) {f : Function} {isMethod : Bool}
    {slots : List Value} (result : Option Value) {s : State}
    (hslots : slots.length = f.arity + (if isMethod then 1 else 0))
    (hinstr : instruction Γ.host s = entered Γ.host f slots result
      (x.lower ++ values σ.locals ++ temps)
      { (x.state a σ temps).thread with stack := s.thread.stack } σ.world) :
    Follows Γ.host (Γ.rounds + 1) x ns s
      (fun v σ' => x.state a σ' (temps.push (result.getD v))) (enter Γ f isMethod slots σ) := by
  refine Follows.calm fun hcalm => ?_
  simp only [enter]
  cases hfind : Γ.find? f isMethod with
  | none => exact fun _ => trivial
  | some found =>
    obtain ⟨d, k⟩ := found
    obtain ⟨hd, rfl, rfl⟩ := find?_eq_some hfind
    obtain ⟨entry, hdecl, hcode, hinner⟩ := (hplaced k d hd).code
    have hfunction := congrArg Declared.function hdecl
    have himage : d.function.image = image := by rw [hfunction]; rfl
    have hentry : d.function.entry = entry + 2 := by rw [hfunction]; rfl
    have harity : d.function.arity = d.decl.params.length := by rw [hfunction]; rfl
    have hlength : (bodyNames d.isMethod (d.decl.params.map (·.name))).length = slots.length := by
      rw [hslots, harity]
      cases d.isMethod <;> simp [bodyNames]
    obtain ⟨hvalues, hnames⟩ := values_zip hlength
    simp only [asCall]
    generalize hlocals : (bodyNames d.isMethod (d.decl.params.map (·.name))).zip slots.reverse =
      locals at hvalues hnames ⊢
    have hstart : instruction Γ.host s = .ok none
        ((x.callee d.function a σ temps result).state (entry + 2) { σ with locals } #[]) := by
      simp only [entered] at hinstr
      split at hinstr
      · exact absurd hinstr hcalm.here
      · rw [hinstr]
        simp only [Activation.state, Activation.callee, hvalues, hentry, Array.append_empty]
    have hstep : step Γ.host s = .running
        ((x.callee d.function a σ temps result).state (entry + 2) { σ with locals } #[]) := by
      simp only [step, hstart]
    have hbody := body_follows (Q := fun _ _ => s) (σ := { σ with locals }) hcalls
      (hx.callee _ hσ himage) ⟨hnames, hσ.armed⟩ hcode hinner (hcalm.of_reaches (.step hstep))
    have hfits : ∀ σ' : Store, x.Fits ns { σ' with locals := σ.locals, armed := σ.armed } :=
      fun σ' => ⟨hσ.names, hσ.armed⟩
    -- The value of the body and the value of a `return` in it go the same way.
    have hreturn : ∀ {v : Value} {σ' : Store} {b : Nat} {st : Array Value} {handler},
        OpAt d.function.image.chunk b .ret →
        Reaches Γ.host
          ((x.callee d.function a σ temps result).state (entry + 2) { σ with locals } #[])
          ((x.callee d.function a σ temps result).returning b st handler v σ') →
        Reaches Γ.host s (x.state a { σ' with locals := σ.locals, armed := σ.armed }
          (temps.push (result.getD v))) := fun hret hreach =>
      have hreach := Reaches.head hstep hreach
      hreach.trans (return_reaches hx hret (hcalm.of_reaches hreach))
    cases hr : value Γ (k + 1) d.decl.body.stmts { σ with locals } with
    | ok v σ' =>
      rw [bind_of_ok hr] at hbody
      obtain ⟨b, st, handler, hret, hreach⟩ := hbody
      exact fun _ => ⟨hfits σ', hreturn hret hreach⟩
    | error stop σ' =>
      rw [bind_of_error hr] at hbody
      cases stop with
      | returned v =>
        obtain ⟨b, st, handler, hret, hreach⟩ := hbody
        exact fun _ => ⟨hfits σ', hreturn hret hreach⟩
      | raised e =>
        obtain ⟨-, h, hh, hreach⟩ := hbody
        rw [caught_callee e hx hσ hh] at hreach
        exact fun _ => ⟨hfits σ', h, hh, .head hstep hreach⟩
      | fatal e =>
        obtain ⟨s', hhalts, hglobals, hworld⟩ := hbody
        exact fun _ => ⟨s', (Reaches.step hstep).halts hhalts, hglobals, hworld⟩
      | exhausted =>
        obtain ⟨s', hsteps⟩ := hbody
        exact fun _ => ⟨s', _, hstep, hsteps⟩
      | stuck => exact fun _ => trivial

/-! ## Calls of values -/

theorem checkCount_eq_ok {f : Function} {args : List Value} {σ' : Store}
    (h : checkCount f args σ = .ok () σ') : f.arity = args.length ∧ σ = σ' := by
  simp only [checkCount] at h
  split at h
  · next harity =>
    cases h
    exact ⟨harity, rfl⟩
  · rw [fail_apply] at h
    cases h

theorem checkCount_follows {n : Nat} (a : Nat) (temps : Array Value)
    (hx : x.Sound Γ.thread image ns.length) (hσ : x.Fits ns σ) {f : Function} {args : List Value}
    {s : State}
    (h : f.arity ≠ args.length →
      instruction Γ.host s = .error (.arity f.name f.arity args.length) (x.state a σ temps)) :
    Follows Γ.host n x ns s (fun _ _ => s) (checkCount f args σ) := by
  simp only [checkCount]
  split
  · exact Follows.ok hσ rfl
  · next harity => exact Follows.fail hx hσ (h harity)

/-- A call of a method on a receiver and arguments. -/
theorem method_follows (hcalls : CallsFollow Γ image) (hplaced : AllPlaced Γ image)
    (hx : x.Sound Γ.thread image ns.length) (hσ : x.Fits ns σ) {f : Function}
    {receiver : InstanceRef} {args : List Value} {callee : Value} (result : Option Value) {s : State}
    (hstack : s.thread.stack = x.lower ++ values σ.locals ++ (temps.push callee ++ args.toArray))
    (hinstr : instruction Γ.host s = enteredWith Γ.host f receiver args result
      (x.lower ++ values σ.locals ++ temps)
      { (x.state a σ temps).thread with stack := s.thread.stack } σ.world) :
    Follows Γ.host (Γ.rounds + 1) x ns s
      (fun v σ' => x.state a σ' (temps.push (result.getD v)))
      ((do checkCount f args; enter Γ f true (.inst receiver :: args) : Eval Value) σ) := by
  refine Follows.calm fun hcalm => ?_
  simp only [enteredWith] at hinstr
  refine (checkCount_follows a (temps.push callee ++ args.toArray) hx hσ fun harity => ?_).bind
    fun _ σ' hok _ => ?_
  · rw [if_pos harity, hstack] at hinstr
    exact hinstr
  · obtain ⟨harity, rfl⟩ := checkCount_eq_ok hok
    rw [if_neg (not_not_intro harity)] at hinstr
    split at hinstr
    · exact absurd hinstr hcalm.here
    · refine enter_follows hcalls hplaced hx hσ result ?_ hinstr
      simp only [List.length_cons, if_true, harity]

theorem apply_follows (hcalls : CallsFollow Γ image) (hplaced : AllPlaced Γ image)
    (hx : x.Sound Γ.thread image ns.length) (hσ : x.Fits ns σ) {callee : Value} {args : List Value}
    (h : InstrAt image.chunk a .call args.length) :
    Follows Γ.host (Γ.rounds + 1) x ns (x.state a σ (temps.push callee ++ args.toArray))
      (fun v σ' => x.state (a + 2) σ' (temps.push v)) (apply Γ callee args σ) := by
  have hst : (x.state a σ (temps.push callee ++ args.toArray)).thread.stack =
      (x.lower ++ values σ.locals ++ temps).push callee ++ args.toArray := by
    rw [← stack_push, Array.append_assoc]
    rfl
  have hinstr : instruction Γ.host (x.state a σ (temps.push callee ++ args.toArray)) =
      called Γ.host callee args (x.lower ++ values σ.locals ++ temps)
        (x.state (a + 2) σ (temps.push callee ++ args.toArray)).thread σ.world := by
    obtain rfl := hx.image
    exact instruction_call Γ.host h hst
  cases callee with
  | function f =>
    simp only [called] at hinstr
    refine (checkCount_follows (a + 2) (temps.push (.function f) ++ args.toArray) hx hσ
      fun harity => ?_).bind fun _ σ' hok _ => ?_
    · rw [if_pos harity] at hinstr
      exact hinstr
    · obtain ⟨harity, rfl⟩ := checkCount_eq_ok hok
      rw [if_neg (not_not_intro harity)] at hinstr
      exact enter_follows hcalls hplaced hx hσ none harity.symm hinstr
  | bound receiver f => exact method_follows hcalls hplaced hx hσ none rfl hinstr
  | native m =>
    simp only [called] at hinstr
    simp only [apply]
    rw [bind_of_ok (get_apply σ)]
    rcases hcall : Γ.host.call m.builtin args σ.world with ⟨r, w⟩
    simp only [hcall] at hinstr ⊢
    rw [bind_of_ok (modify_apply _ σ)]
    cases r with
    | ok v => exact Follows.operated (r := .ok v) hx ⟨hσ.names, hσ.armed⟩ hinstr
    | error message => exact Follows.fail hx ⟨hσ.names, hσ.armed⟩ hinstr
  | classRef c =>
    simp only [called] at hinstr
    simp only [apply, updateHeap]
    rw [bind_of_ok (get_apply σ), bind_of_ok (modify_apply _ σ)]
    cases hinit : (σ.world.heap.newInstance c).2.method? c "init" with
    | none =>
      simp only [hinit] at hinstr
      exact Follows.operated (r := .ok _) hx ⟨hσ.names, hσ.armed⟩ hinstr
    | some init =>
      simp only [hinit] at hinstr
      have hmethod := method_follows
        (σ := { σ with world := { σ.world with heap := (σ.world.heap.newInstance c).2 } })
        hcalls hplaced hx ⟨hσ.names, hσ.armed⟩ _ rfl hinstr
      have hresult := hmethod.bind
        (f := fun _ => pure (Value.inst (σ.world.heap.newInstance c).1))
        (R := fun v σ' => x.state (a + 2) σ' (temps.push v))
        fun v σ' _ hσ' => Follows.ok hσ' rfl
      rw [bind_assoc] at hresult
      exact hresult
  | _ => exact Follows.fail hx hσ hinstr

end

/-- The machine follows calls nested at most `n` deep. -/
theorem callsFollow_context {host : Host} {thread : ThreadId} {declared : List Declared}
    {image : Image}
    (hplaced : ∀ k d, declared[k]? = some d → Placed image.chunk image (declared.drop (k + 1)) d)
    (n : Nat) : CallsFollow (context host thread declared n) image := by
  induction n with
  | zero => exact ⟨fun _ _ _ _ => ⟨_, rfl⟩⟩
  | succ n ih => exact ⟨fun hx hσ h => apply_follows ih hplaced hx hσ h⟩

end DotScript.Correctness
