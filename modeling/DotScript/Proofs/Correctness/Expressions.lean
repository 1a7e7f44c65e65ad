import DotScript.Proofs.Correctness.Activation

/-!
# Expressions

The machine follows the evaluation of an expression to the end of its code, with the value pushed.
First each instruction by itself, then expressions by recursion on the tree. That it follows calls
is a hypothesis, `CallsFollow`: a call runs the body of a function.
-/

namespace DotScript.Correctness

open DotScript.Machine DotScript.Semantics DotScript.Bytecode DotScript.Syntax
open DotScript.Compile hiding expr exprs pairs

/-! ## Instructions -/

section
variable {host : Host} {n : Nat} {x : Activation} {id : ThreadId} {image : Image}
  {ns : List String} {a : Nat} {σ : Store} {temps : Array Value}

theorem constant_follows {k : Constant} (hx : x.Sound id image ns.length) (hσ : x.Fits ns σ)
    (h : ConstAt image.chunk a .constant k) :
    Follows host n x ns (x.state a σ temps) (fun v σ' => x.state (a + 2) σ' (temps.push v))
      (.ok (constantValue image k) σ) := by
  obtain rfl := hx.image
  exact Follows.operated (r := .ok _) hx hσ
    (instruction_constant host (t := (x.state a σ temps).thread) h)

theorem getLocal_follows {name : String} {slot : Nat} (host : Host) (n : Nat)
    (temps : Array Value) (hx : x.Sound id image ns.length) (hσ : x.Fits ns σ)
    (hslot : slotOf name ns = some slot)
    (h : InstrAt image.chunk a .getLocal slot) :
    ∃ v, Table.find? name σ.locals = some v ∧
      Follows host n x ns (x.state a σ temps) (fun v σ' => x.state (a + 2) σ' (temps.push v))
        (.ok v σ) := by
  obtain rfl := hx.image
  rw [← hσ.names] at hslot
  obtain ⟨v, hfind, hget⟩ := slotOf_eq_some hslot
  refine ⟨v, hfind, Follows.operated (r := .ok _) hx hσ
    (instruction_getLocal host (t := (x.state a σ temps).thread) h ?_)⟩
  obtain ⟨hlt, -⟩ := Array.getElem?_eq_some_iff.mp hget
  change (x.lower ++ values σ.locals ++ temps)[x.thread.base + slot]? = some v
  rw [hx.base, Array.append_assoc, Array.getElem?_append_right (Nat.le_add_right ..),
    Nat.add_sub_cancel_left, Array.getElem?_append_left hlt, hget]

theorem readVariable_follows {name : String} (hx : x.Sound id image ns.length) (hσ : x.Fits ns σ)
    (h : VariableAt image.chunk ns a .getLocal .getGlobal name) :
    Follows host n x ns (x.state a σ temps) (fun v σ' => x.state (a + 2) σ' (temps.push v))
      (readVariable name σ) := by
  simp only [readVariable]
  rw [bind_of_ok (get_apply σ)]
  simp only [VariableAt] at h
  cases hslot : slotOf name ns with
  | some slot =>
    simp only [hslot] at h
    obtain ⟨v, hfind, hfollows⟩ := getLocal_follows host n temps hx hσ hslot h
    simp only [hfind]
    exact hfollows
  | none =>
    simp only [hslot] at h
    obtain rfl := hx.image
    rw [← hσ.names] at hslot
    simp only [slotOf_eq_none hslot]
    have hinstr := instruction_getGlobal host (t := (x.state a σ temps).thread) (w := σ.world) h
    have hglobals : (x.state a σ temps).thread.globals = σ.globals := rfl
    rw [hglobals] at hinstr
    cases hget : σ.globals.get? name with
    | some v =>
      simp only [hget] at hinstr
      exact Follows.operated (r := .ok v) hx hσ hinstr
    | none =>
      simp only [hget] at hinstr
      change _ = EStateM.Result.error _ (x.state (a + 2) σ temps) at hinstr
      exact Follows.fail hx hσ hinstr

/-- Assignment leaves the value assigned. -/
theorem writeVariable_follows {name : String} {v : Value} (hx : x.Sound id image ns.length)
    (hσ : x.Fits ns σ) (h : VariableAt image.chunk ns a .setLocal .setGlobal name) :
    Follows host n x ns (x.state a σ (temps.push v))
      (fun u σ' => x.state (a + 2) σ' (temps.push u))
      ((do writeVariable name v; return v : Eval Value) σ) := by
  obtain rfl := hx.image
  unfold writeVariable
  rw [bind_of_ok (modify_apply _ σ)]
  simp only [VariableAt] at h
  have hst : (x.state a σ (temps.push v)).thread.stack =
      (x.lower ++ values σ.locals ++ temps).push v := stack_push ..
  cases hslot : slotOf name ns with
  | some slot =>
    simp only [hslot] at h
    rw [← hσ.names] at hslot
    obtain ⟨u, hfind, hget⟩ := slotOf_eq_some hslot
    obtain ⟨hvalues, hnames⟩ := values_put v hslot
    obtain ⟨hlt, -⟩ := Array.getElem?_eq_some_iff.mp hget
    simp only [hfind]
    have hbase : x.thread.base + slot < (x.state a σ (temps.push v)).thread.stack.size := by
      rw [hst, hx.base]
      simp only [Array.size_push, Array.size_append]
      omega
    refine Follows.step (instruction_setLocal host (t := (x.state a σ (temps.push v)).thread) h hst
      hbase) (Follows.ok ⟨hnames.trans hσ.names, hσ.armed⟩ ?_)
    have hset : (x.lower ++ values σ.locals ++ temps.push v).setIfInBounds (x.thread.base + slot) v
        = x.lower ++ (values σ.locals).setIfInBounds slot v ++ temps.push v := by
      rw [hx.base, Array.append_assoc, Array.setIfInBounds_append_right (Nat.le_add_right ..),
        Nat.add_sub_cancel_left, Array.setIfInBounds_append_left hlt, Array.append_assoc]
    simp only [Activation.state, hvalues, hset]
  | none =>
    simp only [hslot] at h
    rw [← hσ.names] at hslot
    simp only [slotOf_eq_none hslot]
    exact Follows.step (instruction_setGlobal host (t := (x.state a σ (temps.push v)).thread) h hst)
      (Follows.ok ⟨hσ.names, hσ.armed⟩ rfl)

theorem receiver_follows (hx : x.Sound id image ns.length) (hσ : x.Fits ns σ)
    (h : ∃ slot, slotOf "this" ns = some slot ∧ InstrAt image.chunk a .getLocal slot) :
    Follows host n x ns (x.state a σ temps) (fun v σ' => x.state (a + 2) σ' (temps.push v))
      (receiver σ) := by
  obtain ⟨slot, hslot, h⟩ := h
  obtain ⟨v, hfind, hfollows⟩ := getLocal_follows host n temps hx hσ hslot h
  simp only [receiver]
  rw [bind_of_ok (get_apply σ)]
  simp only [hfind]
  exact hfollows

theorem binaryValue_binaryOpcode (op : BinaryOp) :
    binaryValue (binaryOpcode op) = some (binaryResult op) := by
  cases op <;> rfl

theorem binary_follows {op : BinaryOp} {u v : Value} (hx : x.Sound id image ns.length)
    (hσ : x.Fits ns σ) (h : OpAt image.chunk a (binaryOpcode op)) :
    Follows host n x ns (x.state a σ ((temps.push u).push v))
      (fun v σ' => x.state (a + 1) σ' (temps.push v)) (attempt (binaryResult op u v) σ) := by
  obtain rfl := hx.image
  have hst : (x.state a σ ((temps.push u).push v)).thread.stack =
      ((x.lower ++ values σ.locals ++ temps).push u).push v := by
    rw [← stack_push, ← stack_push]
    rfl
  exact Follows.operated hx hσ (instruction_binary host
    (t := (x.state a σ ((temps.push u).push v)).thread) h (binaryValue_binaryOpcode op) hst)

theorem unary_follows {op : UnaryOp} {v : Value} (hx : x.Sound id image ns.length)
    (hσ : x.Fits ns σ) (h : OpAt image.chunk a (unaryOpcode op)) :
    Follows host n x ns (x.state a σ (temps.push v))
      (fun v σ' => x.state (a + 1) σ' (temps.push v)) (attempt (unaryResult op v) σ) := by
  obtain rfl := hx.image
  have hst : (x.state a σ (temps.push v)).thread.stack =
      (x.lower ++ values σ.locals ++ temps).push v := stack_push ..
  cases op with
  | neg =>
    have hneg : unaryResult .neg v = negated v := by cases v <;> rfl
    rw [hneg]
    exact Follows.operated hx hσ
      (instruction_negate host (t := (x.state a σ (temps.push v)).thread) h hst)
  | not =>
    exact Follows.operated (r := .ok _) hx hσ
      (instruction_not host (t := (x.state a σ (temps.push v)).thread) h hst)

theorem stack_append (lower locals temps : Array Value) (vs : List Value) :
    lower ++ locals ++ (temps ++ vs.toArray) = (lower ++ locals ++ temps) ++ vs.toArray := by
  simp only [Array.append_assoc]

theorem buildList_follows {vs : List Value} (hx : x.Sound id image ns.length) (hσ : x.Fits ns σ)
    (h : InstrAt image.chunk a .buildList vs.length) :
    Follows host n x ns (x.state a σ (temps ++ vs.toArray))
      (fun v σ' => x.state (a + 2) σ' (temps.push v)) (.ok (.list vs) σ) := by
  obtain rfl := hx.image
  exact Follows.operated (r := .ok _) hx hσ (instruction_buildList host
    (t := (x.state a σ (temps ++ vs.toArray)).thread) h (stack_append ..))

theorem buildMap_follows {m : Nat} {vs : List Value} (hx : x.Sound id image ns.length)
    (hσ : x.Fits ns σ) (h : InstrAt image.chunk a .buildMap m) (hm : vs.length = m * 2) :
    Follows host n x ns (x.state a σ (temps ++ vs.toArray))
      (fun v σ' => x.state (a + 2) σ' (temps.push v))
      (attempt ((buildMap vs {}).map .map) σ) := by
  obtain rfl := hx.image
  exact Follows.operated hx hσ (instruction_buildMap host
    (t := (x.state a σ (temps ++ vs.toArray)).thread) h hm (stack_append ..))

theorem readProperty_follows {name : String} {o : Value} (hx : x.Sound id image ns.length)
    (hσ : x.Fits ns σ) (h : ConstAt image.chunk a .getProperty (.str name)) :
    Follows host n x ns (x.state a σ (temps.push o))
      (fun v σ' => x.state (a + 2) σ' (temps.push v)) (readProperty o name σ) := by
  obtain rfl := hx.image
  have hread : readProperty o name σ = attempt (propertyOf σ.world.heap o name) σ := by
    cases o <;> rfl
  rw [hread]
  exact Follows.operated hx hσ (instruction_getProperty host
    (t := (x.state a σ (temps.push o)).thread) h (stack_push ..))

theorem writeProperty_follows {name : String} {o v : Value} (hx : x.Sound id image ns.length)
    (hσ : x.Fits ns σ) (h : ConstAt image.chunk a .setProperty (.str name)) :
    Follows host n x ns (x.state a σ ((temps.push o).push v))
      (fun v σ' => x.state (a + 2) σ' (temps.push v)) (writeProperty o name v σ) := by
  obtain rfl := hx.image
  have hst : (x.state a σ ((temps.push o).push v)).thread.stack =
      ((x.lower ++ values σ.locals ++ temps).push o).push v := by
    rw [← stack_push, ← stack_push]
    rfl
  have hinstr := instruction_setProperty host (w := σ.world)
    (t := (x.state a σ ((temps.push o).push v)).thread) h hst
  cases o with
  | inst i => exact Follows.operated (r := .ok v) hx ⟨hσ.names, hσ.armed⟩ hinstr
  | _ =>
    change _ = EStateM.Result.error _ (x.state (a + 2) σ temps) at hinstr
    exact Follows.fail hx hσ hinstr

end

/-! ## Expressions -/

/-- The machine follows calls. -/
structure CallsFollow (Γ : Context) (image : Image) : Prop where
  follows : ∀ {x : Activation} {ns : List String} {a : Nat} {σ : Store} {temps : Array Value}
    {callee : Value} {args : List Value}, x.Sound Γ.thread image ns.length → x.Fits ns σ →
    InstrAt image.chunk a .call args.length →
    Follows Γ.host Γ.rounds x ns (x.state a σ (temps.push callee ++ args.toArray))
      (fun v σ' => x.state (a + 2) σ' (temps.push v)) (Γ.call callee args σ)

section
variable {Γ : Context} {image : Image}

mutual

theorem expr_follows (hcalls : CallsFollow Γ image) : (e : Expr) → {x : Activation} →
    {ns : List String} → {a : Nat} → {σ : Store} → {temps : Array Value} →
    x.Sound Γ.thread image ns.length → x.Fits ns σ → ExprAt image.chunk ns a e →
    Follows Γ.host Γ.rounds x ns (x.state a σ temps)
      (fun v σ' => x.state (a + e.width) σ' (temps.push v)) (expr Γ e σ)
  | .var id, x, ns, a, σ, temps, hx, hσ, h => by
    simp only [ExprAt] at h
    exact readVariable_follows hx hσ h
  | .null _, x, ns, a, σ, temps, hx, hσ, h => by
    simp only [ExprAt] at h
    exact constant_follows hx hσ h
  | .bool b _, x, ns, a, σ, temps, hx, hσ, h => by
    simp only [ExprAt] at h
    exact constant_follows hx hσ h
  | .number m _, x, ns, a, σ, temps, hx, hσ, h => by
    simp only [ExprAt] at h
    exact constant_follows hx hσ h
  | .str s _, x, ns, a, σ, temps, hx, hσ, h => by
    simp only [ExprAt] at h
    exact constant_follows hx hσ h
  | .assign target value _, x, ns, a, σ, temps, hx, hσ, h => by
    cases target with
    | var id =>
      simp only [ExprAt] at h
      simp only [expr, Expr.width, ← Nat.add_assoc]
      exact (expr_follows hcalls value hx hσ h.1).bind fun v σ' _ hσ' =>
        writeVariable_follows hx hσ' h.2
    | _ =>
      simp only [ExprAt] at h
  | .set object name value _, x, ns, a, σ, temps, hx, hσ, h => by
    simp only [ExprAt] at h
    simp only [expr, Expr.width, ← Nat.add_assoc]
    exact (expr_follows hcalls object hx hσ h.1).bind fun o σ₁ _ hσ₁ =>
      (expr_follows hcalls value hx hσ₁ h.2.1).bind fun v σ₂ _ hσ₂ =>
        writeProperty_follows hx hσ₂ h.2.2
  | .get object name _, x, ns, a, σ, temps, hx, hσ, h => by
    simp only [ExprAt] at h
    simp only [expr, Expr.width, ← Nat.add_assoc]
    exact (expr_follows hcalls object hx hσ h.1).bind fun o σ₁ _ hσ₁ =>
      readProperty_follows hx hσ₁ h.2
  | .binary op left right _, x, ns, a, σ, temps, hx, hσ, h => by
    simp only [ExprAt] at h
    simp only [expr, Expr.width, ← Nat.add_assoc]
    exact (expr_follows hcalls left hx hσ h.1).bind fun u σ₁ _ hσ₁ =>
      (expr_follows hcalls right hx hσ₁ h.2.1).bind fun v σ₂ _ hσ₂ => binary_follows hx hσ₂ h.2.2
  | .unary op operand _, x, ns, a, σ, temps, hx, hσ, h => by
    simp only [ExprAt] at h
    simp only [expr, Expr.width, ← Nat.add_assoc]
    exact (expr_follows hcalls operand hx hσ h.1).bind fun v σ₁ _ hσ₁ => unary_follows hx hσ₁ h.2
  | .call callee args _, x, ns, a, σ, temps, hx, hσ, h => by
    simp only [ExprAt] at h
    simp only [expr, Expr.width, ← Nat.add_assoc]
    refine (expr_follows hcalls callee hx hσ h.1).bind fun f σ₁ _ hσ₁ =>
      (exprs_follows hcalls args hx hσ₁ h.2.1).bind fun vs σ₂ hvs hσ₂ => ?_
    refine hcalls.follows hx hσ₂ ?_
    rw [length_exprs hvs]
    exact h.2.2
  | .list elems _, x, ns, a, σ, temps, hx, hσ, h => by
    simp only [ExprAt] at h
    simp only [expr, Expr.width, ← Nat.add_assoc]
    refine (exprs_follows hcalls elems hx hσ h.1).bind fun vs σ₁ hvs hσ₁ =>
      buildList_follows hx hσ₁ ?_
    rw [length_exprs hvs]
    exact h.2
  | .map entries _, x, ns, a, σ, temps, hx, hσ, h => by
    simp only [ExprAt] at h
    simp only [expr, Expr.width, ← Nat.add_assoc]
    exact (pairs_follows hcalls entries hx hσ h.1).bind fun vs σ₁ hvs hσ₁ =>
      buildMap_follows hx hσ₁ h.2 (length_pairs hvs)
  | .self _, x, ns, a, σ, temps, hx, hσ, h => by
    simp only [ExprAt] at h
    exact receiver_follows hx hσ h
  | .spawn _ _, x, ns, a, σ, temps, hx, hσ, h => fun _ => trivial

theorem exprs_follows (hcalls : CallsFollow Γ image) : (es : List Expr) → {x : Activation} →
    {ns : List String} → {a : Nat} → {σ : Store} → {temps : Array Value} →
    x.Sound Γ.thread image ns.length → x.Fits ns σ →
    ExprsAt image.chunk ns a es →
    Follows Γ.host Γ.rounds x ns (x.state a σ temps)
      (fun vs σ' => x.state (a + widths es) σ' (temps ++ vs.toArray)) (exprs Γ es σ)
  | [], x, ns, a, σ, temps, hx, hσ, h => by
    simp only [exprs]
    exact Follows.ok hσ (by simp [widths])
  | e :: es, x, ns, a, σ, temps, hx, hσ, h => by
    simp only [ExprsAt] at h
    simp only [exprs, widths, ← Nat.add_assoc]
    exact (expr_follows hcalls e hx hσ h.1).bind fun v σ₁ _ hσ₁ =>
      (exprs_follows hcalls es hx hσ₁ h.2).bind fun vs σ₂ _ hσ₂ =>
        Follows.ok hσ₂ (by simp)

theorem pairs_follows (hcalls : CallsFollow Γ image) : (es : List (Expr × Expr)) →
    {x : Activation} → {ns : List String} → {a : Nat} → {σ : Store} → {temps : Array Value} →
    x.Sound Γ.thread image ns.length →
    x.Fits ns σ → PairsAt image.chunk ns a es →
    Follows Γ.host Γ.rounds x ns (x.state a σ temps)
      (fun vs σ' => x.state (a + pairWidths es) σ' (temps ++ vs.toArray)) (pairs Γ es σ)
  | [], x, ns, a, σ, temps, hx, hσ, h => by
    simp only [pairs]
    exact Follows.ok hσ (by simp [pairWidths])
  | (key, value) :: es, x, ns, a, σ, temps, hx, hσ, h => by
    simp only [PairsAt] at h
    simp only [pairs, pairWidths, ← Nat.add_assoc]
    exact (expr_follows hcalls key hx hσ h.1).bind fun k σ₁ _ hσ₁ =>
      (expr_follows hcalls value hx hσ₁ h.2.1).bind fun v σ₂ _ hσ₂ =>
        (pairs_follows hcalls es hx hσ₂ h.2.2).bind fun vs σ₃ _ hσ₃ =>
          Follows.ok hσ₃ (by simp)

end

end

end DotScript.Correctness
