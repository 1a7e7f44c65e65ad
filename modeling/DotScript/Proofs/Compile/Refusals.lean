import DotScript.Proofs.Compile.Compiled

/-!
# Why a program is refused

Most refusals can be read off the tree: a target that cannot be assigned to, a spawned expression that
is no call, a `this` where there is none. `Program.refusals` lists them in the order of the text. A
program is refused for the first of them, or because an operand does not fit into a word; then it has
too many words, constants or locals.

* `Full n c`: in the chunk `c`, or among `n` locals, there is no room for some operand;
* `Refuses n sc c rs x Q`: `x` is refused for the first of the reasons `rs` or for lack of room.

Main statements: `refusal_of_compile`, `refusals_of_compile`.
-/

namespace DotScript.Syntax

open DotScript.Compile

/-! ## Refusals by the text -/

mutual

/-- What an expression is refused for, with these locals in scope. -/
def Expr.refusals (ns : List String) : Expr → List CompileError
  | .var _ | .null _ | .bool _ _ | .number _ _ | .str _ _ => []
  | .assign (.var _) value _ => value.refusals ns
  | .assign target _ _ => [.invalidTarget target.span]
  | .set object _ value _ => object.refusals ns ++ value.refusals ns
  | .get object _ _ => object.refusals ns
  | .binary _ left right _ => left.refusals ns ++ right.refusals ns
  | .unary _ operand _ => operand.refusals ns
  | .call callee args _ => callee.refusals ns ++ exprRefusals ns args
  | .list elems _ => exprRefusals ns elems
  | .map entries _ => entryRefusals ns entries
  | .self span => if (slotOf "this" ns).isSome then [] else [.selfOutsideMethod span]
  | .spawn (.call callee args _) _ => callee.refusals ns ++ exprRefusals ns args
  | .spawn operand _ => [.spawnOfNonCall operand.span]

def exprRefusals (ns : List String) : List Expr → List CompileError
  | [] => []
  | e :: es => e.refusals ns ++ exprRefusals ns es

def entryRefusals (ns : List String) : List (Expr × Expr) → List CompileError
  | [] => []
  | (key, value) :: es => key.refusals ns ++ (value.refusals ns ++ entryRefusals ns es)

end

mutual

/-- What a statement is refused for. -/
def Stmt.refusals (ns : List String) : Stmt → List CompileError
  | .expr e => e.refusals ns
  | .print value _ => value.refusals ns
  | .function decl => decl.refusals false
  | .classDecl _ methods _ => methodRefusals methods
  | .block body => body.refusals ns
  | .ifElse cond thenBlock elseBlock _ =>
    cond.refusals ns ++ (thenBlock.refusals ns ++
      (match elseBlock with
        | some b => b.refusals ns
        | none => []))
  | .whileLoop cond body _ => cond.refusals ns ++ body.refusals ns
  | .ret value _ =>
    match value with
    | some e => e.refusals ns
    | none => []
  | .importUnit path _ => path.refusals ns
  | .tryCatch body errorVar handler _ =>
    body.refusals ns ++ handler.refusals (errorVar.name :: ns)

def stmtRefusals (ns : List String) : List Stmt → List CompileError
  | [] => []
  | s :: ss => s.refusals ns ++ stmtRefusals ns ss

def Block.refusals (ns : List String) : Block → List CompileError
  | ⟨ss, _⟩ => stmtRefusals ns ss

def methodRefusals : List FunctionDecl → List CompileError
  | [] => []
  | m :: ms => m.refusals true ++ methodRefusals ms

def FunctionDecl.refusals (isMethod : Bool) : FunctionDecl → List CompileError
  | ⟨_, params, ⟨body, _⟩, _⟩ => stmtRefusals (bodyNames isMethod (params.map (·.name))) body

end

/-- What a program is refused for, in the order of the text. -/
def Program.refusals (p : Program) : List CompileError := stmtRefusals [] p.stmts

mutual

/-- How many locals the scopes within a statement have, all together. A function has one for a
receiver, too. -/
def Stmt.binders : Stmt → Nat
  | .expr _ | .print _ _ | .ret _ _ | .importUnit _ _ => 0
  | .function decl => decl.binders
  | .classDecl _ methods _ => methodBinders methods
  | .block body => body.binders
  | .ifElse _ thenBlock elseBlock _ =>
    thenBlock.binders +
      (match elseBlock with
        | some b => b.binders
        | none => 0)
  | .whileLoop _ body _ => body.binders
  | .tryCatch body _ handler _ => body.binders + (handler.binders + 1)

def stmtBinders : List Stmt → Nat
  | [] => 0
  | s :: ss => s.binders + stmtBinders ss

def Block.binders : Block → Nat
  | ⟨ss, _⟩ => stmtBinders ss

def methodBinders : List FunctionDecl → Nat
  | [] => 0
  | m :: ms => m.binders + methodBinders ms

def FunctionDecl.binders : FunctionDecl → Nat
  | ⟨_, params, ⟨body, _⟩, _⟩ => params.length + 1 + stmtBinders body

end

/-- How many locals the scopes of a program have, all together. -/
def Program.binders (p : Program) : Nat := stmtBinders p.stmts

end DotScript.Syntax

namespace DotScript.Compile

open DotScript.Bytecode DotScript.Syntax

/-! ## Room -/

/-- The chunk `c'` has the words and constants of `c`, and maybe more. -/
structure Grows (c c' : Chunk) : Prop where
  code : c.code.size ≤ c'.code.size
  constants : c.constants.size ≤ c'.constants.size

namespace Grows

variable {c c' c'' : Chunk}

theorem refl (c : Chunk) : Grows c c := ⟨Nat.le_refl _, Nat.le_refl _⟩

theorem trans (h : Grows c c') (h' : Grows c' c'') : Grows c c'' :=
  ⟨Nat.le_trans h.code h'.code, Nat.le_trans h.constants h'.constants⟩

theorem write (c : Chunk) (w : Word) : Grows c (c.write w) :=
  ⟨by simp [Chunk.write], Nat.le_refl _⟩

theorem addConstant (c : Chunk) (k : Constant) : Grows c (c.addConstant k) :=
  ⟨Nat.le_refl _, by simp [Chunk.addConstant]⟩

theorem patch (c : Chunk) (slot : Nat) (w : Word) : Grows c (c.patch slot w) :=
  ⟨by simp [Chunk.patch], Nat.le_refl _⟩

end Grows

/-- There may be an operand that does not fit into a word: a number of words, constants or locals. -/
def Full (n : Nat) (c : Chunk) : Prop :=
  2147483648 ≤ c.code.size ∨ 2147483648 ≤ c.constants.size ∨ 2147483648 < n

namespace Full

variable {n k : Nat} {c c' : Chunk}

theorem grows (h : Full n c) (hc : Grows c c') : Full n c' := by
  have hcode := hc.code
  have hconstants := hc.constants
  unfold Full at h ⊢
  omega

theorem of_count (hk : k ≤ c.code.size) (h : 2147483648 ≤ k) : Full n c := .inl (Nat.le_trans h hk)

theorem of_index (hk : k < c.constants.size) (h : 2147483648 ≤ k) : Full n c :=
  .inr (.inl (Nat.le_of_lt (Nat.lt_of_le_of_lt h hk)))

theorem of_slot (hk : k < n) (h : 2147483648 ≤ k) : Full n c := .inr (.inr (Nat.lt_of_le_of_lt h hk))

end Full

/-! ## Refusals by the builder -/

/-- A piece of building, from any chunk that `c` has grown into and with the locals of `sc`. It is
refused for the first of some reasons, or for lack of room when `n` locals are the most there are. If
it is not refused then there are no such reasons, the scope is left as it was, and what is given has
the property `Q`. Nothing that was written is lost. -/
structure Refuses {α : Type} (n : Nat) (sc : Scope) (c : Chunk) (rs : List CompileError) (x : Build α)
    (Q : α → Chunk → Prop) : Prop where
  ok : ∀ {b b' : Builder} {r}, b.scope = sc → Grows c b.chunk → x b = .ok r b' →
    rs = [] ∧ b'.scope = sc ∧ Grows b.chunk b'.chunk ∧ Q r b'.chunk
  error : ∀ {b b' : Builder} {e}, b.scope = sc → Grows c b.chunk → x b = .error e b' →
    Grows b.chunk b'.chunk ∧
      (rs.head? = some e ∨ (∃ m, e = .operandOverflow m) ∧ Full n b'.chunk)

/-- Nothing is said about what is given. -/
def Any {α : Type} : α → Chunk → Prop := fun _ _ => True

namespace Refuses

variable {α β : Type} {n : Nat} {sc : Scope} {c : Chunk} {x : Build α} {y : α → Build β}
  {rs rs' : List CompileError} {Q : α → Chunk → Prop} {Q' : β → Chunk → Prop}

/-- One piece behind the other. -/
theorem bind (hx : Refuses n sc c rs x Q)
    (hy : ∀ r c', Grows c c' → Q r c' → Refuses n sc c' rs' (y r) Q') :
    Refuses n sc c (rs ++ rs') (x >>= y) Q' where
  ok := by
    intro b b'' r hb hc h
    obtain ⟨r', b', hx', hy'⟩ := bind_eq_ok.mp h
    obtain ⟨hnone, hscope, hgrows, hQ⟩ := hx.ok hb hc hx'
    obtain ⟨hnone', hscope', hgrows', hQ'⟩ :=
      (hy r' b'.chunk (hc.trans hgrows) hQ).ok hscope (.refl _) hy'
    exact ⟨by rw [hnone, hnone', List.append_nil], hscope', hgrows.trans hgrows', hQ'⟩
  error := by
    intro b b'' e hb hc h
    rw [bind_apply] at h
    cases hrun : x b with
    | ok r b' =>
      rw [hrun] at h
      obtain ⟨hnone, hscope, hgrows, hQ⟩ := hx.ok hb hc hrun
      obtain ⟨hgrows', hfirst⟩ := (hy r b'.chunk (hc.trans hgrows) hQ).error hscope (.refl _) h
      rw [hnone, List.nil_append]
      exact ⟨hgrows.trans hgrows', hfirst⟩
    | error e' b' =>
      rw [hrun] at h
      cases h
      obtain ⟨hgrows, hfirst⟩ := hx.error hb hc hrun
      refine ⟨hgrows, hfirst.imp_left fun hfirst => ?_⟩
      rw [List.head?_append, hfirst, Option.some_or]

/-- A piece that is never refused but for lack of room, before another one. -/
theorem before (hx : Refuses n sc c [] x Q)
    (hy : ∀ r c', Grows c c' → Q r c' → Refuses n sc c' rs (y r) Q') : Refuses n sc c rs (x >>= y) Q' :=
  hx.bind hy

theorem after (hx : Refuses n sc c rs x Q)
    (hy : ∀ r c', Grows c c' → Q r c' → Refuses n sc c' [] (y r) Q') :
    Refuses n sc c rs (x >>= y) Q' := by
  have h := hx.bind hy
  rwa [List.append_nil] at h

theorem pure {r : α} (h : ∀ c', Grows c c' → Q r c') : Refuses n sc c [] (pure r : Build α) Q where
  ok hb hc h' := by
    cases h'
    exact ⟨rfl, hb, .refl _, h _ hc⟩
  error _ _ h' := nomatch h'

theorem throw (e : CompileError) : Refuses n sc c [e] (throw e : Build α) Q where
  ok _ _ h := nomatch h
  error _ _ h := by
    cases h
    exact ⟨.refl _, .inl rfl⟩

theorem modify {f : Builder → Builder} {Q : Unit → Chunk → Prop} (hscope : ∀ b, (f b).scope = b.scope)
    (hgrows : ∀ b, Grows b.chunk (f b).chunk) (hQ : ∀ b, Grows c b.chunk → Q () (f b).chunk) :
    Refuses n sc c [] (modify f : Build Unit) Q where
  ok hb hc h := by
    cases h
    exact ⟨rfl, (hscope _).trans hb, hgrows _, hQ _ hc⟩
  error _ _ h := nomatch h

/-- What depends on the builder. -/
theorem get {f : Builder → Build α}
    (hf : ∀ b : Builder, b.scope = sc → Grows c b.chunk → Refuses n sc b.chunk rs (f b) Q) :
    Refuses n sc c rs (do f (← get)) Q where
  ok hb hc h := (hf _ hb hc).ok hb (.refl _) h
  error hb hc h := (hf _ hb hc).error hb (.refl _) h

/-- An operand that fits into a word if there is room. -/
theorem fit {k : Int} {operand : Nat} (h : k < -2147483648 ∨ 2147483647 < k → Full n c) :
    Refuses n sc c [] (fit k operand) Any := by
  unfold Compile.fit
  cases hw : word? k with
  | some w => exact .pure fun _ _ => trivial
  | none =>
    have hout : k < -2147483648 ∨ 2147483647 < k := by
      unfold word? at hw
      split at hw
      · cases hw
      · omega
    refine ⟨fun _ _ h' => (nomatch h'), fun _ hc h' => ?_⟩
    cases h'
    exact ⟨.refl _, .inr ⟨⟨operand, rfl⟩, (h hout).grows hc⟩⟩

end Refuses

/-! ## Instructions -/

section
variable {n : Nat} {sc : Scope} {c : Chunk} {rs rs' rs'' : List CompileError} {x y z : Build Unit}

theorem here_refuses : Refuses n sc c [] here fun r c' => c.code.size ≤ r ∧ r ≤ c'.code.size :=
  .get fun _ _ hc => .pure fun _ hc' => ⟨hc.code, hc'.code⟩

theorem emitWord_refuses (w : Word) :
    Refuses n sc c [] (emitWord w) fun _ c' => c.code.size < c'.code.size := by
  refine .modify (fun _ => rfl) (fun _ => .write _ _) fun b hc => ?_
  have hcode := hc.code
  simp only [Chunk.write, Array.size_push]
  omega

theorem emit_refuses (op : Opcode) : Refuses n sc c [] (emit op) Any :=
  .modify (fun _ => rfl) (fun _ => .write _ _) fun _ _ => trivial

theorem emitOp_refuses (op : Opcode) :
    Refuses n sc c [] (emitOp op) fun r c' => c.code.size ≤ r ∧ r < c'.code.size :=
  here_refuses.before fun _ _ _ hr => (emitWord_refuses _).before fun _ _ _ hlt => .pure fun _ hc' =>
    ⟨hr.1, Nat.lt_of_le_of_lt hr.2 (Nat.lt_of_lt_of_le hlt hc'.code)⟩

theorem emitWith_refuses (op : Opcode) {operand : Nat} (h : 2147483648 ≤ operand → Full n c) :
    Refuses n sc c [] (discard (emitWith op operand)) Any :=
  Refuses.before (Q := Any) (.before (.fit fun hout => h (by omega)) fun _ _ _ _ =>
    (emitOp_refuses op).before fun _ _ _ _ => (emitWord_refuses _).before fun _ _ _ _ =>
      .pure fun _ _ => trivial) fun _ _ _ _ => .pure fun _ _ => trivial

/-- An instruction that counts what was written before. -/
theorem counted_refuses {w count : Nat} {P : List String → Nat → Chunk → Prop} (op : Opcode)
    (hsc : sc.Tidy) (hx : Refuses n sc c rs x Any) (hlays : Lays x w P) (hcount : count ≤ w) :
    Refuses n sc c rs (do x; discard (emitWith op count)) Any := by
  have hwritten : Refuses n sc c rs x fun _ c' => count ≤ c'.code.size :=
    { hx with
      ok := fun {b b' r} hb hc h => by
        obtain ⟨hnone, hscope, hgrows, -⟩ := hx.ok hb hc h
        have hsize := (hlays.out (hb ▸ hsc) h).2.size
        exact ⟨hnone, hscope, hgrows, by omega⟩ }
  exact hwritten.after fun _ _ _ hroom => emitWith_refuses op (.of_count hroom)

theorem addFunction_refuses (proto : Prototype) :
    Refuses n sc c [] (addConstant (.function proto)) fun index c' => index < c'.constants.size where
  ok {b _ _} hb _ h := by
    cases h
    refine ⟨rfl, hb, .addConstant _ _, ?_⟩
    simp only [Builder.define_chunk, Chunk.addConstant, Array.size_push, Nat.lt_succ_self]
  error _ _ h := nomatch h

theorem intern_refuses (k : Constant) :
    Refuses n sc c [] (intern k) fun index c' => index < c'.constants.size where
  ok {b _ _} hb _ h := by
    cases hlisted : b.indices.get? k with
    | some index =>
      rw [intern_listed hlisted] at h
      cases h
      exact ⟨rfl, hb, .refl _, (Array.getElem?_eq_some_iff.mp (b.indexed.denotes hlisted)).1⟩
    | none =>
      rw [intern_new hlisted] at h
      cases h
      refine ⟨rfl, hb, .addConstant _ _, ?_⟩
      simp only [Builder.share_chunk, Chunk.addConstant, Array.size_push, Nat.lt_succ_self]
  error {b _ _} _ _ h := by
    obtain ⟨_, _, hok⟩ := exists_intern k b
    cases hok.symm.trans h

/-- An instruction with a constant that is interned first. -/
theorem interned_refuses (op : Opcode) (k : Constant) :
    Refuses n sc c [] (do discard (emitWith op (← intern k))) Any :=
  (intern_refuses k).before fun _ _ _ hindex => emitWith_refuses op (.of_index hindex)

theorem slot_lt_of_slotOf {slot : Nat} {name : String} (hn : sc.locals.length ≤ n)
    (h : slotOf name sc.names = some slot) : slot < n := by
  have hlt := slotOf_lt h
  rw [Scope.names, List.length_map] at hlt
  exact Nat.lt_of_lt_of_le hlt hn

theorem emitVariable_refuses (hn : sc.locals.length ≤ n) (onLocal onGlobal : Opcode) (name : String) :
    Refuses n sc c [] (emitVariable onLocal onGlobal name) Any := by
  refine .get fun b hb _ => ?_
  rw [hb, Scope.resolve_eq_slotOf]
  cases hslot : slotOf name sc.names with
  | some slot => exact emitWith_refuses onLocal (.of_slot (slot_lt_of_slotOf hn hslot))
  | none => exact interned_refuses onGlobal (.str name)

theorem emitJump_refuses (op : Opcode) :
    Refuses n sc c [] (emitJump op) fun slot c' => slot < c'.code.size :=
  (emit_refuses op).before fun _ _ _ _ => here_refuses.before fun _ _ _ hr =>
    (emitWord_refuses 0).before fun _ _ _ hlt => .pure fun _ hc' =>
      Nat.lt_of_le_of_lt hr.2 (Nat.lt_of_lt_of_le hlt hc'.code)

theorem patchJump_refuses {slot : Nat} (h : slot < c.code.size) :
    Refuses n sc c [] (patchJump slot) Any :=
  here_refuses.before fun _ _ _ htarget =>
    Refuses.before (.fit fun hout => .of_count htarget.2 (by omega)) fun _ _ _ _ =>
      .modify (fun _ => rfl) (fun _ => .patch _ _ _) fun _ _ => trivial

theorem emitLoop_refuses {start : Nat} (h : start ≤ c.code.size) :
    Refuses n sc c [] (emitLoop start) Any :=
  (emitOp_refuses .jump).before fun _ _ _ haddress =>
    Refuses.before (.fit fun hout => .of_count haddress.2 (by omega)) fun _ _ _ _ =>
      .modify (fun _ => rfl) (fun _ => .write _ _) fun _ _ => trivial

end

/-! ## Expressions -/

theorem expr_width_pos : (e : Expr) → 0 < e.width
  | .var _ | .null _ | .bool _ _ | .number _ _ | .str _ _ | .self _ => by simp [Expr.width]
  | .assign _ _ _ | .set _ _ _ _ | .get _ _ _ | .binary _ _ _ _ | .unary _ _ _ | .call _ _ _
  | .list _ _ | .map _ _ => by simp [Expr.width]
  | .spawn call _ => by simpa only [Expr.width] using expr_width_pos call

theorem length_le_widths (es : List Expr) : es.length ≤ widths es := by
  induction es with
  | nil => exact Nat.zero_le _
  | cons e es ih =>
    have hpos := expr_width_pos e
    simp only [List.length_cons, widths]
    omega

theorem length_le_pairWidths (entries : List (Expr × Expr)) : entries.length ≤ pairWidths entries := by
  induction entries with
  | nil => exact Nat.zero_le _
  | cons entry entries ih =>
    have hpos := expr_width_pos entry.1
    simp only [List.length_cons, pairWidths]
    omega

section
variable {n : Nat} {sc : Scope}

theorem self_refuses (hn : sc.locals.length ≤ n) (span : Text.Span) (c : Chunk) :
    Refuses n sc c (Expr.refusals sc.names (.self span)) (expr (.self span)) Any := by
  simp only [expr, Expr.refusals]
  refine .get fun b hb _ => ?_
  rw [hb, Scope.resolve_eq_slotOf]
  cases hslot : slotOf "this" sc.names with
  | some slot => exact emitWith_refuses .getLocal (.of_slot (slot_lt_of_slotOf hn hslot))
  | none => exact .throw _

mutual

theorem expr_refuses (hsc : sc.Tidy) (hn : sc.locals.length ≤ n) : (e : Expr) → (c : Chunk) →
    Refuses n sc c (e.refusals sc.names) (expr e) Any
  | .var id, _ => emitVariable_refuses hn _ _ id.name
  | .null _, _ => interned_refuses .constant .null
  | .bool b _, _ => interned_refuses .constant (.bool b)
  | .number v _, _ => interned_refuses .constant (.number v)
  | .str s _, _ => interned_refuses .constant (.str s)
  | .assign target value _, c => by
    cases target with
    | var id =>
      exact (expr_refuses hsc hn value c).after fun _ _ _ _ => emitVariable_refuses hn _ _ id.name
    | _ => exact .throw _
  | .set object name value _, c => (expr_refuses hsc hn object c).bind fun _ c _ _ =>
    (expr_refuses hsc hn value c).after fun _ _ _ _ => interned_refuses _ _
  | .get object name _, c => (expr_refuses hsc hn object c).after fun _ _ _ _ => interned_refuses _ _
  | .binary op left right _, c => (expr_refuses hsc hn left c).bind fun _ c _ _ =>
    (expr_refuses hsc hn right c).after fun _ _ _ _ => emit_refuses _
  | .unary op operand _, c => (expr_refuses hsc hn operand c).after fun _ _ _ _ => emit_refuses _
  | .call callee args _, c => (expr_refuses hsc hn callee c).bind fun _ c _ _ =>
    counted_refuses .call hsc (exprs_refuses hsc hn args c) (exprs_lays args)
      (length_le_widths args)
  | .list elems _, c => counted_refuses .buildList hsc (exprs_refuses hsc hn elems c)
    (exprs_lays elems) (length_le_widths elems)
  | .map entries _, c => counted_refuses .buildMap hsc (pairs_refuses hsc hn entries c)
    (pairs_lays entries) (length_le_pairWidths entries)
  | .self span, c => self_refuses hn span c
  | .spawn operand _, c => by
    cases operand with
    | call callee args _ =>
      exact (expr_refuses hsc hn callee c).bind fun _ c _ _ =>
        counted_refuses .spawn hsc (exprs_refuses hsc hn args c) (exprs_lays args)
          (length_le_widths args)
    | _ => exact .throw _

theorem exprs_refuses (hsc : sc.Tidy) (hn : sc.locals.length ≤ n) : (es : List Expr) → (c : Chunk) →
    Refuses n sc c (exprRefusals sc.names es) (exprs es) Any
  | [], _ => .pure fun _ _ => trivial
  | e :: es, c => (expr_refuses hsc hn e c).bind fun _ c _ _ => exprs_refuses hsc hn es c

theorem pairs_refuses (hsc : sc.Tidy) (hn : sc.locals.length ≤ n) : (es : List (Expr × Expr)) →
    (c : Chunk) → Refuses n sc c (entryRefusals sc.names es) (pairs es) Any
  | [], _ => .pure fun _ _ => trivial
  | (key, value) :: es, c => (expr_refuses hsc hn key c).bind fun _ c _ _ =>
    (expr_refuses hsc hn value c).bind fun _ c _ _ => pairs_refuses hsc hn es c

end

end

/-! ## Statements -/

section
variable {n : Nat} {sc : Scope} {rs rs' rs'' : List CompileError} {x y z : Build Unit}

theorem conditional_refuses (hx : ∀ c, Refuses n sc c rs x Any) (hy : ∀ c, Refuses n sc c rs' y Any)
    (hz : ∀ c, Refuses n sc c rs'' z Any) (c : Chunk) :
    Refuses n sc c (rs ++ (rs' ++ rs'')) (conditional x y z) Any :=
  (hx c).bind fun _ _ _ _ => (emitJump_refuses _).before fun _ c _ helse => (hy c).bind
    fun _ _ hthen _ => (emitJump_refuses _).before fun _ _ hjump hend =>
      (patchJump_refuses (Nat.lt_of_lt_of_le helse (hthen.trans hjump).code)).before
        fun _ c hpatch _ => (hz c).after fun _ _ hother _ =>
          patchJump_refuses (Nat.lt_of_lt_of_le hend (hpatch.trans hother).code)

theorem leaveScope_ne_error {b b' : Builder} {e : CompileError} : leaveScope b ≠ .error e b' := by
  have hpops : ∀ (n : Nat) (b : Builder), emitPops n b ≠ .error e b' := by
    intro n
    induction n with
    | zero => exact fun _ => nofun
    | succ n ih => exact fun _ => ih _
  exact hpops _ _

/-- A block in a scope of its own. -/
theorem scoped_refuses (hsc : sc.Tidy) {c : Chunk} (hx : Refuses n sc.enter c rs x Any) :
    Refuses n sc c rs (do
      enterScope
      x
      leaveScope) Any where
  ok := by
    intro b b' _ hb hc h
    simp only [bind_eq_ok] at h
    obtain ⟨_, _, ⟨⟩, _, b₁, h₁, h₂⟩ := h
    obtain ⟨hnone, hscope, hgrows, -⟩ :=
      hx.ok (b := { b with scope := b.scope.enter }) (congrArg Scope.enter hb) hc h₁
    rw [leaveScope_enter hsc hscope h₂]
    exact ⟨hnone, rfl, hgrows, trivial⟩
  error := by
    intro b b' e hb hc h
    rw [bind_of_ok (show enterScope b = .ok () { b with scope := b.scope.enter } from rfl),
      bind_apply] at h
    cases hrun : x { b with scope := b.scope.enter } with
    | ok r b₁ =>
      rw [hrun] at h
      exact absurd h leaveScope_ne_error
    | error e b₁ =>
      rw [hrun] at h
      cases h
      exact hx.error (b := { b with scope := b.scope.enter }) (congrArg Scope.enter hb) hc hrun

/-- A block with a variable in scope. -/
theorem bound_refuses (hsc : sc.Tidy) (name : String) {c : Chunk}
    (hx : Refuses n (sc.enter.declare name) c rs x Any) :
    Refuses n sc c rs (do
      enterScope
      declare name
      x
      leaveScope) Any where
  ok := by
    intro b b' _ hb hc h
    simp only [bind_eq_ok] at h
    obtain ⟨_, _, ⟨⟩, _, _, ⟨⟩, _, b₁, h₁, h₂⟩ := h
    let b₀ : Builder := { b with scope := b.scope.enter.declare name }
    have hscope₀ : b₀.scope = sc.enter.declare name := by rw [← hb]
    obtain ⟨hnone, hscope, hgrows, -⟩ := hx.ok (b := b₀) hscope₀ hc h₁
    rw [leaveScope_declare hsc hscope h₂]
    exact ⟨hnone, rfl, hgrows.trans (.write _ _), trivial⟩
  error := by
    intro b b' e hb hc h
    let b₀ : Builder := { b with scope := b.scope.enter.declare name }
    have hscope₀ : b₀.scope = sc.enter.declare name := by rw [← hb]
    rw [bind_of_ok (show enterScope b = .ok () { b with scope := b.scope.enter } from rfl),
      bind_of_ok (show declare name _ = .ok () b₀ from rfl), bind_apply] at h
    cases hrun : x b₀ with
    | ok r b₁ =>
      rw [hrun] at h
      exact absurd h leaveScope_ne_error
    | error e b₁ =>
      rw [hrun] at h
      cases h
      exact hx.error (b := b₀) hscope₀ hc hrun

/-- A function body has a scope of its own. -/
theorem withScope_refuses {scope : Scope} {c : Chunk} (hx : Refuses n scope c rs x Any) :
    Refuses n sc c rs (withScope scope x) Any where
  ok := by
    intro b b' _ hb hc h
    unfold withScope at h
    cases hrun : x { b with scope } with
    | ok r b₁ =>
      rw [hrun] at h
      cases h
      obtain ⟨hnone, -, hgrows, -⟩ := hx.ok (b := { b with scope }) rfl hc hrun
      exact ⟨hnone, hb, hgrows, trivial⟩
    | error e b₁ =>
      rw [hrun] at h
      cases h
  error := by
    intro b b' e hb hc h
    unfold withScope at h
    cases hrun : x { b with scope } with
    | ok r b₁ =>
      rw [hrun] at h
      cases h
    | error e b₁ =>
      rw [hrun] at h
      cases h
      obtain ⟨hgrows, hfirst⟩ := hx.error (b := { b with scope }) rfl hc hrun
      exact ⟨hgrows, hfirst⟩

theorem function_refuses {isMethod : Bool} {name : Ident} {params : List Ident} {body : List Stmt}
    {bodySpan span : Text.Span}
    (hbody : ∀ c, Refuses n (.ofParams isMethod (params.map (·.name))) c
      (stmtRefusals (bodyNames isMethod (params.map (·.name))) body) (functionBody body) Any)
    (c : Chunk) :
    Refuses n sc c (FunctionDecl.refusals isMethod ⟨name, params, ⟨body, bodySpan⟩, span⟩)
      (function isMethod ⟨name, params, ⟨body, bodySpan⟩, span⟩)
      fun index c' => index < c'.constants.size :=
  (emitJump_refuses _).before fun _ _ _ hskip => here_refuses.before fun _ c hentry _ =>
    (withScope_refuses (hbody c)).after fun _ _ hwritten _ =>
      (patchJump_refuses (Nat.lt_of_lt_of_le hskip (hentry.trans hwritten).code)).before
        fun _ _ _ _ => addFunction_refuses _

/-- A function, the constant that pushes it, and an instruction that names it. -/
theorem define_refuses {w : Build Nat} {c : Chunk}
    (hw : Refuses n sc c rs w fun index c' => index < c'.constants.size) (op : Opcode) (name : String)
    (hx : ∀ c, Refuses n sc c rs' x Any) :
    Refuses n sc c (rs ++ rs') (do
      let proto ← w
      let index ← internStr name
      emitConstant proto
      discard (emitWith op index)
      x) Any :=
  hw.bind fun _ _ _ hproto => (intern_refuses _).before fun _ _ hinterned hindex =>
    (emitWith_refuses _ (.of_index (Nat.lt_of_lt_of_le hproto hinterned.constants))).before
      fun _ _ hpushed _ =>
        (emitWith_refuses _ (.of_index (Nat.lt_of_lt_of_le hindex hpushed.constants))).before
          fun _ c _ _ => hx c

theorem loop_refuses (hx : ∀ c, Refuses n sc c rs x Any) (hy : ∀ c, Refuses n sc c rs' y Any)
    (c : Chunk) : Refuses n sc c (rs ++ rs') (do
      let start ← here
      x
      let exit ← emitJump .jumpIfFalse
      y
      emitLoop start
      patchJump exit) Any :=
  here_refuses.before fun _ c _ hstart => (hx c).bind fun _ _ hcond _ =>
    (emitJump_refuses _).before fun _ c hjump hexit => (hy c).after fun _ _ hbody _ =>
      (emitLoop_refuses (Nat.le_trans hstart.2 (hcond.trans (hjump.trans hbody)).code)).before
        fun _ _ hloop _ => patchJump_refuses (Nat.lt_of_lt_of_le hexit (hbody.trans hloop).code)

theorem try_refuses (hsc : sc.Tidy) (name : String) (hx : ∀ c, Refuses n sc c rs x Any)
    (hy : ∀ c, Refuses n (sc.enter.declare name) c rs' y Any) (c : Chunk) :
    Refuses n sc c (rs ++ rs') (do
      let handlerJump ← emitJump .tryEnter
      x
      emit .tryExit
      let endJump ← emitJump .jump
      patchJump handlerJump
      enterScope
      declare name
      y
      leaveScope
      patchJump endJump) Any := by
  refine (emitJump_refuses _).before fun _ c _ henter => (hx c).bind fun _ _ hbody _ =>
    (emit_refuses _).before fun _ _ hexit _ => (emitJump_refuses _).before fun endJump _ hjump hend =>
      (patchJump_refuses (Nat.lt_of_lt_of_le henter (hbody.trans (hexit.trans hjump)).code)).before
        fun _ c hpatch _ => ?_
  have hhandler := (bound_refuses hsc name (hy c)).after fun _ _ hgrows _ =>
    patchJump_refuses (Nat.lt_of_lt_of_le hend (hpatch.trans hgrows).code)
  simpa only [bind_assoc] using hhandler

theorem length_ofParams (isMethod : Bool) (params : List Ident) :
    (Scope.ofParams isMethod (params.map (·.name))).locals.length ≤ params.length + 1 := by
  have hnames := congrArg List.length (Scope.names_ofParams isMethod (params.map (·.name)))
  rw [Scope.names, List.length_map] at hnames
  rw [hnames]
  cases isMethod <;> simp [bodyNames]

mutual

theorem stmt_refuses {sc : Scope} (hsc : sc.Tidy) : (s : Stmt) → sc.locals.length + s.binders ≤ n →
    (c : Chunk) → Refuses n sc c (s.refusals sc.names) (stmt s) Any
  | .expr e, hn, c => (expr_refuses hsc hn e c).after fun _ _ _ _ => emit_refuses _
  | .print value _, hn, c => (expr_refuses hsc hn value c).after fun _ _ _ _ => emit_refuses _
  | .function decl, hn, c => by
    have hdecl : decl.binders ≤ n := Nat.le_trans (Nat.le_add_left _ _) hn
    have h : Refuses n sc c (decl.refusals false ++ []) (stmt (.function decl)) Any :=
      define_refuses (decl_refuses false decl hdecl c) .setGlobal decl.name.name
        fun _ => emit_refuses .pop
    rwa [List.append_nil] at h
  | .classDecl name methods _, hn, c => (interned_refuses _ _).before fun _ c _ _ =>
    (methods_refuses methods (Nat.le_trans (Nat.le_add_left _ _) hn) c).after fun _ _ _ _ =>
      emit_refuses _
  | .block body, hn, c => block_refuses hsc body hn c
  | .ifElse cond thenBlock elseBlock _, hn, c => by
    have hcond := expr_refuses hsc (Nat.le_trans (Nat.le_add_right _ _) hn) cond
    cases elseBlock with
    | some b =>
      simp only [Stmt.binders] at hn
      exact conditional_refuses hcond (block_refuses hsc thenBlock (by omega))
        (block_refuses hsc b (by omega)) c
    | none =>
      exact conditional_refuses hcond (block_refuses hsc thenBlock hn)
        (fun _ => .pure fun _ _ => trivial) c
  | .whileLoop cond body _, hn, c =>
    loop_refuses (expr_refuses hsc (Nat.le_trans (Nat.le_add_right _ _) hn) cond)
      (block_refuses hsc body hn) c
  | .ret value _, hn, c => by
    cases value with
    | some e => exact (expr_refuses hsc hn e c).after fun _ _ _ _ => emit_refuses _
    | none => exact (interned_refuses .constant .null).before fun _ _ _ _ => emit_refuses _
  | .importUnit path _, hn, c => (expr_refuses hsc hn path c).after fun _ _ _ _ => emit_refuses _
  | .tryCatch body errorVar handler _, hn, c => by
    simp only [Stmt.binders] at hn
    have hhandler : (sc.enter.declare errorVar.name).locals.length + handler.binders ≤ n := by
      change sc.locals.length + 1 + handler.binders ≤ n
      omega
    exact try_refuses hsc errorVar.name (block_refuses hsc body (by omega))
      (block_refuses (hsc.enter.declare errorVar.name) handler hhandler) c

theorem stmts_refuses {sc : Scope} (hsc : sc.Tidy) : (ss : List Stmt) →
    sc.locals.length + stmtBinders ss ≤ n →
    (c : Chunk) → Refuses n sc c (stmtRefusals sc.names ss) (stmts ss) Any
  | [], _, _ => .pure fun _ _ => trivial
  | s :: ss, hn, c => by
    simp only [stmtBinders] at hn
    exact (stmt_refuses hsc s (by omega) c).bind fun _ c _ _ => stmts_refuses hsc ss (by omega) c

theorem block_refuses {sc : Scope} (hsc : sc.Tidy) : (b : Block) → sc.locals.length + b.binders ≤ n →
    (c : Chunk) → Refuses n sc c (b.refusals sc.names) (block b) Any
  | ⟨ss, _⟩, hn, c => scoped_refuses hsc (stmts_refuses hsc.enter ss hn c)

theorem methods_refuses {sc : Scope} : (ms : List FunctionDecl) → methodBinders ms ≤ n →
    (c : Chunk) → Refuses n sc c (methodRefusals ms) (methodDefs ms) Any
  | [], _, _ => .pure fun _ _ => trivial
  | m :: ms, hn, c => by
    simp only [methodBinders] at hn
    exact define_refuses (decl_refuses true m (by omega) c) _ _ (methods_refuses ms (by omega))

theorem decl_refuses {sc : Scope} (isMethod : Bool) : (decl : FunctionDecl) → decl.binders ≤ n →
    (c : Chunk) → Refuses n sc c (decl.refusals isMethod) (function isMethod decl)
      fun index c' => index < c'.constants.size
  | ⟨name, params, ⟨body, _⟩, _⟩, hn, c => by
    have hlocals := length_ofParams isMethod params
    have htidy := Scope.tidy_ofParams isMethod (params.map (·.name))
    simp only [FunctionDecl.binders] at hn
    refine function_refuses (fun c => ?_) c
    rw [functionBody_eq, ← Scope.names_ofParams]
    split
    · exact stmts_refuses htidy body (by omega) c
    · exact (value_refuses htidy body (by omega) c).after fun _ _ _ _ => emit_refuses _

theorem value_refuses {sc : Scope} (hsc : sc.Tidy) : (ss : List Stmt) →
    sc.locals.length + stmtBinders ss ≤ n →
    (c : Chunk) → Refuses n sc c (stmtRefusals sc.names ss) (valueOf ss) Any
  | [], _, _ => interned_refuses .constant .null
  | [s], hn, c => by
    have hs := stmt_refuses hsc s hn
    simp only [stmtRefusals, List.append_nil]
    cases s with
    | expr e => exact expr_refuses hsc hn e c
    | ifElse cond thenBlock elseBlock span =>
      have hcond := expr_refuses hsc (Nat.le_trans (Nat.le_add_right _ _) hn) cond
      obtain ⟨thenStmts, _⟩ := thenBlock
      cases elseBlock with
      | some b =>
        obtain ⟨elseStmts, _⟩ := b
        simp only [stmtBinders, Stmt.binders, Block.binders] at hn
        exact conditional_refuses hcond (value_refuses hsc thenStmts (by omega))
          (value_refuses hsc elseStmts (by omega)) c
      | none =>
        exact conditional_refuses hcond (value_refuses hsc thenStmts hn)
          (fun _ => interned_refuses .constant .null) c
    | _ => exact (hs c).after fun _ _ _ _ => interned_refuses .constant .null
  | s :: s' :: ss, hn, c => by
    rw [stmtBinders] at hn
    exact (stmt_refuses hsc s (by omega) c).bind fun _ c _ _ =>
      value_refuses hsc (s' :: ss) (by omega) c

end

end

/-! ## Programs -/

/-- What compilation has written when it is done or gives up. -/
def written (p : Program) (name : String) : Chunk :=
  match program p (.new name) with
  | .ok _ b | .error _ b => b.chunk

section
variable {p : Program} {name : String}

theorem program_refuses (p : Program) (c : Chunk) :
    Refuses p.binders {} c p.refusals (program p) Any :=
  (stmts_refuses Scope.tidy_empty p.stmts (Nat.le_of_eq (Nat.zero_add _)) c).after fun _ _ _ _ =>
    (interned_refuses .constant .null).before fun _ _ _ _ => emit_refuses .ret

/-- A program is refused for the first reason in its text, or for lack of room. -/
theorem refusal_of_compile {e : CompileError} (h : compile p name = .error e) :
    p.refusals.head? = some e ∨ (∃ m, e = .operandOverflow m) ∧ Full p.binders (written p name) := by
  unfold compile at h
  unfold written
  cases hrun : program p (.new name) with
  | ok _ b =>
    rw [hrun] at h
    cases h
  | error e b =>
    rw [hrun] at h
    cases h
    exact ((program_refuses p _).error rfl (.refl _) hrun).2

/-- There is no reason in the text of a program that compiles. -/
theorem refusals_of_compile {c : Chunk} (h : compile p name = .ok c) : p.refusals = [] := by
  unfold compile at h
  cases hrun : program p (.new name) with
  | ok _ b => exact ((program_refuses p _).ok rfl (.refl _) hrun).1
  | error e b =>
    rw [hrun] at h
    cases h

end

end DotScript.Compile
