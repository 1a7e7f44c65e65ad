import DotScript.Proofs.Compile.Compiled
import DotScript.Proofs.Compile.Stretch

/-!
# The shape of compiled code

Every piece of a program is a stretch of code with the functions the piece declares and the loops it
has: one lemma for each construct, and an induction along the tree. Of a whole program follows
`compile_shape`: its code is nothing but whole instructions, whose constants exist; the functions
have regions that are disjoint or nested and that control enters and leaves by calls and returns
only; and what jumps back are the loops.
-/

namespace DotScript.Syntax

/-! ## Loops -/

mutual

/-- Where the loops of a statement begin, in the order in which they end, if its code stands at an
address. A loop begins with its condition. -/
def Stmt.loops (a : Nat) : Stmt → List Nat
  | .function decl => decl.loops a
  | .classDecl _ methods _ => methodLoops (a + 2) methods
  | .block body => body.loops a
  | .ifElse cond thenBlock elseBlock _ =>
    thenBlock.loops (a + cond.width + 2) ++
      (match elseBlock with
        | some b => b.loops (a + cond.width + 2 + thenBlock.width + 2)
        | none => [])
  | .whileLoop cond body _ => body.loops (a + cond.width + 2) ++ [a]
  | .tryCatch body _ handler _ =>
    body.loops (a + 2) ++ handler.loops (a + 2 + body.width + 3)
  | _ => []

def stmtLoops (a : Nat) : List Stmt → List Nat
  | [] => []
  | s :: ss => s.loops a ++ stmtLoops (a + s.width) ss

def Block.loops (a : Nat) : Block → List Nat
  | ⟨ss, _⟩ => stmtLoops a ss

def methodLoops (a : Nat) : List FunctionDecl → List Nat
  | [] => []
  | m :: ms => m.loops a ++ methodLoops (a + m.width + 4) ms

def FunctionDecl.loops (a : Nat) : FunctionDecl → List Nat
  | ⟨_, _, ⟨body, _⟩, _⟩ => valueLoops (a + 2) body

/-- The loops of statements of which the last leaves a value. -/
def valueLoops (a : Nat) : List Stmt → List Nat
  | [] => []
  | [s] =>
    match s with
    | .ifElse cond ⟨thenStmts, _⟩ elseBlock _ =>
      valueLoops (a + cond.width + 2) thenStmts ++
        (match elseBlock with
          | some ⟨elseStmts, _⟩ =>
            valueLoops (a + cond.width + 2 + valueWidth thenStmts + 2) elseStmts
          | none => [])
    | s => s.loops a
  | s :: ss => s.loops a ++ valueLoops (a + s.width) ss

end

/-- Where the loops of a program begin. -/
def Program.loops (p : Program) : List Nat := stmtLoops 0 p.stmts

end DotScript.Syntax

namespace DotScript.Compile

open DotScript.Bytecode DotScript.Syntax DotScript.Semantics

/-! ## Pieces of code -/

/-- The code between two addresses is a stretch. -/
def Code (c : Chunk) (opens : List Nat) (lo hi : Nat) (ds : List Declared) (loops : List Nat) :
    Prop :=
  ∃ is, Stretch c opens lo hi is ds loops

/-- A stretch that nothing leaves but by the return at its end. -/
def BodyCode (c : Chunk) (lo hi : Nat) (ds : List Declared) (loops : List Nat) : Prop :=
  ∃ is, Stretch c [] lo hi is ds loops ∧ ∃ i ∈ is, i.opcode = .ret ∧ i.next = hi

section
variable {c : Chunk} {opens : List Nat} {lo mid hi a : Nat} {ds ds' : List Declared}
  {loops loops' : List Nat} {op : Opcode} {image : Image}

theorem constantAt?_eq {n : Nat} {w : Word} {k : Constant} (hw : w.toInt = n)
    (hk : c.constants[n]? = some k) : c.constantAt? w = some k := by
  simp [Chunk.constantAt?, hw, hk]

theorem ConstAt.of_at {i : Instruction} {k : Constant} (h : i.At c)
    (hoperand : i.opcode.hasOperand = true) (hk : c.constantAt? i.operand = some k) :
    ConstAt c i.address i.opcode k := by
  have hword := h.operand
  rw [if_pos hoperand] at hword
  simp only [Chunk.constantAt?, Option.ite_none_left_eq_some] at hk
  exact ⟨i.operand.toInt.toNat, ⟨h.opcode, i.operand, hword, by omega⟩, hk.2⟩

theorem JumpAt.of_at {i : Instruction} {t : Nat} (h : i.At c)
    (hoperand : i.opcode.hasOperand = true) (ht : i.target = t) (hsize : t ≤ c.code.size) :
    JumpAt c i.address i.opcode t := by
  have hword := h.operand
  rw [if_pos hoperand] at hword
  exact ⟨h.opcode, i.operand, hword, ht, hsize⟩

namespace Code

theorem nil (a : Nat) : Code c opens a a [] [] := ⟨[], .nil a⟩

theorem append (h : Code c (mid :: opens) lo mid ds loops) (h' : Code c opens mid hi ds' loops')
    (hmid : mid ∈ opens ∨ mid < hi) : Code c opens lo hi (ds ++ ds') (loops ++ loops') := by
  obtain ⟨is, h⟩ := h
  obtain ⟨is', h'⟩ := h'
  exact ⟨is ++ is', h.append h' hmid⟩

theorem close (h : Code c (lo :: opens) lo hi ds loops) (hlt : lo < hi) :
    Code c opens lo hi ds loops := by
  obtain ⟨is, h⟩ := h
  exact ⟨is, h.close hlt⟩

theorem cast {hi' : Nat} {ds' : List Declared} {loops' : List Nat}
    (h : Code c opens lo hi ds loops) (hhi : hi = hi') (hds : ds = ds') (hloops : loops = loops') :
    Code c opens lo hi' ds' loops' := hhi ▸ hds ▸ hloops ▸ h

theorem of_op (h : OpAt c a op) (hop : op.hasOperand = false) : Code c opens a (a + 1) [] [] := by
  have hstretch : Stretch c opens a _ [⟨a, op, 0⟩] [] [] := .single (i := ⟨a, op, 0⟩)
    ⟨h, by simp [hop]⟩ (by cases op <;> first | rfl | cases hop)
    (fun huses => by cases op <;> contradiction)
  simp only [Instruction.next, hop, Bool.false_eq_true, if_false] at hstretch
  exact ⟨_, hstretch⟩

theorem of_instr {n : Nat} (h : InstrAt c a op n) (hop : op.hasOperand = true)
    (hjump : op.isJump = false) (huses : op.usesConstant = false) :
    Code c opens a (a + 2) [] [] := by
  obtain ⟨hopcode, w, hw, -⟩ := h
  have hstretch : Stretch c opens a _ [⟨a, op, w⟩] [] [] := .single (i := ⟨a, op, w⟩)
    ⟨hopcode, by simpa [hop] using hw⟩ hjump (by simp [huses])
  simp only [Instruction.next, hop, if_true] at hstretch
  exact ⟨_, hstretch⟩

theorem of_const {k : Constant} (h : ConstAt c a op k) (huses : op.usesConstant = true)
    (hstr : op ≠ .constant → ∃ s, k = .str s) (hk : k.isFunction = false) :
    Code c opens a (a + 2) [] [] := by
  obtain ⟨n, ⟨hopcode, w, hw, hn⟩, hconstant⟩ := h
  have hop : op.hasOperand = true := by cases op <;> first | rfl | cases huses
  have hstretch : Stretch c opens a _ [⟨a, op, w⟩] [] [] := .single (i := ⟨a, op, w⟩)
    ⟨hopcode, by simpa [hop] using hw⟩ (by cases op <;> first | rfl | cases huses)
    (fun _ => ⟨k, constantAt?_eq hn hconstant, hstr, fun f hf => by rw [hf] at hk; cases hk⟩)
  simp only [Instruction.next, hop, if_true] at hstretch
  exact ⟨_, hstretch⟩

theorem of_name {s : String} (h : ConstAt c a op (.str s)) (huses : op.usesConstant = true) :
    Code c opens a (a + 2) [] [] :=
  of_const h huses (fun _ => ⟨s, rfl⟩) rfl

theorem of_null (h : ConstAt c a .constant .null) : Code c opens a (a + 2) [] [] :=
  of_const h rfl (absurd rfl) rfl

theorem of_jump {t : Nat} (h : JumpAt c a op t) (hop : op.isJump = true) (hopen : t ∈ opens)
    (hforth : a < t) : Code c opens a (a + 2) [] [] := by
  obtain ⟨hopcode, w, hw, htarget, -⟩ := h
  have hoperand : op.hasOperand = true := by cases op <;> first | rfl | cases hop
  have hstretch : Stretch c opens a _ [⟨a, op, w⟩] [] [] := .jumpForth (i := ⟨a, op, w⟩)
    ⟨hopcode, by simpa [hoperand] using hw⟩ hop htarget hopen hforth
  simp only [Instruction.next, hoperand, if_true] at hstretch
  exact ⟨_, hstretch⟩

theorem of_loop {t : Nat} (h : JumpAt c a .jump t) (hopen : t ∈ opens) (hback : t ≤ a) :
    Code c opens a (a + 2) [] [t] := by
  obtain ⟨hopcode, w, hw, htarget, -⟩ := h
  exact ⟨_, Stretch.jumpBack (i := ⟨a, .jump, w⟩) ⟨hopcode, hw⟩ rfl htarget hopen hback⟩

/-- A return makes a stretch a body. -/
theorem ret (h : Code c [mid] lo mid ds loops) (hret : OpAt c mid .ret) :
    BodyCode c lo (mid + 1) ds loops := by
  obtain ⟨is, h⟩ := h
  have hlast : Stretch c [] mid _ [⟨mid, .ret, 0⟩] [] [] :=
    .single (i := ⟨mid, .ret, 0⟩) ⟨hret, rfl⟩ rfl nofun
  have hboth := h.append hlast (.inr (Nat.lt_succ_self _))
  simp only [List.append_nil] at hboth
  exact ⟨_, hboth, ⟨mid, .ret, 0⟩, by simp, rfl, rfl⟩

end Code

/-- A stretch in front of a body. -/
theorem BodyCode.prepend (h : Code c [mid] lo mid ds loops) (h' : BodyCode c mid hi ds' loops') :
    BodyCode c lo hi (ds ++ ds') (loops ++ loops') := by
  obtain ⟨is, h⟩ := h
  obtain ⟨is', h', i, hi, hop, hnext⟩ := h'
  have hlt := h'.reads.bounds hi
  have := i.lt_next
  exact ⟨_, h.append h' (.inr (by omega)), i, List.mem_append_right _ hi, hop, hnext⟩

/-- A function with the instruction that pushes it. -/
theorem Code.function {isMethod : Bool} {decl : FunctionDecl}
    (hjump : JumpAt c a .jump (a + decl.width))
    (hbody : BodyCode c (a + 2) (a + decl.width) ds loops)
    (hpush : ConstAt c (a + decl.width) .constant (.function (protoOf decl (a + 2))))
    (hwidth : decl.width = 2 + bodyWidth decl.body.stmts) :
    Code c opens a (a + decl.width + 2) (declaredAt image isMethod a decl :: ds) loops := by
  obtain ⟨is, hbody, ret, hret, hretop, hnext⟩ := hbody
  obtain ⟨hop, w, hw, htarget, -⟩ := hjump
  obtain ⟨n, ⟨hpushop, w', hw', hn⟩, hconstant⟩ := hpush
  have hstop : (region (declaredAt image isMethod a decl)).stop = a + decl.width := by
    simp only [region, declaredAt]
    omega
  have hskip : Instruction.At c ⟨a, .jump, w⟩ := ⟨hop, hw⟩
  have hpush : Instruction.At c ⟨a + decl.width, .constant, w'⟩ := ⟨hpushop, hw'⟩
  refine ⟨_, hstop ▸ Stretch.function (d := declaredAt image isMethod a decl) rfl hskip rfl rfl ?_ ?_
    hret hretop ?_ hpush ?_ rfl (constantAt?_eq hn hconstant)⟩
  all_goals rw [hstop]
  · exact htarget
  · exact hbody
  · exact hnext

/-! ## Expressions -/

theorem variable_code {ns : List String} {onLocal onGlobal : Opcode} {name : String}
    (h : VariableAt c ns a onLocal onGlobal name) (hlocal : onLocal.hasOperand = true)
    (hjump : onLocal.isJump = false) (huses : onLocal.usesConstant = false)
    (hglobal : onGlobal.usesConstant = true) : Code c opens a (a + 2) [] [] := by
  simp only [VariableAt] at h
  split at h
  · exact .of_instr h hlocal hjump huses
  · exact .of_name h hglobal

end

section
variable {c : Chunk}

mutual

theorem expr_code : (e : Expr) → {ns : List String} → {a : Nat} → {opens : List Nat} →
    ExprAt c ns a e → Code c opens a (a + e.width) [] []
  | .var id, ns, a, opens, h => by
    simp only [ExprAt] at h
    exact variable_code h rfl rfl rfl rfl
  | .null _, ns, a, opens, h => by
    simp only [ExprAt] at h
    exact .of_null h
  | .bool b _, ns, a, opens, h | .number n _, ns, a, opens, h | .str s _, ns, a, opens, h => by
    simp only [ExprAt] at h
    exact .of_const h rfl (absurd rfl) rfl
  | .assign (.var id) value _, ns, a, opens, h => by
    simp only [ExprAt] at h
    simp only [Expr.width, ← Nat.add_assoc]
    exact (expr_code value h.1).append (variable_code h.2 rfl rfl rfl rfl) (.inr (by omega))
  | .set object name value _, ns, a, opens, h => by
    simp only [ExprAt] at h
    simp only [Expr.width, ← Nat.add_assoc]
    refine (expr_code object h.1).append ?_ (.inr (by omega))
    exact (expr_code value h.2.1).append (.of_name h.2.2 rfl) (.inr (by omega))
  | .get object name _, ns, a, opens, h => by
    simp only [ExprAt] at h
    simp only [Expr.width, ← Nat.add_assoc]
    exact (expr_code object h.1).append (.of_name h.2 rfl) (.inr (by omega))
  | .binary op left right _, ns, a, opens, h => by
    simp only [ExprAt] at h
    simp only [Expr.width, ← Nat.add_assoc]
    refine (expr_code left h.1).append ?_ (.inr (by omega))
    exact (expr_code right h.2.1).append (.of_op h.2.2 (by cases op <;> rfl)) (.inr (by omega))
  | .unary op operand _, ns, a, opens, h => by
    simp only [ExprAt] at h
    simp only [Expr.width, ← Nat.add_assoc]
    exact (expr_code operand h.1).append (.of_op h.2 (by cases op <;> rfl)) (.inr (by omega))
  | .call callee args _, ns, a, opens, h => by
    simp only [ExprAt] at h
    simp only [Expr.width, ← Nat.add_assoc]
    refine (expr_code callee h.1).append ?_ (.inr (by omega))
    exact exprs_code args h.2.1 (.of_instr h.2.2 rfl rfl rfl) (by omega)
  | .list elems _, ns, a, opens, h => by
    simp only [ExprAt] at h
    simp only [Expr.width, ← Nat.add_assoc]
    exact exprs_code elems h.1 (.of_instr h.2 rfl rfl rfl) (by omega)
  | .map entries _, ns, a, opens, h => by
    simp only [ExprAt] at h
    simp only [Expr.width, ← Nat.add_assoc]
    exact pairs_code entries h.1 (.of_instr h.2 rfl rfl rfl) (by omega)
  | .self _, ns, a, opens, h => by
    simp only [ExprAt] at h
    obtain ⟨slot, -, h⟩ := h
    exact .of_instr h rfl rfl rfl
  | .spawn (.call callee args _) _, ns, a, opens, h => by
    simp only [ExprAt] at h
    simp only [Expr.width, ← Nat.add_assoc]
    refine (expr_code callee h.1).append ?_ (.inr (by omega))
    exact exprs_code args h.2.1 (.of_instr h.2.2 rfl rfl rfl) (by omega)

/-- Expressions with the code behind them. -/
theorem exprs_code : (es : List Expr) → {ns : List String} → {a hi : Nat} → {opens : List Nat} →
    ExprsAt c ns a es → Code c opens (a + widths es) hi [] [] → a + widths es < hi →
    Code c opens a hi [] []
  | [], ns, a, hi, opens, h, hrest, hlt => hrest
  | e :: es, ns, a, hi, opens, h, hrest, hlt => by
    simp only [ExprsAt] at h
    simp only [widths, ← Nat.add_assoc] at hrest hlt
    exact (expr_code e h.1).append (exprs_code es h.2 hrest hlt) (.inr (by omega))

/-- Keys and values with the code behind them. -/
theorem pairs_code : (es : List (Expr × Expr)) → {ns : List String} → {a hi : Nat} →
    {opens : List Nat} → PairsAt c ns a es → Code c opens (a + pairWidths es) hi [] [] →
    a + pairWidths es < hi → Code c opens a hi [] []
  | [], ns, a, hi, opens, h, hrest, hlt => hrest
  | (key, value) :: es, ns, a, hi, opens, h, hrest, hlt => by
    simp only [PairsAt] at h
    simp only [pairWidths, ← Nat.add_assoc] at hrest hlt
    refine (expr_code key h.1).append ?_ (.inr (by omega))
    exact (expr_code value h.2.1).append (pairs_code es h.2.2 hrest hlt) (.inr (by omega))

end

theorem optional_code {value : Option Expr} {ns : List String} {a : Nat} {opens : List Nat}
    (h : OptionalAt c ns a value) : Code c opens a (a + optionalWidth value) [] [] := by
  cases value with
  | some e => exact expr_code e h
  | none => exact .of_null h

/-! ## Statements -/

/-- Two branches behind a condition. -/
theorem branch_code {a b thenWidth elseWidth : Nat} {opens : List Nat} {ds ds' : List Declared}
    {loops loops' : List Nat} (hcond : ∀ opens, Code c opens a b [] [])
    (hbranch : BranchAt c b thenWidth elseWidth)
    (hthen : ∀ opens, b + 2 + thenWidth ∈ opens → Code c opens (b + 2) (b + 2 + thenWidth) ds loops)
    (helse : ∀ opens, b + 2 + thenWidth + 2 + elseWidth ∈ opens →
      Code c opens (b + 2 + thenWidth + 2) (b + 2 + thenWidth + 2 + elseWidth) ds' loops')
    (hopen : b + 2 + thenWidth + 2 + elseWidth ∈ opens) :
    Code c opens a (b + 2 + thenWidth + 2 + elseWidth) (ds ++ ds') (loops ++ loops') := by
  have hfirst : Code c ((b + 2 + thenWidth + 2) :: opens) a (b + 2 + thenWidth + 2) ds loops := by
    have hend : Code c ((b + 2 + thenWidth + 2) :: opens) _ _ [] [] :=
      .of_jump hbranch.toEnd rfl (List.mem_cons_of_mem _ hopen) (by omega)
    have hboth := (hthen _ List.mem_cons_self).append hend (.inr (by omega))
    have htoElse : Code c ((b + 2) :: (b + 2 + thenWidth + 2) :: opens) _ _ [] [] :=
      .of_jump hbranch.toElse rfl (by simp) (by omega)
    have hall := (hcond _).append (htoElse.append hboth (.inr (by omega))) (.inr (by omega))
    simpa using hall
  refine hfirst.append (helse opens hopen) ?_
  rcases Nat.eq_zero_or_pos elseWidth with rfl | hpos
  · exact .inl hopen
  · exact .inr (by omega)

/-- A loop: the jump back leads to its beginning, which is still open inside of it. -/
theorem loop_code {a b bodyWidth : Nat} {opens : List Nat} {ds : List Declared} {loops : List Nat}
    (hcond : ∀ opens, Code c opens a b [] []) (hloop : LoopAt c a b bodyWidth) (hle : a ≤ b)
    (hbody : ∀ opens, b + 2 + bodyWidth ∈ opens → Code c opens (b + 2) (b + 2 + bodyWidth) ds loops)
    (hopen : b + 2 + bodyWidth + 2 ∈ opens) :
    Code c opens a (b + 2 + bodyWidth + 2) ds (loops ++ [a]) := by
  have hback : Code c (a :: opens) _ _ [] [a] :=
    .of_loop hloop.toStart List.mem_cons_self (by omega)
  have hbodyBack := (hbody _ List.mem_cons_self).append hback (.inr (by omega))
  have hexit : Code c ((b + 2) :: a :: opens) _ _ [] [] :=
    .of_jump hloop.toEnd rfl (by simp [hopen]) (by omega)
  have hall := (hcond _).append (hexit.append hbodyBack (.inr (by omega))) (.inr (by omega))
  exact (hall.close (by omega)).cast rfl (by simp) (by simp)

/-- A body with a handler. -/
theorem guarded_code {a bodyWidth handlerWidth : Nat} {opens : List Nat} {ds ds' : List Declared}
    {loops loops' : List Nat} (htry : TryAt c a bodyWidth handlerWidth)
    (hbody : ∀ opens, a + 2 + bodyWidth ∈ opens → Code c opens (a + 2) (a + 2 + bodyWidth) ds loops)
    (hhandler : ∀ opens, a + 2 + bodyWidth + 3 + handlerWidth ∈ opens →
      Code c opens (a + 2 + bodyWidth + 3) (a + 2 + bodyWidth + 3 + handlerWidth) ds' loops')
    (hopen : a + 2 + bodyWidth + 3 + handlerWidth + 1 ∈ opens) :
    Code c opens a (a + 2 + bodyWidth + 3 + handlerWidth + 1) (ds ++ ds') (loops ++ loops') := by
  have hfirst : Code c ((a + 2 + bodyWidth + 3) :: opens) a (a + 2 + bodyWidth + 3) ds loops := by
    have hend : Code c ((a + 2 + bodyWidth + 3) :: opens) _ _ [] [] :=
      .of_jump htry.toEnd rfl (List.mem_cons_of_mem _ hopen) (by omega)
    have hexit := (Code.of_op htry.exit rfl).append hend (.inr (by omega))
    have hbodyExit := (hbody _ List.mem_cons_self).append hexit (.inr (by omega))
    have henter : Code c ((a + 2) :: (a + 2 + bodyWidth + 3) :: opens) _ _ [] [] :=
      .of_jump htry.enter rfl (by simp) (by omega)
    exact (henter.append hbodyExit (.inr (by omega))).cast rfl (by simp) (by simp)
  have hunbind : Code c opens _ _ [] [] := .of_op htry.unbind rfl
  have hsecond := (hhandler _ List.mem_cons_self).append hunbind (.inr (by omega))
  exact (hfirst.append hsecond (.inr (by omega))).cast rfl (by simp) (by simp)

section
variable {image : Image}

/-- Where a body ends in a return, it has the same loops whether it leaves a value or not. -/
theorem valueLoops_of_endsInReturn {body : List Stmt} (a : Nat) (h : endsInReturn body) :
    valueLoops a body = stmtLoops a body := by
  induction body generalizing a with
  | nil => cases h
  | cons s ss ih =>
    cases ss with
    | nil =>
      cases s with
      | ret value span => rfl
      | _ => cases h
    | cons s' ss' =>
      have hends : endsInReturn (s' :: ss') := by
        cases s <;> exact h
      change s.loops a ++ valueLoops (a + s.width) (s' :: ss') = _
      rw [ih _ hends]
      rfl

mutual

theorem stmt_code : (s : Stmt) → {ns : List String} → {a : Nat} → {opens : List Nat} →
    StmtAt c ns a s → a + s.width ∈ opens →
    Code c opens a (a + s.width) (stmtDeclared image a s) (s.loops a)
  | .expr e, ns, a, opens, h, hopen => by
    simp only [StmtAt] at h
    simp only [Stmt.width, ← Nat.add_assoc]
    exact (expr_code e h.1).append (.of_op h.2 rfl) (.inr (by omega))
  | .print value _, ns, a, opens, h, hopen => by
    simp only [StmtAt] at h
    simp only [Stmt.width, ← Nat.add_assoc]
    exact (expr_code value h.1).append (.of_op h.2 rfl) (.inr (by omega))
  | .importUnit path _, ns, a, opens, h, hopen => by
    simp only [StmtAt] at h
    simp only [Stmt.width, ← Nat.add_assoc]
    exact (expr_code path h.1).append (.of_op h.2 rfl) (.inr (by omega))
  | .ret value _, ns, a, opens, h, hopen => by
    simp only [StmtAt] at h
    simp only [Stmt.width, ← Nat.add_assoc]
    exact (optional_code h.1).append (.of_op h.2 rfl) (.inr (by omega))
  | .function decl, ns, a, opens, h, hopen => by
    simp only [StmtAt] at h
    obtain ⟨hfunction, hpush, hname, hpop⟩ := h
    simp only [Stmt.width, stmtDeclared, Stmt.loops, ← Nat.add_assoc] at hopen ⊢
    have hpop : Code c opens _ _ [] [] := .of_op hpop rfl
    have hrest := (Code.of_name hname rfl).append hpop (.inr (by omega))
    exact ((function_code false decl hfunction hpush).append hrest (.inr (by omega))).cast rfl
      (by simp) (by simp)
  | .classDecl name methods _, ns, a, opens, h, hopen => by
    simp only [StmtAt] at h
    obtain ⟨hclass, hmethods, hpop⟩ := h
    rw [Stmt.add_width_classDecl]
    simp only [stmtDeclared, Stmt.loops]
    have hpop : Code c opens _ _ [] [] := .of_op hpop rfl
    have hrest := methods_code methods hmethods hpop (by omega)
    exact ((Code.of_name hclass rfl).append hrest (.inr (by omega))).cast rfl (by simp) (by simp)
  | .block body, ns, a, opens, h, hopen => by
    simp only [StmtAt] at h
    simp only [Stmt.width, stmtDeclared, Stmt.loops] at hopen ⊢
    exact block_code body h hopen
  | .ifElse cond thenBlock none _, ns, a, opens, h, hopen => by
    simp only [StmtAt] at h
    obtain ⟨hcond, hbranch, hthen, -⟩ := h
    rw [Stmt.add_width_ifThen, ← Nat.add_zero (a + cond.width + 2 + thenBlock.width + 2)] at hopen ⊢
    simp only [stmtDeclared, Stmt.loops]
    exact branch_code (fun _ => expr_code cond hcond) hbranch
      (fun _ hmem => block_code thenBlock hthen hmem) (fun _ _ => .nil _) hopen
  | .ifElse cond thenBlock (some b) _, ns, a, opens, h, hopen => by
    simp only [StmtAt] at h
    obtain ⟨hcond, hbranch, hthen, helse⟩ := h
    rw [Stmt.add_width_ifElse] at hopen ⊢
    simp only [stmtDeclared, Stmt.loops]
    exact branch_code (fun _ => expr_code cond hcond) hbranch
      (fun _ hmem => block_code thenBlock hthen hmem) (fun _ hmem => block_code b helse hmem) hopen
  | .whileLoop cond body _, ns, a, opens, h, hopen => by
    simp only [StmtAt] at h
    obtain ⟨hcond, hloop, hbody⟩ := h
    rw [Stmt.add_width_whileLoop] at hopen ⊢
    simp only [stmtDeclared, Stmt.loops]
    exact loop_code (fun _ => expr_code cond hcond) hloop (Nat.le_add_right ..)
      (fun _ hmem => block_code body hbody hmem) hopen
  | .tryCatch body errorVar handler _, ns, a, opens, h, hopen => by
    simp only [StmtAt] at h
    obtain ⟨htry, hbody, hhandler⟩ := h
    rw [Stmt.add_width_tryCatch] at hopen ⊢
    simp only [stmtDeclared, Stmt.loops]
    exact guarded_code htry (fun _ hmem => block_code body hbody hmem)
      (fun _ hmem => block_code handler hhandler hmem) hopen

theorem stmts_code : (ss : List Stmt) → {ns : List String} → {a : Nat} → {opens : List Nat} →
    StmtsAt c ns a ss → a + stmtsWidth ss ∈ opens →
    Code c opens a (a + stmtsWidth ss) (stmtsDeclared image a ss) (stmtLoops a ss)
  | [], ns, a, opens, h, hopen => .nil a
  | s :: ss, ns, a, opens, h, hopen => by
    simp only [StmtsAt] at h
    simp only [stmtsWidth, ← Nat.add_assoc] at hopen ⊢
    simp only [stmtsDeclared, stmtLoops]
    refine (stmt_code s h.1 List.mem_cons_self).append (stmts_code ss h.2 hopen) ?_
    rcases Nat.eq_zero_or_pos (stmtsWidth ss) with hzero | hpos
    · exact .inl (by simpa [hzero] using hopen)
    · exact .inr (by omega)

theorem block_code : (b : Block) → {ns : List String} → {a : Nat} → {opens : List Nat} →
    BlockAt c ns a b → a + b.width ∈ opens →
    Code c opens a (a + b.width) (blockDeclared image a b) (b.loops a)
  | ⟨ss, _⟩, ns, a, opens, h, hopen => by
    simp only [BlockAt] at h
    simp only [blockDeclared, Block.loops, Block.width] at hopen ⊢
    exact stmts_code ss h hopen

/-- Methods with the code behind them. -/
theorem methods_code : (ms : List FunctionDecl) → {a hi : Nat} → {opens : List Nat} →
    MethodsAt c a ms → Code c opens (a + methodsWidth ms) hi [] [] → a + methodsWidth ms < hi →
    Code c opens a hi (methodsDeclared image a ms) (methodLoops a ms)
  | [], a, hi, opens, h, hrest, hlt => hrest
  | m :: ms, a, hi, opens, h, hrest, hlt => by
    simp only [MethodsAt] at h
    obtain ⟨hfunction, hpush, hname, hmore⟩ := h
    simp only [methodsWidth, ← Nat.add_assoc] at hrest hlt
    simp only [methodsDeclared, methodLoops]
    have hnext := (Code.of_name hname rfl).append (methods_code ms hmore hrest hlt)
      (.inr (by omega))
    exact ((function_code true m hfunction hpush).append hnext (.inr (by omega))).cast rfl
      (by simp) (by simp)

/-- A function with the instruction that pushes it. -/
theorem function_code (isMethod : Bool) : (decl : FunctionDecl) → {a : Nat} → {opens : List Nat} →
    FunctionAt c isMethod a decl →
    ConstAt c (a + decl.width) .constant (.function (protoOf decl (a + 2))) →
    Code c opens a (a + decl.width + 2) (functionDeclared image a isMethod decl) (decl.loops a)
  | ⟨name, params, ⟨body, blockSpan⟩, span⟩, a, opens, h, hpush => by
    simp only [FunctionAt] at h
    simp only [functionDeclared, FunctionDecl.loops]
    have hwidth : FunctionDecl.width ⟨name, params, ⟨body, blockSpan⟩, span⟩ = 2 + bodyWidth body := by
      simp only [FunctionDecl.width, bodyWidth]
    refine Code.function (by simpa only [hwidth, ← Nat.add_assoc] using h.1) ?_ hpush hwidth
    simp only [FunctionDecl.width, ← Nat.add_assoc]
    by_cases hends : endsInReturn body
    · simp only [hends, if_true] at h ⊢
      rw [valueDeclared_of_endsInReturn _ hends, valueLoops_of_endsInReturn _ hends]
      exact returning_code body hends h.2
    · simp only [hends, if_false, Bool.false_eq_true] at h ⊢
      exact (value_code body h.2.1 List.mem_cons_self).ret h.2.2

/-- Statements that end in a return. -/
theorem returning_code : (ss : List Stmt) → {ns : List String} → {a : Nat} →
    endsInReturn ss → StmtsAt c ns a ss →
    BodyCode c a (a + stmtsWidth ss) (stmtsDeclared image a ss) (stmtLoops a ss)
  | [s], ns, a, hends, h => by
    cases s with
    | ret value span =>
      simp only [StmtsAt, StmtAt] at h
      simp only [stmtsWidth, Stmt.width]
      exact (optional_code h.1.1).ret h.1.2
    | _ => cases hends
  | s :: s' :: ss, ns, a, hends, h => by
    simp only [endsInReturn] at hends
    rw [StmtsAt] at h
    rw [stmtsWidth, ← Nat.add_assoc, stmtsDeclared, stmtLoops]
    exact (returning_code (s' :: ss) hends h.2).prepend (stmt_code s h.1 List.mem_cons_self)

theorem value_code : (ss : List Stmt) → {ns : List String} → {a : Nat} → {opens : List Nat} →
    ValueAt c ns a ss → a + valueWidth ss ∈ opens →
    Code c opens a (a + valueWidth ss) (valueDeclared image a ss) (valueLoops a ss)
  | [], ns, a, opens, h, hopen => .of_null h
  | [s], ns, a, opens, h, hopen => by
    have hplain : StmtAt c ns a s ∧ ConstAt c (a + s.width) .constant .null →
        valueDeclared image a [s] = stmtDeclared image a s → valueLoops a [s] = s.loops a →
        valueWidth [s] = s.width + 2 →
        Code c opens a (a + valueWidth [s]) (valueDeclared image a [s]) (valueLoops a [s]) := by
      intro hs hds hloops hwidth
      rw [hds, hloops, hwidth, ← Nat.add_assoc]
      exact ((stmt_code s hs.1 List.mem_cons_self).append (.of_null hs.2) (.inr (by omega))).cast
        rfl (by simp) (by simp)
    match s, h with
    | .expr e, h => exact expr_code e h
    | .ifElse cond ⟨thenStmts, _⟩ none _, h =>
      obtain ⟨hcond, hbranch, hthen, hnull⟩ := h
      rw [add_valueWidth_ifThen] at hopen ⊢
      change Code c opens a _ (valueDeclared image (a + cond.width + 2) thenStmts ++ [])
        (valueLoops (a + cond.width + 2) thenStmts ++ [])
      exact branch_code (fun _ => expr_code cond hcond) hbranch
        (fun _ hmem => value_code thenStmts hthen hmem) (fun _ _ => .of_null hnull) hopen
    | .ifElse cond ⟨thenStmts, _⟩ (some ⟨elseStmts, _⟩) _, h =>
      obtain ⟨hcond, hbranch, hthen, helse⟩ := h
      rw [add_valueWidth_ifElse] at hopen ⊢
      change Code c opens a _
        (valueDeclared image (a + cond.width + 2) thenStmts ++
          valueDeclared image (a + cond.width + 2 + valueWidth thenStmts + 2) elseStmts)
        (valueLoops (a + cond.width + 2) thenStmts ++
          valueLoops (a + cond.width + 2 + valueWidth thenStmts + 2) elseStmts)
      exact branch_code (fun _ => expr_code cond hcond) hbranch
        (fun _ hmem => value_code thenStmts hthen hmem)
        (fun _ hmem => value_code elseStmts helse hmem) hopen
    | .print _ _, h | .function _, h | .classDecl _ _ _, h | .block _, h
    | .whileLoop _ _ _, h | .ret _ _, h | .importUnit _ _, h | .tryCatch _ _ _ _, h =>
      exact hplain h rfl rfl rfl
  | s :: s' :: ss, ns, a, opens, h, hopen => by
    rw [add_valueWidth_cons] at hopen ⊢
    change Code c opens a _
      (stmtDeclared image a s ++ valueDeclared image (a + s.width) (s' :: ss))
      (s.loops a ++ valueLoops (a + s.width) (s' :: ss))
    refine (stmt_code s h.1 List.mem_cons_self).append (value_code (s' :: ss) h.2 hopen) ?_
    rcases Nat.eq_zero_or_pos (valueWidth (s' :: ss)) with hzero | hpos
    · exact .inl (by simpa [hzero] using hopen)
    · exact .inr (by omega)

end

end

/-! ## Programs -/

/-- Code that is nothing but given instructions. A declared function has a region of its own; no
instruction leads from outside of it into it or from inside of it to the outside. -/
structure Shaped (c : Chunk) (is : List Instruction) (ds : List Declared) (loops : List Nat) :
    Prop where
  instructions : c.instructions? = some is
  takes : ∀ i ∈ is, i.opcode.usesConstant → Takes c ds i
  framed : ∀ d ∈ ds, Framed c is d
  bounds : ∀ d ∈ ds, (region d).entry < (region d).stop ∧ (region d).stop < c.code.size
  /-- Regions are disjoint or nested. -/
  ordered : ds.Pairwise fun d d' => (region d).Before (region d')
  jumps : ∀ i ∈ is, i.opcode.isJump →
    ∃ j ∈ is, i.target = j.address ∧ SameRegions ds i.address j.address
  falls : ∀ i ∈ is, i.opcode ≠ .jump → i.opcode ≠ .ret →
    ∃ j ∈ is, i.next = j.address ∧ SameRegions ds i.address j.address
  /-- What jumps back are the loops. -/
  loops : (is.filter Instruction.jumpsBack).map (fun i => (i.opcode, i.target)) =
    loops.map fun a : Nat => (Opcode.jump, (a : Int))

section
variable {is : List Instruction} {ds : List Declared} {loops : List Nat} {i : Instruction}

/-- What goes on to the next instruction stays in the same regions: a jump leads over each of them,
and a return ends it. -/
theorem Stretch.sameRegions_next {opens : List Nat} {lo hi : Nat}
    (h : Stretch c opens lo hi is ds loops) (hi' : i ∈ is) (hjump : i.opcode ≠ .jump)
    (hret : i.opcode ≠ .ret) : SameRegions ds i.address i.next := by
  intro d hd
  obtain ⟨⟨skip, hskip, hskipop, hentry, -⟩, ⟨ret, hretmem, hretop, hstop⟩, -⟩ := h.framed d hd
  have hlt := i.lt_next
  have hlt' := skip.lt_next
  have hbefore : i.next ≤ skip.address ∨ skip.next ≤ i.address :=
    (h.reads.disjoint hi' hskip).resolve_left fun heq => hjump (heq ▸ hskipop)
  have hbehind : i.next ≤ ret.address ∨ ret.next ≤ i.address :=
    (h.reads.disjoint hi' hretmem).resolve_left fun heq => hret (heq ▸ hretop)
  have hlast := ret.lt_next
  simp only [Region.Covers]
  omega

/-- Another instruction follows each but the return at the end. -/
theorem Stretch.exists_next {opens : List Nat} {lo hi : Nat} {last : Instruction}
    (h : Stretch c opens lo hi is ds loops) (hlast : last ∈ is) (hlastop : last.opcode = .ret)
    (hend : last.next = hi) (hi' : i ∈ is) (hret : i.opcode ≠ .ret) :
    ∃ j ∈ is, j.address = i.next := by
  rcases h.reads.follows hi' with hnext | hfollows
  · have hlt := i.lt_next
    have hlt' := last.lt_next
    rcases h.reads.disjoint hi' hlast with rfl | hbefore
    · exact absurd hlastop hret
    · omega
  · exact hfollows

theorem BodyCode.shaped (h : BodyCode c 0 c.code.size ds loops) : ∃ is, Shaped c is ds loops := by
  obtain ⟨is, h, last, hlast, hlastop, hend⟩ := h
  refine ⟨is, ?_, h.takes, h.framed, fun d hd => (h.within d hd).2, h.ordered, ?_, ?_, h.loops⟩
  · rw [Chunk.instructions?, ← h.reads.instructionsFrom?_eq rfl, List.drop_zero]
  · intro i hi hjump
    obtain ⟨t, ht, ⟨hopen, -⟩ | ⟨⟨j, hj, rfl⟩, hsame⟩⟩ := h.jumps i hi hjump
    · cases hopen
    · exact ⟨j, hj, ht, hsame⟩
  · intro i hi hjump hret
    have hsame := h.sameRegions_next hi hjump hret
    obtain ⟨j, hj, heq⟩ := h.exists_next hlast hlastop hend hi hret
    exact ⟨j, hj, heq.symm, heq ▸ hsame⟩

/-- The code of a program is a body, with the functions and loops of the program. -/
theorem program_code {p : Program} (h : ProgramAt c p) :
    BodyCode c 0 c.code.size (stmtsDeclared image 0 p.stmts) p.loops := by
  obtain ⟨hstmts, hnull, hret, hsize⟩ := h
  have hbody : Code c [stmtsWidth p.stmts, stmtsWidth p.stmts + 2] 0 (0 + stmtsWidth p.stmts)
      (stmtsDeclared image 0 p.stmts) p.loops := stmts_code p.stmts hstmts (by simp)
  rw [Nat.zero_add] at hbody
  rw [hsize]
  exact ((hbody.append (.of_null hnull) (.inr (by omega))).cast rfl (by simp)
    (List.append_nil _)).ret hret

/-- The code of a program that compiles is nothing but whole instructions, whose constants exist.
There is one region for each function the program declares; jumps lead to instructions of the same
region, and back only to where a loop begins. No two functions begin at the same address, so none is
taken for another one. -/
theorem compile_shape {p : Program} {name : String} (h : compile p name = .ok c) (image : Image) :
    (∃ is, Shaped c is (stmtsDeclared image 0 p.stmts) p.loops) ∧
      (stmtsDeclared image 0 p.stmts).map (fun d => (d.isMethod, d.decl)) =
        stmtDeclarations p.stmts ∧
      (stmtsDeclared image 0 p.stmts).Pairwise (fun d d' =>
        d.function.entry ≠ d'.function.entry ∧ d.function.sameCode d'.function = false) := by
  have hp := compile_layout h
  have hlists : Lists c image 0 _ _ _ := stmts_lists p.stmts hp.1
  refine ⟨(program_code hp).shaped, hlists.names, hlists.ordered.imp fun hlt => ?_⟩
  have hne := Nat.ne_of_lt hlt
  exact ⟨hne, by simp [Function.sameCode, hne]⟩

end

end

/-- A function that declares another one each time its loop goes round:
`fun adders n: while n: fun add m: n + m . n = null . .`. -/
def adders : Program where
  stmts :=
    [.function ⟨⟨"adders", ⟨4, 10⟩⟩, [⟨"n", ⟨11, 12⟩⟩],
      ⟨[.whileLoop (.var ⟨"n", ⟨20, 21⟩⟩)
        ⟨[.function ⟨⟨"add", ⟨27, 30⟩⟩, [⟨"m", ⟨31, 32⟩⟩],
            ⟨[.expr (.binary .add (.var ⟨"n", ⟨34, 35⟩⟩) (.var ⟨"m", ⟨38, 39⟩⟩) ⟨34, 39⟩)], ⟨32, 41⟩⟩,
            ⟨23, 41⟩⟩,
          .expr (.assign (.var ⟨"n", ⟨42, 43⟩⟩) (.null ⟨46, 50⟩) ⟨42, 50⟩)], ⟨21, 52⟩⟩ ⟨14, 52⟩],
        ⟨12, 54⟩⟩, ⟨0, 54⟩⟩]
  span := ⟨0, 54⟩

/-- It compiles. -/
theorem compile_shape_adders : ∃ c, compile adders "main" = .ok c ∧
    (∃ is, Shaped c is (stmtsDeclared ⟨⟨[], 0⟩, c⟩ 0 adders.stmts) adders.loops) ∧
      (stmtsDeclared ⟨⟨[], 0⟩, c⟩ 0 adders.stmts).map (fun d => (d.isMethod, d.decl)) =
        stmtDeclarations adders.stmts ∧
      (stmtsDeclared ⟨⟨[], 0⟩, c⟩ 0 adders.stmts).Pairwise (fun d d' =>
        d.function.entry ≠ d'.function.entry ∧ d.function.sameCode d'.function = false) := by
  have hcompiles : (compile adders "main").toBool = true := by decide +kernel
  cases hcompile : compile adders "main" with
  | error e =>
    rw [hcompile] at hcompiles
    cases hcompiles
  | ok c => exact ⟨c, rfl, compile_shape hcompile ⟨⟨[], 0⟩, c⟩⟩

end DotScript.Compile
