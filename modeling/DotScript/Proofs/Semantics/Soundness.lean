import DotScript.Proofs.Machine.Realm
import DotScript.Proofs.Semantics.Declared

/-!
# Evaluations do not get stuck

An evaluation has no rule for imports and spawned calls, for functions that the program does not
declare, and for the receiver outside of methods. A sequential program has no imports and spawned
calls. The rest is kept out of reach: `Keeps` says that an evaluation leaves all values in a realm,
keeps the names of the locals, and is not stuck. Main statement: `stmts_keeps` for a program whose
calls are kept, and `callsKept_context` for the calls.
-/

namespace DotScript.Syntax

/-! ## Sequential programs -/

mutual

/-- Whether an expression spawns no calls. -/
def Expr.sequential : Expr → Bool
  | .assign target value _ => target.sequential && value.sequential
  | .set object _ value _ => object.sequential && value.sequential
  | .get object _ _ => object.sequential
  | .binary _ left right _ => left.sequential && right.sequential
  | .unary _ operand _ => operand.sequential
  | .call callee args _ => callee.sequential && exprsSequential args
  | .list elems _ => exprsSequential elems
  | .map entries _ => pairsSequential entries
  | .spawn _ _ => false
  | _ => true

def exprsSequential : List Expr → Bool
  | [] => true
  | e :: es => e.sequential && exprsSequential es

def pairsSequential : List (Expr × Expr) → Bool
  | [] => true
  | (key, value) :: es => key.sequential && value.sequential && pairsSequential es

end

mutual

/-- Whether a statement, with the functions it declares, imports nothing and spawns no calls. -/
def Stmt.sequential : Stmt → Bool
  | .expr e => e.sequential
  | .print value _ => value.sequential
  | .function decl => decl.sequential
  | .classDecl _ methods _ => methodsSequential methods
  | .block body => body.sequential
  | .ifElse cond thenBlock elseBlock _ =>
    cond.sequential && thenBlock.sequential &&
      (match elseBlock with
        | some b => b.sequential
        | none => true)
  | .whileLoop cond body _ => cond.sequential && body.sequential
  | .ret value _ => value.all Expr.sequential
  | .importUnit _ _ => false
  | .tryCatch body _ handler _ => body.sequential && handler.sequential

def stmtsSequential : List Stmt → Bool
  | [] => true
  | s :: ss => s.sequential && stmtsSequential ss

def Block.sequential : Block → Bool
  | ⟨ss, _⟩ => stmtsSequential ss

def methodsSequential : List FunctionDecl → Bool
  | [] => true
  | m :: ms => m.sequential && methodsSequential ms

def FunctionDecl.sequential : FunctionDecl → Bool
  | ⟨_, _, ⟨body, _⟩, _⟩ => stmtsSequential body

end

mutual

/-- The functions of a sequential program are sequential. -/
theorem Stmt.sequential_of_mem : (s : Stmt) → s.sequential → ∀ d ∈ s.declarations,
    d.2.sequential
  | .function decl, h => by
    simp only [Stmt.sequential] at h
    simp only [Stmt.declarations]
    exact decl.sequential_of_mem false h
  | .classDecl _ methods _, h => by
    simp only [Stmt.sequential] at h
    simp only [Stmt.declarations]
    exact methodsSequential_of_mem methods h
  | .block body, h => by
    simp only [Stmt.sequential] at h
    simp only [Stmt.declarations]
    exact body.sequential_of_mem h
  | .ifElse cond thenBlock none _, h => by
    simp only [Stmt.sequential, Bool.and_eq_true] at h
    simp only [Stmt.declarations, List.append_nil]
    exact thenBlock.sequential_of_mem h.1.2
  | .ifElse cond thenBlock (some b) _, h => by
    simp only [Stmt.sequential, Bool.and_eq_true] at h
    simp only [Stmt.declarations, List.forall_mem_append]
    exact ⟨thenBlock.sequential_of_mem h.1.2, b.sequential_of_mem h.2⟩
  | .whileLoop cond body _, h => by
    simp only [Stmt.sequential, Bool.and_eq_true] at h
    simp only [Stmt.declarations]
    exact body.sequential_of_mem h.2
  | .tryCatch body _ handler _, h => by
    simp only [Stmt.sequential, Bool.and_eq_true] at h
    simp only [Stmt.declarations, List.forall_mem_append]
    exact ⟨body.sequential_of_mem h.1, handler.sequential_of_mem h.2⟩
  | .expr _, h | .print _ _, h | .ret _ _, h | .importUnit _ _, h => by
    simp only [Stmt.declarations, List.not_mem_nil, false_implies, implies_true]

theorem stmtsSequential_of_mem : (ss : List Stmt) → stmtsSequential ss →
    ∀ d ∈ stmtDeclarations ss, d.2.sequential
  | [], h => by
    simp only [stmtDeclarations, List.not_mem_nil, false_implies, implies_true]
  | s :: ss, h => by
    simp only [stmtsSequential, Bool.and_eq_true] at h
    simp only [stmtDeclarations, List.forall_mem_append]
    exact ⟨s.sequential_of_mem h.1, stmtsSequential_of_mem ss h.2⟩

theorem Block.sequential_of_mem : (b : Block) → b.sequential → ∀ d ∈ b.declarations,
    d.2.sequential
  | ⟨ss, _⟩, h => by
    simp only [Block.sequential] at h
    simp only [Block.declarations]
    exact stmtsSequential_of_mem ss h

theorem methodsSequential_of_mem : (ms : List FunctionDecl) → methodsSequential ms →
    ∀ d ∈ methodDeclarations ms, d.2.sequential
  | [], h => by
    simp only [methodDeclarations, List.not_mem_nil, false_implies, implies_true]
  | m :: ms, h => by
    simp only [methodsSequential, Bool.and_eq_true] at h
    simp only [methodDeclarations, List.forall_mem_append]
    exact ⟨m.sequential_of_mem true h.1, methodsSequential_of_mem ms h.2⟩

theorem FunctionDecl.sequential_of_mem (isMethod : Bool) : (decl : FunctionDecl) →
    decl.sequential → ∀ d ∈ decl.declarations isMethod, d.2.sequential
  | ⟨name, params, ⟨body, _⟩, span⟩, h => by
    have hbody := h
    simp only [FunctionDecl.sequential] at hbody
    simp only [FunctionDecl.declarations, List.forall_mem_cons]
    exact ⟨h, stmtsSequential_of_mem body hbody⟩

end

end DotScript.Syntax

namespace DotScript.Semantics

open DotScript.Machine DotScript.Syntax DotScript.Bytecode
open DotScript.Compile hiding expr exprs pairs stmt stmts block

/-! ## Kept stores -/

/-- A store with locals of given names and all values in a realm. -/
structure Store.In (R : Realm) (ns : List String) (σ : Store) : Prop where
  names : σ.locals.map (·.1) = ns
  locals : (⟨σ.locals⟩ : Table String Value).In R
  globals : σ.globals.In R
  heap : σ.world.heap.In R

section
variable {R : Realm} {ns : List String} {α β : Type}

/-- An evaluation has ended with a store in the realm and is not stuck. -/
def Settled (R : Realm) (ns : List String) (Q : α → Prop) : EStateM.Result Stop Store α → Prop
  | .ok a σ => σ.In R ns ∧ Q a
  | .error (.returned v) σ => σ.In R ns ∧ v.In R
  | .error .stuck _ => False
  | .error _ σ => σ.In R ns

/-- An evaluation keeps stores in the realm, gives a result with a property, and is not stuck. -/
def Keeps (R : Realm) (ns : List String) (Q : α → Prop) (e : Eval α) : Prop :=
  ∀ σ, σ.In R ns → Settled R ns Q (e σ)

namespace Keeps

variable {Q : α → Prop} {Q' : β → Prop}

theorem pure {a : α} (h : Q a) : Keeps R ns Q (pure a) := fun _ hσ => ⟨hσ, h⟩

theorem bind {e : Eval α} {f : α → Eval β} (he : Keeps R ns Q e)
    (hf : ∀ a, Q a → Keeps R ns Q' (f a)) : Keeps R ns Q' (e >>= f) := by
  intro σ hσ
  have he := he σ hσ
  cases hr : e σ with
  | ok a σ' =>
    rw [hr] at he
    rw [bind_of_ok hr]
    exact hf a he.2 σ' he.1
  | error stop σ' =>
    rw [hr] at he
    rw [bind_of_error hr]
    cases stop <;> exact he

theorem fail (e : RuntimeError) : Keeps R ns Q (Semantics.fail e) := by
  intro σ hσ
  rw [fail_apply]
  cases σ.armed <;> exact hσ

theorem attempt {r : Except RuntimeError α} (h : ∀ a, r = .ok a → Q a) :
    Keeps R ns Q (Semantics.attempt r) := by
  cases r with
  | ok a => exact pure (h a rfl)
  | error e => exact fail e

theorem modify {f : Store → Store} (h : ∀ σ, σ.In R ns → (f σ).In R ns) :
    Keeps R ns (fun _ => True) (modify f) := fun σ hσ => ⟨h σ hσ, trivial⟩

end Keeps

/-! ## Variables and objects -/

theorem readVariable_keeps (name : String) : Keeps R ns (·.In R) (readVariable name) := by
  intro σ hσ
  simp only [readVariable]
  rw [bind_of_ok (get_apply σ)]
  cases hlocal : Table.find? name σ.locals with
  | some v => exact ⟨hσ, hσ.locals.get? hlocal⟩
  | none =>
    cases hglobal : σ.globals.get? name with
    | some v => exact ⟨hσ, hσ.globals.get? hglobal⟩
    | none => exact Keeps.fail _ σ hσ

theorem map_fst_put {name : String} {locals : List (String × Value)} {v : Value} (u : Value)
    (h : Table.find? name locals = some v) :
    (Table.put name u locals).map (·.1) = locals.map (·.1) := by
  rw [Table.map_fst_put, if_pos (List.mem_map_of_mem (Table.mem_of_find? h))]

theorem writeVariable_keeps (name : String) {v : Value} (hv : v.In R) :
    Keeps R ns (fun _ => True) (writeVariable name v) := by
  refine Keeps.modify fun σ hσ => ?_
  split
  · next u hu =>
    exact ⟨(map_fst_put v hu).trans hσ.names, hσ.locals.insert name hv, hσ.globals, hσ.heap⟩
  · exact ⟨hσ.names, hσ.locals, hσ.globals.insert name hv, hσ.heap⟩

theorem receiver_keeps {slot : Nat} (h : slotOf "this" ns = some slot) :
    Keeps R ns (·.In R) receiver := by
  intro σ hσ
  simp only [receiver]
  rw [bind_of_ok (get_apply σ)]
  have hsome := isSome_slotOf "this" σ.locals
  rw [hσ.names, h] at hsome
  cases hlocal : Table.find? "this" σ.locals with
  | some v => exact ⟨hσ, hσ.locals.get? hlocal⟩
  | none =>
    rw [hlocal] at hsome
    cases hsome

theorem updateHeap_keeps {f : Heap → Heap} (h : ∀ heap : Heap, heap.In R → (f heap).In R) :
    Keeps R ns (fun _ => True) (updateHeap f) :=
  Keeps.modify fun _ hσ => ⟨hσ.names, hσ.locals, hσ.globals, h _ hσ.heap⟩

theorem readProperty_keeps {o : Value} (name : String) (ho : o.In R) :
    Keeps R ns (·.In R) (readProperty o name) := by
  intro σ hσ
  cases o with
  | inst i =>
    exact Keeps.attempt (fun v hv => hσ.heap.property (by simpa using ho) hv) σ hσ
  | _ => exact Keeps.fail _ σ hσ

theorem writeProperty_keeps {o v : Value} (name : String) (hv : v.In R) :
    Keeps R ns (·.In R) (writeProperty o name v) := by
  cases o with
  | inst i =>
    exact (updateHeap_keeps fun heap hheap => hheap.setField i name hv).bind
      fun _ _ => Keeps.pure hv
  | _ => exact Keeps.fail _

theorem in_of_binaryResult {op : BinaryOp} {a b v : Value} (h : binaryResult op a b = .ok v) :
    v.In R := by
  cases op with
  | add => exact in_of_addValues h
  | eq | notEq =>
    cases h
    simp
  | _ => exact in_of_onNumbers (fun _ _ => by simp) h

theorem in_of_unaryResult {op : UnaryOp} {a v : Value} (h : unaryResult op a = .ok v) :
    v.In R := by
  unfold unaryResult at h
  split at h <;> cases h <;> simp

end

/-! ## Expressions -/

/-- Calls are kept. -/
structure CallsKept (R : Realm) (Γ : Context) : Prop where
  kept : ∀ {ns : List String} {callee : Value} {args : List Value}, callee.In R →
    (∀ a ∈ args, a.In R) → Keeps R ns (·.In R) (Γ.call callee args)

section
variable {R : Realm} {Γ : Context} {c : Chunk}

mutual

theorem expr_keeps (hcalls : CallsKept R Γ) : (e : Expr) → {ns : List String} → {a : Nat} →
    ExprAt c ns a e → e.sequential → Keeps R ns (·.In R) (expr Γ e)
  | .var id, ns, a, h, hs => by
    simp only [expr]
    exact readVariable_keeps id.name
  | .null _, ns, a, h, hs => Keeps.pure (by simp)
  | .bool b _, ns, a, h, hs => Keeps.pure (by simp)
  | .number n _, ns, a, h, hs => Keeps.pure (by simp)
  | .str s _, ns, a, h, hs => Keeps.pure (by simp)
  | .assign target value _, ns, a, h, hs => by
    cases target with
    | var id =>
      simp only [ExprAt] at h
      simp only [Expr.sequential, Bool.and_eq_true] at hs
      simp only [expr]
      exact (expr_keeps hcalls value h.1 hs.2).bind fun v hv =>
        (writeVariable_keeps id.name hv).bind fun _ _ => Keeps.pure hv
    | _ => simp only [ExprAt] at h
  | .set object name value _, ns, a, h, hs => by
    simp only [ExprAt] at h
    simp only [Expr.sequential, Bool.and_eq_true] at hs
    simp only [expr]
    exact (expr_keeps hcalls object h.1 hs.1).bind fun o _ =>
      (expr_keeps hcalls value h.2.1 hs.2).bind fun v hv => writeProperty_keeps name.name hv
  | .get object name _, ns, a, h, hs => by
    simp only [ExprAt] at h
    simp only [Expr.sequential] at hs
    simp only [expr]
    exact (expr_keeps hcalls object h.1 hs).bind fun o ho => readProperty_keeps name.name ho
  | .binary op left right _, ns, a, h, hs => by
    simp only [ExprAt] at h
    simp only [Expr.sequential, Bool.and_eq_true] at hs
    simp only [expr]
    exact (expr_keeps hcalls left h.1 hs.1).bind fun u _ =>
      (expr_keeps hcalls right h.2.1 hs.2).bind fun v _ =>
        Keeps.attempt fun _ => in_of_binaryResult
  | .unary op operand _, ns, a, h, hs => by
    simp only [ExprAt] at h
    simp only [Expr.sequential] at hs
    simp only [expr]
    exact (expr_keeps hcalls operand h.1 hs).bind fun v _ =>
      Keeps.attempt fun _ => in_of_unaryResult
  | .call callee args _, ns, a, h, hs => by
    simp only [ExprAt] at h
    simp only [Expr.sequential, Bool.and_eq_true] at hs
    simp only [expr]
    exact (expr_keeps hcalls callee h.1 hs.1).bind fun f hf =>
      (exprs_keeps hcalls args h.2.1 hs.2).bind fun vs hvs => hcalls.kept hf hvs
  | .list elems _, ns, a, h, hs => by
    simp only [ExprAt] at h
    simp only [Expr.sequential] at hs
    simp only [expr]
    exact (exprs_keeps hcalls elems h.1 hs).bind fun vs hvs => Keeps.pure (Value.in_list.mpr hvs)
  | .map entries _, ns, a, h, hs => by
    simp only [ExprAt] at h
    simp only [Expr.sequential] at hs
    simp only [expr]
    refine (pairs_keeps hcalls entries h.1 hs).bind fun vs hvs => Keeps.attempt fun v hv => ?_
    cases hmap : buildMap vs {} with
    | ok t =>
      rw [hmap] at hv
      cases hv
      exact Value.in_map.mpr (in_of_buildMap hvs (fun _ he => (List.not_mem_nil he).elim) hmap)
    | error e =>
      rw [hmap] at hv
      cases hv
  | .self _, ns, a, h, hs => by
    simp only [ExprAt] at h
    obtain ⟨slot, hslot, -⟩ := h
    simp only [expr]
    exact receiver_keeps hslot
  | .spawn _ _, ns, a, h, hs => by
    simp only [Expr.sequential, Bool.false_eq_true] at hs

theorem exprs_keeps (hcalls : CallsKept R Γ) : (es : List Expr) → {ns : List String} → {a : Nat} →
    ExprsAt c ns a es → exprsSequential es → Keeps R ns (fun vs => ∀ v ∈ vs, v.In R) (exprs Γ es)
  | [], ns, a, h, hs => Keeps.pure (fun _ hv => nomatch hv)
  | e :: es, ns, a, h, hs => by
    simp only [ExprsAt] at h
    simp only [exprsSequential, Bool.and_eq_true] at hs
    simp only [exprs]
    exact (expr_keeps hcalls e h.1 hs.1).bind fun v hv =>
      (exprs_keeps hcalls es h.2 hs.2).bind fun vs hvs =>
        Keeps.pure (List.forall_mem_cons.mpr ⟨hv, hvs⟩)

theorem pairs_keeps (hcalls : CallsKept R Γ) : (es : List (Expr × Expr)) → {ns : List String} →
    {a : Nat} → PairsAt c ns a es → pairsSequential es →
    Keeps R ns (fun vs => ∀ v ∈ vs, v.In R) (pairs Γ es)
  | [], ns, a, h, hs => Keeps.pure (fun _ hv => nomatch hv)
  | (key, value) :: es, ns, a, h, hs => by
    simp only [PairsAt] at h
    simp only [pairsSequential, Bool.and_eq_true] at hs
    simp only [pairs]
    exact (expr_keeps hcalls key h.1 hs.1.1).bind fun k hk =>
      (expr_keeps hcalls value h.2.1 hs.1.2).bind fun v hv =>
        (pairs_keeps hcalls es h.2.2 hs.2).bind fun vs hvs =>
          Keeps.pure (List.forall_mem_cons.mpr ⟨hk, List.forall_mem_cons.mpr ⟨hv, hvs⟩⟩)

end

end

/-! ## Statements -/

section
variable {R : Realm} {ns : List String}

theorem loop_keeps {cond : Eval Value} {body : Eval Unit} {Q : Value → Prop}
    (hcond : Keeps R ns Q cond) (hbody : Keeps R ns (fun _ => True) body) (n : Nat) :
    Keeps R ns (fun _ => True) (loop cond body n) := by
  induction n with
  | zero => exact fun _ hσ => hσ
  | succ n ih =>
    refine hcond.bind fun v _ => ?_
    split
    · exact Keeps.pure trivial
    · exact hbody.bind fun _ _ => ih

theorem withLocal_keeps {name : String} {v : Value} {body : Eval Unit} (hv : v.In R)
    (hbody : Keeps R (name :: ns) (fun _ => True) body) :
    Keeps R ns (fun _ => True) (withLocal name v body) := by
  intro σ hσ
  have hlocals : (⟨(name, v) :: σ.locals⟩ : Table String Value).In R :=
    List.forall_mem_cons.mpr ⟨hv, hσ.locals⟩
  have hbody := hbody { σ with locals := (name, v) :: σ.locals }
    ⟨by rw [List.map_cons, hσ.names], hlocals, hσ.globals, hσ.heap⟩
  have htail : ∀ {σ' : Store}, σ'.In R (name :: ns) →
      ({ σ' with locals := σ'.locals.tail } : Store).In R ns := fun h =>
    ⟨by rw [List.map_tail, h.names, List.tail_cons],
      fun l hl => h.locals l (List.mem_of_mem_tail hl), h.globals, h.heap⟩
  simp only [withLocal]
  cases hr : body { σ with locals := (name, v) :: σ.locals } with
  | ok _ σ' =>
    rw [hr] at hbody
    exact ⟨htail hbody.1, trivial⟩
  | error stop σ' =>
    rw [hr] at hbody
    cases stop with
    | returned u => exact ⟨htail hbody.1, hbody.2⟩
    | stuck => exact hbody
    | _ => exact htail hbody

theorem guarded_keeps {name : String} {body handler : Eval Unit}
    (hbody : Keeps R ns (fun _ => True) body)
    (hhandler : Keeps R (name :: ns) (fun _ => True) handler) :
    Keeps R ns (fun _ => True) (guarded body name handler) := by
  intro σ hσ
  have hbody := hbody { σ with armed := true } ⟨hσ.names, hσ.locals, hσ.globals, hσ.heap⟩
  simp only [guarded]
  cases hr : body { σ with armed := true } with
  | ok _ σ' =>
    rw [hr] at hbody
    obtain ⟨hσ', -⟩ := hbody
    exact ⟨⟨hσ'.names, hσ'.locals, hσ'.globals, hσ'.heap⟩, trivial⟩
  | error stop σ' =>
    rw [hr] at hbody
    cases stop with
    | raised e =>
      refine withLocal_keeps (by simp) hhandler { σ' with armed := false } ?_
      exact ⟨hbody.names, hbody.locals, hbody.globals, hbody.heap⟩
    | _ => exact hbody

/-- The functions and methods of the realm are those of the program. -/
structure RealmOf (R : Realm) (Γ : Context) : Prop where
  function : ∀ f, R.function f ↔ ∃ d ∈ Γ.declared, d.function = f ∧ d.isMethod = false
  method : ∀ f, R.method f ↔ ∃ d ∈ Γ.declared, d.function = f ∧ d.isMethod = true
  objects : R.objects
  native : ∀ b, R.native b

variable {Γ : Context} {image : Image} {a k : Nat}

theorem bindFunction_keeps (hR : RealmOf R Γ) {decl : FunctionDecl}
    (hnum : Numbered Γ k (functionDeclared image a false decl)) :
    Keeps R ns (fun _ => True) (bindFunction Γ k decl) := by
  obtain ⟨name, params, ⟨body, blockSpan⟩, span⟩ := decl
  simp only [functionDeclared] at hnum
  have hd := hnum.head
  have hfunction := (hR.function _).mpr ⟨_, List.mem_of_getElem? hd, rfl, rfl⟩
  simp only [bindFunction, hd]
  refine Keeps.modify fun σ hσ => ⟨hσ.names, hσ.locals, hσ.globals.insert _ ?_, hσ.heap⟩
  exact (Value.in_function _).mpr hfunction

theorem bindClass_keeps (hR : RealmOf R Γ) (name : String) :
    Keeps R ns R.HasClass (bindClass name) := by
  intro σ hσ
  obtain ⟨hclass, hheap⟩ := hσ.heap.newClass hR.objects name
  refine ⟨⟨hσ.names, hσ.locals, hσ.globals.insert name ?_, hheap⟩, hclass⟩
  exact (Value.in_classRef _).mpr hclass

theorem addMethods_keeps (hR : RealmOf R Γ) {c : Chunk} {cls : ClassRef} {ms : List FunctionDecl}
    (h : MethodsAt c a ms) (hnum : Numbered Γ k (methodsDeclared image a ms)) :
    Keeps R ns (fun _ => True) (addMethods Γ cls k ms) := by
  induction ms generalizing a k with
  | nil => exact Keeps.pure trivial
  | cons m ms ih =>
    simp only [MethodsAt] at h
    simp only [methodsDeclared] at hnum
    obtain ⟨hfirst, hnum⟩ := hnum.append (function_lists true m h.1).length
    obtain ⟨name, params, ⟨body, blockSpan⟩, span⟩ := m
    simp only [functionDeclared] at hfirst
    have hd := hfirst.head
    have hmethod := (hR.method _).mpr ⟨_, List.mem_of_getElem? hd, rfl, rfl⟩
    simp only [addMethods, hd]
    exact (updateHeap_keeps fun heap hheap => hheap.addMethod cls _ hmethod).bind
      fun _ _ => ih h.2.2.2 hnum

theorem optional_keeps {c : Chunk} (hcalls : CallsKept R Γ) {value : Option Expr}
    (h : OptionalAt c ns a value) (hs : value.all Expr.sequential) :
    Keeps R ns (·.In R) (optional Γ value) := by
  cases value with
  | some e => exact expr_keeps hcalls e h hs
  | none => exact Keeps.pure (by simp)

end

section
variable {R : Realm} {Γ : Context} {image : Image} {c : Chunk}

mutual

theorem stmt_keeps (hcalls : CallsKept R Γ) (hR : RealmOf R Γ) : (s : Stmt) → {ns : List String} →
    {a k : Nat} → StmtAt c ns a s → s.sequential → Numbered Γ k (stmtDeclared image a s) →
    Keeps R ns (fun _ => True) (stmt Γ k s)
  | .expr e, ns, a, k, h, hs, hnum => by
    simp only [StmtAt] at h
    simp only [Stmt.sequential] at hs
    simp only [stmt]
    exact (expr_keeps hcalls e h.1 hs).bind fun _ _ => Keeps.pure trivial
  | .print value _, ns, a, k, h, hs, hnum => by
    simp only [StmtAt] at h
    simp only [Stmt.sequential] at hs
    simp only [stmt]
    exact (expr_keeps hcalls value h.1 hs).bind fun _ _ =>
      Keeps.modify fun _ hσ => ⟨hσ.names, hσ.locals, hσ.globals, hσ.heap⟩
  | .function decl, ns, a, k, h, hs, hnum => by
    simp only [stmtDeclared] at hnum
    simp only [stmt]
    exact bindFunction_keeps hR hnum
  | .classDecl name methods _, ns, a, k, h, hs, hnum => by
    simp only [StmtAt] at h
    simp only [stmtDeclared] at hnum
    simp only [stmt]
    exact (bindClass_keeps hR name.name).bind fun _ _ => addMethods_keeps hR h.2.1 hnum
  | .block body, ns, a, k, h, hs, hnum => by
    simp only [StmtAt] at h
    simp only [Stmt.sequential] at hs
    simp only [stmtDeclared] at hnum
    simp only [stmt]
    exact block_keeps hcalls hR body h hs hnum
  | .ifElse cond thenBlock none _, ns, a, k, h, hs, hnum => by
    simp only [StmtAt] at h
    simp only [Stmt.sequential, Bool.and_eq_true] at hs
    simp only [stmtDeclared, List.append_nil] at hnum
    simp only [stmt]
    refine (expr_keeps hcalls cond h.1 hs.1.1).bind fun v _ => ?_
    split
    · exact Keeps.pure trivial
    · exact block_keeps hcalls hR thenBlock h.2.2.1 hs.1.2 hnum
  | .ifElse cond thenBlock (some b) _, ns, a, k, h, hs, hnum => by
    simp only [StmtAt] at h
    simp only [Stmt.sequential, Bool.and_eq_true] at hs
    simp only [stmtDeclared] at hnum
    obtain ⟨hfirst, hnum⟩ := hnum.append (block_lists thenBlock h.2.2.1).length
    simp only [stmt]
    refine (expr_keeps hcalls cond h.1 hs.1.1).bind fun v _ => ?_
    split
    · exact block_keeps hcalls hR b h.2.2.2 hs.2 hnum
    · exact block_keeps hcalls hR thenBlock h.2.2.1 hs.1.2 hfirst
  | .whileLoop cond body _, ns, a, k, h, hs, hnum => by
    simp only [StmtAt] at h
    simp only [Stmt.sequential, Bool.and_eq_true] at hs
    simp only [stmtDeclared] at hnum
    simp only [stmt]
    exact loop_keeps (expr_keeps hcalls cond h.1 hs.1)
      (block_keeps hcalls hR body h.2.2 hs.2 hnum) _
  | .ret value _, ns, a, k, h, hs, hnum => by
    simp only [StmtAt] at h
    simp only [Stmt.sequential] at hs
    simp only [stmt]
    exact (optional_keeps hcalls h.1 hs).bind fun v hv σ hσ => ⟨hσ, hv⟩
  | .importUnit _ _, ns, a, k, h, hs, hnum => by
    simp only [Stmt.sequential, Bool.false_eq_true] at hs
  | .tryCatch body errorVar handler _, ns, a, k, h, hs, hnum => by
    simp only [StmtAt] at h
    simp only [Stmt.sequential, Bool.and_eq_true] at hs
    simp only [stmtDeclared] at hnum
    obtain ⟨hfirst, hnum⟩ := hnum.append (block_lists body h.2.1).length
    simp only [stmt]
    exact guarded_keeps (block_keeps hcalls hR body h.2.1 hs.1 hfirst)
      (block_keeps hcalls hR handler h.2.2 hs.2 hnum)

theorem stmts_keeps (hcalls : CallsKept R Γ) (hR : RealmOf R Γ) : (ss : List Stmt) →
    {ns : List String} → {a k : Nat} → StmtsAt c ns a ss → stmtsSequential ss →
    Numbered Γ k (stmtsDeclared image a ss) → Keeps R ns (fun _ => True) (stmts Γ k ss)
  | [], ns, a, k, h, hs, hnum => Keeps.pure trivial
  | s :: ss, ns, a, k, h, hs, hnum => by
    simp only [StmtsAt] at h
    simp only [stmtsSequential, Bool.and_eq_true] at hs
    simp only [stmtsDeclared] at hnum
    obtain ⟨hfirst, hnum⟩ := hnum.append (stmt_lists s h.1).length
    simp only [stmts]
    exact (stmt_keeps hcalls hR s h.1 hs.1 hfirst).bind fun _ _ =>
      stmts_keeps hcalls hR ss h.2 hs.2 hnum

theorem block_keeps (hcalls : CallsKept R Γ) (hR : RealmOf R Γ) : (b : Block) →
    {ns : List String} → {a k : Nat} → BlockAt c ns a b → b.sequential →
    Numbered Γ k (blockDeclared image a b) → Keeps R ns (fun _ => True) (block Γ k b)
  | ⟨ss, _⟩, ns, a, k, h, hs, hnum => by
    simp only [BlockAt] at h
    simp only [Block.sequential] at hs
    simp only [blockDeclared] at hnum
    simp only [block]
    exact stmts_keeps hcalls hR ss h hs hnum

end

theorem value_keeps (hcalls : CallsKept R Γ) (hR : RealmOf R Γ) : (ss : List Stmt) →
    {ns : List String} → {a k : Nat} → ValueAt c ns a ss → stmtsSequential ss →
    Numbered Γ k (valueDeclared image a ss) → Keeps R ns (·.In R) (value Γ k ss)
  | [], ns, a, k, h, hs, hnum => Keeps.pure (by simp)
  | [s], ns, a, k, h, hs, hnum => by
    have hplain : StmtAt c ns a s → stmtsSequential [s] → Numbered Γ k (stmtDeclared image a s) →
        Keeps R ns (·.In R) (do stmt Γ k s; return .null : Eval Value) := fun hstmt hs hnum => by
      simp only [stmtsSequential, Bool.and_eq_true] at hs
      exact (stmt_keeps hcalls hR s hstmt hs.1 hnum).bind fun _ _ => Keeps.pure (by simp)
    match s, h, hs, hnum with
    | .expr e, h, hs, hnum =>
      simp only [stmtsSequential, Stmt.sequential, Bool.and_eq_true] at hs
      exact expr_keeps hcalls e h hs.1
    | .ifElse cond ⟨thenStmts, _⟩ none _, h, hs, hnum =>
      obtain ⟨hcond, -, hthen, -⟩ := h
      simp only [stmtsSequential, Stmt.sequential, Block.sequential, Bool.and_eq_true] at hs
      change Numbered Γ k (valueDeclared image (a + cond.width + 2) thenStmts ++ []) at hnum
      rw [List.append_nil] at hnum
      refine (expr_keeps hcalls cond hcond hs.1.1.1).bind fun v _ => ?_
      split
      · exact Keeps.pure (by simp)
      · exact value_keeps hcalls hR thenStmts hthen hs.1.1.2 hnum
    | .ifElse cond ⟨thenStmts, _⟩ (some ⟨elseStmts, _⟩) _, h, hs, hnum =>
      obtain ⟨hcond, -, hthen, helse⟩ := h
      simp only [stmtsSequential, Stmt.sequential, Block.sequential, Bool.and_eq_true] at hs
      obtain ⟨hfirst, hnum⟩ := Numbered.append hnum (value_lists thenStmts hthen).length
      refine (expr_keeps hcalls cond hcond hs.1.1.1).bind fun v _ => ?_
      split
      · exact value_keeps hcalls hR elseStmts helse hs.1.2 hnum
      · exact value_keeps hcalls hR thenStmts hthen hs.1.1.2 hfirst
    | .print _ _, h, hs, hnum | .function _, h, hs, hnum | .classDecl _ _ _, h, hs, hnum
    | .block _, h, hs, hnum | .whileLoop _ _ _, h, hs, hnum | .ret _ _, h, hs, hnum
    | .importUnit _ _, h, hs, hnum | .tryCatch _ _ _ _, h, hs, hnum => exact hplain h.1 hs hnum
  | s :: s' :: ss, ns, a, k, h, hs, hnum => by
    have hrest : stmtsSequential (s' :: ss) := by
      rw [stmtsSequential, Bool.and_eq_true] at hs
      exact hs.2
    rw [stmtsSequential, Bool.and_eq_true] at hs
    obtain ⟨hfirst, hnum⟩ := Numbered.append hnum (stmt_lists s h.1).length
    exact (stmt_keeps hcalls hR s h.1 hs.1 hfirst).bind fun _ _ =>
      value_keeps hcalls hR (s' :: ss) h.2 hrest hnum

/-! ## Calls -/

/-- A body that ends in a `return` has the value of its statements. -/
theorem value_of_endsInReturn {body : List Stmt} (k : Nat) (h : endsInReturn body) :
    value Γ k body = (do stmts Γ k body; return .null : Eval Value) := by
  induction body generalizing k with
  | nil => cases h
  | cons s ss ih =>
    cases ss with
    | nil =>
      cases s with
      | ret e span =>
        change (do stmt Γ k (.ret e span); return .null : Eval Value) = _
        simp only [stmts, bind_assoc, pure_bind]
      | _ => cases h
    | cons s' ss' =>
      have h' : endsInReturn (s' :: ss') := by
        cases s <;> exact h
      change (do stmt Γ k s; value Γ (k + s.declarations.length) (s' :: ss') : Eval Value) = _
      rw [ih _ h']
      simp only [stmts, bind_assoc]

/-- The body of a function keeps stores in the realm. -/
theorem body_keeps (hcalls : CallsKept R Γ) (hR : RealmOf R Γ) {isMethod : Bool}
    {decl : FunctionDecl} {a k : Nat} (h : FunctionAt c isMethod a decl) (hs : decl.sequential)
    (hnum : Numbered Γ k (valueDeclared image (a + 2) decl.body.stmts)) :
    Keeps R (bodyNames isMethod (decl.params.map (·.name))) (·.In R)
      (value Γ k decl.body.stmts) := by
  obtain ⟨name, params, ⟨body, blockSpan⟩, span⟩ := decl
  simp only [FunctionAt] at h
  simp only [FunctionDecl.sequential] at hs
  obtain ⟨-, h⟩ := h
  by_cases hends : endsInReturn body
  · simp only [hends, if_true] at h
    rw [valueDeclared_of_endsInReturn _ hends] at hnum
    simp only [value_of_endsInReturn k hends]
    exact (stmts_keeps hcalls hR body h hs hnum).bind fun _ _ => Keeps.pure (by simp)
  · simp only [hends, Bool.false_eq_true, if_false] at h
    exact value_keeps hcalls hR body h.1 hs hnum

theorem asCall_keeps {ns ns' : List String} {locals : List (String × Value)} {body : Eval Value}
    (hnames : locals.map (·.1) = ns') (hlocals : (⟨locals⟩ : Table String Value).In R)
    (hbody : Keeps R ns' (·.In R) body) : Keeps R ns (·.In R) (asCall locals body) := by
  intro σ hσ
  have hbody := hbody { σ with locals } ⟨hnames, hlocals, hσ.globals, hσ.heap⟩
  have hback : ∀ {σ' : Store}, σ'.In R ns' →
      ({ σ' with locals := σ.locals, armed := σ.armed } : Store).In R ns := fun h =>
    ⟨hσ.names, hσ.locals, h.globals, h.heap⟩
  simp only [asCall]
  cases hr : body { σ with locals } with
  | ok v σ' =>
    rw [hr] at hbody
    exact ⟨hback hbody.1, hbody.2⟩
  | error stop σ' =>
    rw [hr] at hbody
    cases stop with
    | returned v => exact ⟨hback hbody.1, hbody.2⟩
    | stuck => exact hbody
    | _ => exact hback hbody

/-- A function of the program runs on arguments in the realm. -/
theorem enter_keeps (hcalls : CallsKept R Γ) (hR : RealmOf R Γ) (hplaced : AllPlaced Γ image)
    (hs : ∀ d ∈ Γ.declared, d.decl.sequential) {ns : List String} {f : Function} {isMethod : Bool}
    {slots : List Value} (hf : ∃ d ∈ Γ.declared, d.function = f ∧ d.isMethod = isMethod)
    (hlength : slots.length = f.arity + (if isMethod then 1 else 0))
    (hslots : ∀ v ∈ slots, v.In R) : Keeps R ns (·.In R) (enter Γ f isMethod slots) := by
  simp only [enter]
  cases hfind : Γ.find? f isMethod with
  | none =>
    obtain ⟨d, hd, rfl, rfl⟩ := hf
    exact absurd hfind (find?_ne_none hd)
  | some found =>
    obtain ⟨d, k⟩ := found
    obtain ⟨hd, rfl, rfl⟩ := find?_eq_some hfind
    obtain ⟨entry, hdecl, hcode, hinner⟩ := (hplaced k d hd).code
    have harity : d.function.arity = d.decl.params.length := by rw [hdecl]; rfl
    have hnames : ((bodyNames d.isMethod (d.decl.params.map (·.name))).zip slots.reverse).map (·.1) =
        bodyNames d.isMethod (d.decl.params.map (·.name)) := by
      refine List.map_fst_zip ?_
      rw [List.length_reverse, hlength, harity]
      cases d.isMethod <;> simp [bodyNames]
    refine asCall_keeps hnames (fun l hl => ?_)
      (body_keeps hcalls hR hcode (hs d (List.mem_of_getElem? hd)) hinner)
    exact hslots l.2 (List.mem_reverse.mp (List.of_mem_zip hl).2)

theorem checkCount_keeps {ns : List String} (f : Function) (args : List Value) :
    Keeps R ns (fun _ => f.arity = args.length) (checkCount f args) := by
  unfold checkCount
  split
  · next h => exact Keeps.pure h
  · exact Keeps.fail _

theorem apply_keeps (hcalls : CallsKept R Γ) (hR : RealmOf R Γ) (hplaced : AllPlaced Γ image)
    (hs : ∀ d ∈ Γ.declared, d.decl.sequential) (hinert : Γ.host.Inert) {ns : List String}
    {callee : Value} {args : List Value} (hcallee : callee.In R) (hargs : ∀ a ∈ args, a.In R) :
    Keeps R ns (·.In R) (apply Γ callee args) := by
  cases callee with
  | function f =>
    rw [Value.in_function, hR.function] at hcallee
    exact (checkCount_keeps f args).bind fun _ harity =>
      enter_keeps hcalls hR hplaced hs hcallee harity.symm hargs
  | bound i f =>
    rw [Value.in_bound, hR.method] at hcallee
    refine (checkCount_keeps f args).bind fun _ harity =>
      enter_keeps hcalls hR hplaced hs hcallee.2 ?_ ?_
    · simp only [List.length_cons, if_true, harity]
    · exact List.forall_mem_cons.mpr ⟨(Value.in_inst i).mpr hcallee.1, hargs⟩
  | native n =>
    have hnatives : Γ.host.InertIn R := hinert R hR.objects hR.native
    intro σ hσ
    simp only [apply]
    rw [bind_of_ok (get_apply σ)]
    rcases hcall : Γ.host.call n.builtin args σ.world with ⟨r, w⟩
    simp only [hcall]
    rw [bind_of_ok (modify_apply _ σ)]
    have hσ' : ({ σ with world := w } : Store).In R ns :=
      ⟨hσ.names, hσ.locals, hσ.globals, hnatives.heap (hR.native _) hcall hargs hσ.heap⟩
    cases r with
    | ok v => exact Keeps.pure (hnatives.result (hR.native _) hcall hargs hσ.heap) _ hσ'
    | error message => exact Keeps.fail _ _ hσ'
  | classRef c =>
    intro σ hσ
    rw [Value.in_classRef] at hcallee
    obtain ⟨hi, hheap⟩ := hσ.heap.newInstance hcallee
    have hσ' : ({ σ with world := { σ.world with heap := (σ.world.heap.newInstance c).2 } } :
        Store).In R ns := ⟨hσ.names, hσ.locals, hσ.globals, hheap⟩
    simp only [apply, updateHeap]
    rw [bind_of_ok (get_apply σ), bind_of_ok (modify_apply _ σ)]
    cases hinit : (σ.world.heap.newInstance c).2.method? c "init" with
    | none => exact Keeps.pure ((Value.in_inst _).mpr hi) _ hσ'
    | some init =>
      have hmethod := (hR.method init).mp (hheap.method hcallee hinit)
      refine ((checkCount_keeps init args).bind fun _ harity =>
        (enter_keeps hcalls hR hplaced hs hmethod ?_ ?_).bind fun _ _ =>
          Keeps.pure ((Value.in_inst _).mpr hi)) _ hσ'
      · simp only [List.length_cons, if_true, harity]
      · exact List.forall_mem_cons.mpr ⟨(Value.in_inst _).mpr hi, hargs⟩
  | _ => exact Keeps.fail _

end

/-- Calls nested at most `n` deep are kept. -/
theorem callsKept_context {R : Realm} {host : Host} {thread : ThreadId} {declared : List Declared}
    {image : Image} (hR : ∀ n, RealmOf R (context host thread declared n))
    (hplaced : ∀ n, AllPlaced (context host thread declared n) image)
    (hs : ∀ d ∈ declared, d.decl.sequential) (hinert : host.Inert) (n : Nat) :
    CallsKept R (context host thread declared n) := by
  induction n with
  | zero => exact ⟨fun _ _ _ hσ => hσ⟩
  | succ n ih =>
    exact ⟨fun hcallee hargs => apply_keeps ih (hR n) (hplaced n) hs hinert hcallee hargs⟩

end DotScript.Semantics
