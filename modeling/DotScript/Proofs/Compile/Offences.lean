import DotScript.Proofs.Compile.Refusals
import DotScript.Proofs.Syntax.AccountingStatements
import DotScript.Proofs.Syntax.Lossless

/-!
# Which programs do not compile

Three kinds of expressions cannot be compiled: assignments to something that is no variable, `spawn`
of something that is no call, and `this` outside of the methods of classes. Whether a program has one
can be seen from its tree alone, without the locals in scope, since no local but the receiver of a
method can have the name `this`. The first one is what the program is refused for. There is always
room for operands if there are few words and constants, for the parameters of a function in a text
take up space in that text.

* `Program.nodes`: the expressions of a program, in the order of the text;
* `ExprNode.offence?`: why an expression cannot be compiled;
* `Program.head_refusals`: the first expression that cannot be compiled is the reason for refusing;
* `binders_lt_of_parse`: a text that is not too long declares few locals.

Main statement: `compile_eq_error_iff`.
-/

namespace DotScript.Syntax

open DotScript.Compile DotScript.Text

/-! ## Expressions of a program -/

/-- An expression of a program, and whether it belongs to the body of a method. -/
structure ExprNode where
  inMethod : Bool
  expr : Expr

mutual

/-- The expressions inside an expression, in the order of the text: each of them before those
inside it. -/
def Expr.inside (inMethod : Bool) : Expr → List ExprNode
  | .var _ | .null _ | .bool _ _ | .number _ _ | .str _ _ | .self _ => []
  | .assign target value _ =>
    (⟨inMethod, target⟩ :: target.inside inMethod) ++ (⟨inMethod, value⟩ :: value.inside inMethod)
  | .set object _ value _ =>
    (⟨inMethod, object⟩ :: object.inside inMethod) ++ (⟨inMethod, value⟩ :: value.inside inMethod)
  | .get object _ _ => ⟨inMethod, object⟩ :: object.inside inMethod
  | .binary _ left right _ =>
    (⟨inMethod, left⟩ :: left.inside inMethod) ++ (⟨inMethod, right⟩ :: right.inside inMethod)
  | .unary _ operand _ => ⟨inMethod, operand⟩ :: operand.inside inMethod
  | .call callee args _ =>
    (⟨inMethod, callee⟩ :: callee.inside inMethod) ++ exprNodes inMethod args
  | .list elems _ => exprNodes inMethod elems
  | .map entries _ => entryNodes inMethod entries
  | .spawn call _ => ⟨inMethod, call⟩ :: call.inside inMethod

def exprNodes (inMethod : Bool) : List Expr → List ExprNode
  | [] => []
  | e :: es => (⟨inMethod, e⟩ :: e.inside inMethod) ++ exprNodes inMethod es

def entryNodes (inMethod : Bool) : List (Expr × Expr) → List ExprNode
  | [] => []
  | (key, value) :: es => (⟨inMethod, key⟩ :: key.inside inMethod) ++
    ((⟨inMethod, value⟩ :: value.inside inMethod) ++ entryNodes inMethod es)

end

/-- An expression and those inside it. -/
def Expr.nodes (inMethod : Bool) (e : Expr) : List ExprNode :=
  ⟨inMethod, e⟩ :: e.inside inMethod

mutual

/-- The expressions of a statement, in the order of the text. What belongs to a function in the body
of a method does not belong to the body of that method. -/
def Stmt.nodes (inMethod : Bool) : Stmt → List ExprNode
  | .expr e => e.nodes inMethod
  | .print value _ => value.nodes inMethod
  | .function decl => decl.nodes false
  | .classDecl _ methods _ => methodNodes methods
  | .block body => body.nodes inMethod
  | .ifElse cond thenBlock elseBlock _ =>
    cond.nodes inMethod ++ (thenBlock.nodes inMethod ++
      (match elseBlock with
        | some b => b.nodes inMethod
        | none => []))
  | .whileLoop cond body _ => cond.nodes inMethod ++ body.nodes inMethod
  | .ret value _ =>
    match value with
    | some e => e.nodes inMethod
    | none => []
  | .importUnit path _ => path.nodes inMethod
  | .tryCatch body _ handler _ => body.nodes inMethod ++ handler.nodes inMethod

def stmtNodes (inMethod : Bool) : List Stmt → List ExprNode
  | [] => []
  | s :: ss => s.nodes inMethod ++ stmtNodes inMethod ss

def Block.nodes (inMethod : Bool) : Block → List ExprNode
  | ⟨ss, _⟩ => stmtNodes inMethod ss

def methodNodes : List FunctionDecl → List ExprNode
  | [] => []
  | m :: ms => m.nodes true ++ methodNodes ms

def FunctionDecl.nodes (isMethod : Bool) : FunctionDecl → List ExprNode
  | ⟨_, _, ⟨body, _⟩, _⟩ => stmtNodes isMethod body

end

/-- The expressions of a program, in the order of the text. -/
def Program.nodes (p : Program) : List ExprNode := stmtNodes false p.stmts

/-- Why an expression cannot be compiled, apart from those inside it. -/
def ExprNode.offence? : ExprNode → Option CompileError
  | ⟨_, .assign (.var _) _ _⟩ => none
  | ⟨_, .assign target _ _⟩ => some (.invalidTarget target.span)
  | ⟨_, .spawn (.call _ _ _) _⟩ => none
  | ⟨_, .spawn operand _⟩ => some (.spawnOfNonCall operand.span)
  | ⟨inMethod, .self span⟩ => if inMethod then none else some (.selfOutsideMethod span)
  | _ => none

/-- The first reason why one of some expressions cannot be compiled. -/
def firstOffence (nodes : List ExprNode) : Option CompileError := nodes.findSome? ExprNode.offence?

theorem ExprNode.offence?_ne_overflow (node : ExprNode) (m : Nat) :
    node.offence? ≠ some (.operandOverflow m) := by
  intro h
  unfold offence? at h
  split at h
  case h_5 => split at h <;> cases h
  all_goals cases h

/-! ## The first offence is the reason -/

section
variable {ns : List String} {inMethod : Bool} {rs rs' : List CompileError}
  {nodes nodes' : List ExprNode}

theorem head_append (h : rs.head? = firstOffence nodes) (h' : rs'.head? = firstOffence nodes') :
    (rs ++ rs').head? = firstOffence (nodes ++ nodes') := by
  rw [List.head?_append, h, h']
  exact List.findSome?_append.symm

/-- An expression that could be compiled if those inside it could. -/
theorem head_cons {node : ExprNode} (hnone : node.offence? = none)
    (h : rs.head? = firstOffence nodes) : rs.head? = firstOffence (node :: nodes) := by
  rw [h, firstOffence, firstOffence, List.findSome?_cons, hnone]

mutual

theorem Expr.head_refusals (hself : (slotOf "this" ns).isSome = inMethod) : (e : Expr) →
    (e.refusals ns).head? = firstOffence (e.nodes inMethod)
  | .var _ | .null _ | .bool _ _ | .number _ _ | .str _ _ => rfl
  | .assign target value _ => by
    cases target with
    | var id => exact head_cons rfl (head_cons rfl (Expr.head_refusals hself value))
    | _ => rfl
  | .set object _ value _ =>
    head_cons rfl (head_append (Expr.head_refusals hself object) (Expr.head_refusals hself value))
  | .get object _ _ => head_cons rfl (Expr.head_refusals hself object)
  | .binary _ left right _ =>
    head_cons rfl (head_append (Expr.head_refusals hself left) (Expr.head_refusals hself right))
  | .unary _ operand _ => head_cons rfl (Expr.head_refusals hself operand)
  | .call callee args _ =>
    head_cons rfl (head_append (Expr.head_refusals hself callee) (head_exprRefusals hself args))
  | .list elems _ => head_cons rfl (head_exprRefusals hself elems)
  | .map entries _ => head_cons rfl (head_entryRefusals hself entries)
  | .self span => by
    simp only [Expr.refusals, hself]
    cases inMethod <;> rfl
  | .spawn operand _ => by
    cases operand with
    | call callee args _ =>
      exact head_cons rfl (head_cons rfl
        (head_append (Expr.head_refusals hself callee) (head_exprRefusals hself args)))
    | _ => rfl

theorem head_exprRefusals (hself : (slotOf "this" ns).isSome = inMethod) : (es : List Expr) →
    (exprRefusals ns es).head? = firstOffence (exprNodes inMethod es)
  | [] => rfl
  | e :: es => head_append (Expr.head_refusals hself e) (head_exprRefusals hself es)

theorem head_entryRefusals (hself : (slotOf "this" ns).isSome = inMethod) :
    (entries : List (Expr × Expr)) →
    (entryRefusals ns entries).head? = firstOffence (entryNodes inMethod entries)
  | [] => rfl
  | (key, value) :: entries => head_append (Expr.head_refusals hself key)
    (head_append (Expr.head_refusals hself value) (head_entryRefusals hself entries))

end

theorem slotOf_isSome_eq (name : String) (ns : List String) :
    (slotOf name ns).isSome = decide (name ∈ ns) := by
  induction ns with
  | nil => rfl
  | cons n ns ih =>
    rw [slotOf]
    split
    · next h => simp [h]
    · next h => simp [ih, Ne.symm h]

/-- No identifier is called like the receiver. -/
theorem Ident.name_ne_this {id : Ident} (h : id.normal = true) : id.name ≠ "this" := by
  intro hname
  have hthis : isName "this" = false := by decide
  rw [Ident.normal, hname, hthis] at h
  cases h

theorem isSome_slotOf_bodyNames (isMethod : Bool) {params : List Ident}
    (h : params.all Ident.normal = true) :
    (slotOf "this" (bodyNames isMethod (params.map (·.name)))).isSome = isMethod := by
  have hparams : "this" ∉ params.map (·.name) := by
    intro hmem
    obtain ⟨id, hid, hname⟩ := List.mem_map.mp hmem
    exact Ident.name_ne_this (List.all_eq_true.mp h id hid) hname
  rw [slotOf_isSome_eq, bodyNames]
  cases isMethod <;> simp [hparams]

theorem isSome_slotOf_cons {id : Ident} (h : id.normal = true)
    (hself : (slotOf "this" ns).isSome = inMethod) :
    (slotOf "this" (id.name :: ns)).isSome = inMethod := by
  rwa [slotOf, if_neg (Ident.name_ne_this h)]

mutual

theorem Stmt.head_refusals {ns : List String} {inMethod : Bool}
    (hself : (slotOf "this" ns).isSome = inMethod) :
    (s : Stmt) → s.normal = true → (s.refusals ns).head? = firstOffence (s.nodes inMethod)
  | .expr e, _ => Expr.head_refusals hself e
  | .print value _, _ => Expr.head_refusals hself value
  | .function decl, h => FunctionDecl.head_refusals false decl h
  | .classDecl _ methods _, h => head_methodRefusals methods (Bool.and_elim_right h)
  | .block _, h => absurd h Bool.false_ne_true
  | .ifElse cond thenBlock none _, h => by
    simp only [Stmt.normal, Bool.and_eq_true] at h
    exact head_append (Expr.head_refusals hself cond)
      (head_append (Block.head_refusals hself thenBlock h.1.2) rfl)
  | .ifElse cond thenBlock (some elseBlock) _, h => by
    simp only [Stmt.normal, Bool.and_eq_true] at h
    exact head_append (Expr.head_refusals hself cond)
      (head_append (Block.head_refusals hself thenBlock h.1.2)
        (Block.head_refusals hself elseBlock h.2))
  | .whileLoop cond body _, h => by
    simp only [Stmt.normal, Bool.and_eq_true] at h
    exact head_append (Expr.head_refusals hself cond) (Block.head_refusals hself body h.2)
  | .ret value _, _ => by
    cases value with
    | none => rfl
    | some e => exact Expr.head_refusals hself e
  | .importUnit path _, _ => Expr.head_refusals hself path
  | .tryCatch body errorVar handler _, h => by
    simp only [Stmt.normal, Bool.and_eq_true] at h
    exact head_append (Block.head_refusals hself body h.1.1)
      (Block.head_refusals (isSome_slotOf_cons h.1.2 hself) handler h.2)

theorem head_stmtRefusals {ns : List String} {inMethod : Bool}
    (hself : (slotOf "this" ns).isSome = inMethod) :
    (ss : List Stmt) → stmtsNormal ss = true →
    (stmtRefusals ns ss).head? = firstOffence (stmtNodes inMethod ss)
  | [], _ => rfl
  | s :: ss, h => by
    simp only [stmtsNormal, Bool.and_eq_true] at h
    exact head_append (Stmt.head_refusals hself s h.1.1) (head_stmtRefusals hself ss h.2)

theorem Block.head_refusals {ns : List String} {inMethod : Bool}
    (hself : (slotOf "this" ns).isSome = inMethod) :
    (b : Block) → b.normal = true → (b.refusals ns).head? = firstOffence (b.nodes inMethod)
  | ⟨ss, _⟩, h => head_stmtRefusals hself ss h

theorem head_methodRefusals : (ms : List FunctionDecl) → methodsNormal ms = true →
    (methodRefusals ms).head? = firstOffence (methodNodes ms)
  | [], _ => rfl
  | m :: ms, h => by
    simp only [methodsNormal, Bool.and_eq_true] at h
    exact head_append (FunctionDecl.head_refusals true m h.1) (head_methodRefusals ms h.2)

theorem FunctionDecl.head_refusals (isMethod : Bool) : (decl : FunctionDecl) →
    decl.normal = true → (decl.refusals isMethod).head? = firstOffence (decl.nodes isMethod)
  | ⟨_, params, ⟨body, _⟩, _⟩, h => by
    simp only [FunctionDecl.normal, Bool.and_eq_true] at h
    exact head_stmtRefusals (isSome_slotOf_bodyNames isMethod h.1.2) body h.2

end

/-- The first expression of a program that cannot be compiled is the first reason to refuse it. -/
theorem Program.head_refusals {p : Program} (h : p.normal = true) :
    p.refusals.head? = firstOffence p.nodes :=
  head_stmtRefusals rfl p.stmts h

end

/-! ## Locals take up space -/

theorem length_moreNamesWords (ids : List Ident) : (moreNamesWords ids).length = 2 * ids.length := by
  induction ids with
  | nil => rfl
  | cons id ids ih =>
    simp only [moreNamesWords, List.length_cons, ih]
    omega

theorem two_mul_length_le_namesWords (ids : List Ident) :
    2 * ids.length ≤ (namesWords ids).length + 1 := by
  cases ids with
  | nil => exact Nat.zero_le _
  | cons id ids =>
    simp only [namesWords, List.length_cons, length_moreNamesWords]
    omega

section
variable (parens : Bool)

mutual

/-- A local is written with two tokens at least, the name and what separates it from others. -/
theorem Stmt.two_mul_binders_le : (s : Stmt) → 2 * s.binders ≤ (s.words parens).length
  | .expr _ | .print _ _ | .ret _ _ | .importUnit _ _ => Nat.zero_le _
  | .function decl => FunctionDecl.two_mul_binders_le decl
  | .classDecl _ methods _ => by
    have h := two_mul_methodBinders_le methods
    simp only [Stmt.binders, Stmt.words, List.length_cons, List.length_append]
    omega
  | .block body => Block.two_mul_binders_le body
  | .ifElse cond thenBlock elseBlock _ => by
    have hthen := Block.two_mul_binders_le thenBlock
    cases elseBlock with
    | none =>
      simp only [Stmt.binders, Stmt.words, List.length_cons, List.length_append]
      omega
    | some b =>
      have helse := Block.two_mul_binders_le b
      simp only [Stmt.binders, Stmt.words, List.length_cons, List.length_append]
      omega
  | .whileLoop cond body _ => by
    have h := Block.two_mul_binders_le body
    simp only [Stmt.binders, Stmt.words, List.length_cons, List.length_append]
    omega
  | .tryCatch body errorVar handler _ => by
    have hbody := Block.two_mul_binders_le body
    have hhandler := Block.two_mul_binders_le handler
    simp only [Stmt.binders, Stmt.words, List.length_cons, List.length_append]
    omega

theorem two_mul_stmtBinders_le : (ss : List Stmt) →
    2 * stmtBinders ss ≤ (stmtsWords parens ss).length
  | [] => Nat.zero_le _
  | s :: ss => by
    have hs := Stmt.two_mul_binders_le s
    have hss := two_mul_stmtBinders_le ss
    simp only [stmtBinders, stmtsWords, List.length_append]
    omega

theorem Block.two_mul_binders_le : (b : Block) → 2 * b.binders ≤ (b.words parens).length
  | ⟨ss, _⟩ => two_mul_stmtBinders_le ss

theorem two_mul_methodBinders_le : (ms : List FunctionDecl) →
    2 * methodBinders ms ≤ (methodsWords parens ms).length
  | [] => Nat.zero_le _
  | m :: ms => by
    have hm := FunctionDecl.two_mul_binders_le m
    have hms := two_mul_methodBinders_le ms
    simp only [methodBinders, methodsWords, List.length_append]
    omega

theorem FunctionDecl.two_mul_binders_le : (decl : FunctionDecl) →
    2 * decl.binders ≤ (decl.words parens).length
  | ⟨_, params, ⟨body, _⟩, _⟩ => by
    have hparams := two_mul_length_le_namesWords params
    have hbody := two_mul_stmtBinders_le body
    simp only [FunctionDecl.binders, FunctionDecl.words, Block.words, List.length_cons,
      List.length_append]
    omega

end

end

/-- A text has a byte for each of the tokens that declare locals. -/
theorem binders_lt_of_parse {text : String} {p : Program} (h : parse text = .ok p)
    (hsize : text.utf8ByteSize < 2 ^ 32) : p.binders < 2 ^ 31 := by
  have hwords : 2 * p.binders ≤ (p.words false).length := two_mul_stmtBinders_le false p.stmts
  have hplain := congrArg List.length (normal_and_plain_of_parse h).2
  have hle := length_plain_le ((tokens text).map Token.kind)
  have htokens := (tiles_tokensFrom 0 text.toList).length_le
  rw [byteLength_toList] at htokens
  change (tokens text).length ≤ _ at htokens
  rw [List.length_append, List.length_singleton] at hplain
  rw [List.length_map] at hle
  omega

end DotScript.Syntax

namespace DotScript.Compile

open DotScript.Syntax

/-- A program that has less than 2 ^ 31 words of code and less than 2 ^ 31 constants is refused if and
only if one of its expressions cannot be compiled: an assignment to something that is no variable, a
`spawn` of something that is no call, or a `this` that does not belong to the body of a method. It is
refused for the first of them in the order of the text, and never for lack of room. The numbers of its
parameters and of the variables of its handlers are operands, too, though declaring them takes no code.
That these are less than 2 ^ 31 is the case for all texts shorter than 2 ^ 32 bytes, `binders_lt_of_parse`,
and so whenever the offsets in spans are words. -/
theorem compile_eq_error_iff (text : String) (p : Program) (hp : parse text = .ok p)
    (hbinders : p.binders < 2 ^ 31) (name : String) (hcode : (written p name).code.size < 2 ^ 31)
    (hconstants : (written p name).constants.size < 2 ^ 31) :
    ((∃ e, compile p name = .error e) ↔ ∃ node ∈ p.nodes, node.offence?.isSome) ∧
      (∀ e, compile p name = .error e → ∃ before node after, p.nodes = before ++ node :: after ∧
        node.offence? = some e ∧ ∀ node' ∈ before, node'.offence? = none) ∧
      ∀ n, compile p name ≠ .error (.operandOverflow n) := by
  have hnormal := (normal_and_plain_of_parse hp).1
  have hroom : ¬ Full p.binders (written p name) := by
    unfold Full
    omega
  have hfirst : ∀ e, compile p name = .error e → firstOffence p.nodes = some e := by
    intro e he
    rw [← Program.head_refusals hnormal]
    exact (refusal_of_compile he).resolve_right fun h => hroom h.2
  refine ⟨⟨fun ⟨e, he⟩ => ?_, fun ⟨node, hnode, hsome⟩ => ?_⟩, fun e he => ?_, fun n he => ?_⟩
  · obtain ⟨node, hnode, hoffence⟩ := List.exists_of_findSome?_eq_some (hfirst e he)
    exact ⟨node, hnode, Option.isSome_iff_exists.mpr ⟨e, hoffence⟩⟩
  · cases hc : compile p name with
    | error e => exact ⟨e, rfl⟩
    | ok c =>
      have hnone : firstOffence p.nodes = none := by
        rw [← Program.head_refusals hnormal, refusals_of_compile hc]
        rfl
      rw [List.findSome?_eq_none_iff.mp hnone node hnode] at hsome
      cases hsome
  · obtain ⟨before, node, after, hnodes, hoffence, hnone⟩ :=
      List.findSome?_eq_some_iff.mp (hfirst e he)
    exact ⟨before, node, after, hnodes, hoffence, hnone⟩
  · obtain ⟨node, -, hoffence⟩ := List.exists_of_findSome?_eq_some (hfirst _ he)
    exact node.offence?_ne_overflow n hoffence

/-- A method with a function that uses `this`, and a `spawn` of a number. -/
def usesSelf : String := "class C: fun m: fun f: this\n.\n.\n.\nspawn 1"

/-- The program is refused for an error, and not for lack of room. -/
def isRefusedFor (e : CompileError) : Except ParseError Program → Bool
  | .error _ => false
  | .ok p =>
    decide ((written p "main").code.size < 2 ^ 31) &&
    decide ((written p "main").constants.size < 2 ^ 31) &&
    match compile p "main" with
    | .error e' => decide (e' = e)
    | .ok _ => false

/-- The function does not belong to the body of the method, so its `this` is the first expression that
cannot be compiled. -/
theorem compile_eq_error_iff_usesSelf : ∃ p before node after, parse usesSelf = .ok p ∧
    compile p "main" = .error (.selfOutsideMethod ⟨23, 27⟩) ∧ p.nodes = before ++ node :: after ∧
    node.offence? = some (.selfOutsideMethod ⟨23, 27⟩) ∧ ∀ node' ∈ before, node'.offence? = none := by
  have hcheck : isRefusedFor (.selfOutsideMethod ⟨23, 27⟩) (parse usesSelf) = true := by decide +kernel
  cases hp : parse usesSelf with
  | error e =>
    rw [hp] at hcheck
    cases hcheck
  | ok p =>
    rw [hp] at hcheck
    simp only [isRefusedFor, Bool.and_eq_true, decide_eq_true_eq] at hcheck
    obtain ⟨⟨hcode, hconstants⟩, hcheck⟩ := hcheck
    cases hc : compile p "main" with
    | ok c =>
      rw [hc] at hcheck
      cases hcheck
    | error e =>
      rw [hc] at hcheck
      obtain rfl := of_decide_eq_true hcheck
      obtain ⟨before, node, after, hfirst⟩ := (compile_eq_error_iff usesSelf p hp
        (binders_lt_of_parse hp (by decide)) "main" hcode hconstants).2.1 _ hc
      exact ⟨p, before, node, after, rfl, hc, hfirst⟩

end DotScript.Compile
