import DotScript.Proofs.Semantics.Evaluation

/-!
# Declarations and their code

The functions of a program in the order of the text, each with the address at which its code
begins. `stmtDeclared`, `valueDeclared`, ... follow the layout of the code. `Lists` says that a
list of them stands for given declarations, that every function of it has its code there, and that
the functions declared in its body come next in the list.
-/

namespace DotScript.Semantics

open DotScript.Bytecode DotScript.Syntax DotScript.Compile

/-! ## Functions with their addresses -/

/-- A function whose code, with the jump over it, stands at an address. -/
def declaredAt (image : Image) (isMethod : Bool) (a : Nat) (decl : FunctionDecl) : Declared :=
  ⟨⟨decl.name.name, decl.params.length, a + 2, image⟩, isMethod, decl⟩

section
variable (image : Image)

mutual

def stmtDeclared (a : Nat) : Stmt → List Declared
  | .function decl => functionDeclared a false decl
  | .classDecl _ methods _ => methodsDeclared (a + 2) methods
  | .block body => blockDeclared a body
  | .ifElse cond thenBlock elseBlock _ =>
    blockDeclared (a + cond.width + 2) thenBlock ++
      (match elseBlock with
        | some b => blockDeclared (a + cond.width + 2 + thenBlock.width + 2) b
        | none => [])
  | .whileLoop cond body _ => blockDeclared (a + cond.width + 2) body
  | .tryCatch body _ handler _ =>
    blockDeclared (a + 2) body ++ blockDeclared (a + 2 + body.width + 3) handler
  | _ => []

/-- The functions declared by statements from an address on. -/
def stmtsDeclared (a : Nat) : List Stmt → List Declared
  | [] => []
  | s :: ss => stmtDeclared a s ++ stmtsDeclared (a + s.width) ss

def blockDeclared (a : Nat) : Block → List Declared
  | ⟨ss, _⟩ => stmtsDeclared a ss

/-- Methods, with the functions declared in them. -/
def methodsDeclared (a : Nat) : List FunctionDecl → List Declared
  | [] => []
  | m :: ms => functionDeclared a true m ++ methodsDeclared (a + m.width + 4) ms

/-- A function, with those declared in its body. -/
def functionDeclared (a : Nat) (isMethod : Bool) : FunctionDecl → List Declared
  | ⟨name, params, ⟨body, blockSpan⟩, span⟩ =>
    declaredAt image isMethod a ⟨name, params, ⟨body, blockSpan⟩, span⟩ ::
      valueDeclared (a + 2) body

/-- The functions declared by statements of which the last leaves a value. -/
def valueDeclared (a : Nat) : List Stmt → List Declared
  | [] => []
  | [s] =>
    match s with
    | .ifElse cond ⟨thenStmts, _⟩ elseBlock _ =>
      valueDeclared (a + cond.width + 2) thenStmts ++
        (match elseBlock with
          | some ⟨elseStmts, _⟩ =>
            valueDeclared (a + cond.width + 2 + valueWidth thenStmts + 2) elseStmts
          | none => [])
    | s => stmtDeclared a s
  | s :: ss => stmtDeclared a s ++ valueDeclared (a + s.width) ss

end

end

/-! ## Their place in the program -/

/-- The code of a declared function, and where the functions declared in its body are. -/
structure Placed (c : Chunk) (image : Image) (rest : List Declared) (d : Declared) : Prop where
  code : ∃ a, d = declaredAt image d.isMethod a d.decl ∧ FunctionAt c d.isMethod a d.decl ∧
    valueDeclared image (a + 2) d.decl.body.stmts <+: rest

/-- Functions between two addresses, in the order of their addresses, that stand for given
declarations. -/
structure Lists (c : Chunk) (image : Image) (lo hi : Nat) (ds : List Declared)
    (decls : List (Bool × FunctionDecl)) : Prop where
  names : ds.map (fun d => (d.isMethod, d.decl)) = decls
  placed : ∀ k d, ds[k]? = some d → Placed c image (ds.drop (k + 1)) d
  range : ∀ d ∈ ds, lo < d.function.entry ∧ d.function.entry ≤ hi
  ordered : ds.Pairwise (fun d d' => d.function.entry < d'.function.entry)

namespace Lists

variable {c : Chunk} {image : Image} {lo hi lo' hi' : Nat} {ds ds' : List Declared}
  {decls decls' : List (Bool × FunctionDecl)}

theorem length (h : Lists c image lo hi ds decls) : ds.length = decls.length := by
  rw [← h.names, List.length_map]

theorem nil : Lists c image lo hi [] [] where
  names := rfl
  placed := by simp
  range := by simp
  ordered := .nil

theorem widen (h : Lists c image lo hi ds decls) (hlo : lo' ≤ lo) (hhi : hi ≤ hi') :
    Lists c image lo' hi' ds decls where
  names := h.names
  placed := h.placed
  range := fun d hd => by
    have := h.range d hd
    omega
  ordered := h.ordered

theorem append {mid : Nat} (h : Lists c image lo mid ds decls)
    (h' : Lists c image mid hi ds' decls') (hlo : lo ≤ mid) (hhi : mid ≤ hi) :
    Lists c image lo hi (ds ++ ds') (decls ++ decls') where
  names := by rw [List.map_append, h.names, h'.names]
  placed := by
    intro k d hk
    by_cases hlt : k < ds.length
    · rw [List.getElem?_append_left hlt] at hk
      obtain ⟨a, hd, hcode, hrest⟩ := (h.placed k d hk).code
      refine ⟨a, hd, hcode, hrest.trans ?_⟩
      rw [List.drop_append_of_le_length (by omega)]
      exact List.prefix_append ..
    · rw [List.getElem?_append_right (by omega)] at hk
      have hdrop : (ds ++ ds').drop (k + 1) = ds'.drop (k - ds.length + 1) := by
        rw [List.drop_append, List.drop_of_length_le (by omega), List.nil_append]
        congr 1
        omega
      rw [hdrop]
      exact h'.placed _ d hk
  range := by
    intro d hd
    rcases List.mem_append.mp hd with hd | hd
    · have := h.range d hd
      omega
    · have := h'.range d hd
      omega
  ordered := by
    refine List.pairwise_append.mpr ⟨h.ordered, h'.ordered, fun d hd d' hd' => ?_⟩
    have := h.range d hd
    have := h'.range d' hd'
    omega

theorem cons {a : Nat} {isMethod : Bool} {decl : FunctionDecl} (hcode : FunctionAt c isMethod a decl)
    (h : Lists c image (a + 2) hi (valueDeclared image (a + 2) decl.body.stmts) decls)
    (hhi : a + 2 ≤ hi) :
    Lists c image a hi
      (declaredAt image isMethod a decl :: valueDeclared image (a + 2) decl.body.stmts)
      ((isMethod, decl) :: decls) where
  names := by rw [List.map_cons, h.names]; rfl
  placed := by
    intro k d hk
    cases k with
    | zero =>
      cases hk
      exact ⟨a, rfl, hcode, List.prefix_refl _⟩
    | succ k => exact h.placed k d hk
  range := by
    intro d hd
    rcases List.mem_cons.mp hd with rfl | hd
    · exact ⟨Nat.lt_add_of_pos_right Nat.two_pos, hhi⟩
    · have := h.range d hd
      omega
  ordered := by
    exact List.pairwise_cons.mpr ⟨fun d hd => (h.range d hd).1, h.ordered⟩

end Lists

/-! ## The functions of a program -/

/-- A body that ends in a `return` declares the same functions whether it leaves a value or not. -/
theorem valueDeclared_of_endsInReturn {image : Image} {body : List Stmt} (a : Nat)
    (h : endsInReturn body) : valueDeclared image a body = stmtsDeclared image a body := by
  induction body generalizing a with
  | nil => cases h
  | cons s ss ih =>
    cases ss with
    | nil =>
      cases s with
      | ret value span => rfl
      | _ => cases h
    | cons s' ss' =>
      have hends : endsInReturn (s' :: ss') := by
        cases s <;> exact h
      change stmtDeclared image a s ++ valueDeclared image (a + s.width) (s' :: ss') = _
      rw [ih _ hends]
      rfl

section
variable {c : Chunk} {image : Image}

mutual

theorem stmt_lists : (s : Stmt) → {ns : List String} → {a : Nat} → StmtAt c ns a s →
    Lists c image a (a + s.width) (stmtDeclared image a s) s.declarations
  | .function decl, ns, a, h => by
    simp only [StmtAt] at h
    simp only [stmtDeclared, Stmt.declarations, Stmt.width]
    exact (function_lists false decl h.1).widen (Nat.le_refl _) (by omega)
  | .classDecl _ methods _, ns, a, h => by
    simp only [StmtAt] at h
    simp only [stmtDeclared, Stmt.declarations, Stmt.width]
    exact (methods_lists methods h.2.1).widen (by omega) (by omega)
  | .block body, ns, a, h => by
    simp only [StmtAt] at h
    simp only [stmtDeclared, Stmt.declarations, Stmt.width]
    exact block_lists body h
  | .ifElse cond thenBlock none _, ns, a, h => by
    simp only [StmtAt] at h
    simp only [stmtDeclared, Stmt.declarations, Stmt.width, List.append_nil]
    exact (block_lists thenBlock h.2.2.1).widen (by omega) (by omega)
  | .ifElse cond thenBlock (some b) _, ns, a, h => by
    simp only [StmtAt] at h
    obtain ⟨-, -, hthen, helse⟩ := h
    simp only [stmtDeclared, Stmt.declarations, Stmt.width]
    have hfirst := (block_lists thenBlock hthen).widen (Nat.le_refl _) (Nat.le_add_right _ 2)
    exact (hfirst.append (block_lists b helse) (by omega) (by omega)).widen (by omega) (by omega)
  | .whileLoop cond body _, ns, a, h => by
    simp only [StmtAt] at h
    simp only [stmtDeclared, Stmt.declarations, Stmt.width]
    exact (block_lists body h.2.2).widen (by omega) (by omega)
  | .tryCatch body _ handler _, ns, a, h => by
    simp only [StmtAt] at h
    obtain ⟨-, hbody, hhandler⟩ := h
    simp only [stmtDeclared, Stmt.declarations, Stmt.width]
    have hfirst := (block_lists body hbody).widen (Nat.le_refl _) (Nat.le_add_right _ 3)
    exact (hfirst.append (block_lists handler hhandler) (by omega) (by omega)).widen
      (by omega) (by omega)
  | .expr _, ns, a, h => .nil
  | .print _ _, ns, a, h => .nil
  | .ret _ _, ns, a, h => .nil
  | .importUnit _ _, ns, a, h => .nil

theorem stmts_lists : (ss : List Stmt) → {ns : List String} → {a : Nat} → StmtsAt c ns a ss →
    Lists c image a (a + stmtsWidth ss) (stmtsDeclared image a ss) (stmtDeclarations ss)
  | [], ns, a, h => .nil
  | s :: ss, ns, a, h => by
    simp only [StmtsAt] at h
    simp only [stmtsDeclared, stmtDeclarations, stmtsWidth, ← Nat.add_assoc]
    exact (stmt_lists s h.1).append (stmts_lists ss h.2) (by omega) (by omega)

theorem block_lists : (b : Block) → {ns : List String} → {a : Nat} → BlockAt c ns a b →
    Lists c image a (a + b.width) (blockDeclared image a b) b.declarations
  | ⟨ss, _⟩, ns, a, h => by
    simp only [BlockAt] at h
    simp only [blockDeclared, Block.declarations, Block.width]
    exact stmts_lists ss h

theorem methods_lists : (ms : List FunctionDecl) → {a : Nat} → MethodsAt c a ms →
    Lists c image a (a + methodsWidth ms) (methodsDeclared image a ms) (methodDeclarations ms)
  | [], a, h => .nil
  | m :: ms, a, h => by
    simp only [MethodsAt] at h
    simp only [methodsDeclared, methodDeclarations, methodsWidth, ← Nat.add_assoc]
    exact ((function_lists true m h.1).widen (Nat.le_refl _) (by omega)).append
      (methods_lists ms h.2.2.2) (by omega) (by omega)

theorem function_lists (isMethod : Bool) : (decl : FunctionDecl) → {a : Nat} →
    FunctionAt c isMethod a decl →
    Lists c image a (a + decl.width) (functionDeclared image a isMethod decl)
      (decl.declarations isMethod)
  | ⟨name, params, ⟨body, blockSpan⟩, span⟩, a, h => by
    have hcode := h
    simp only [FunctionAt] at h
    simp only [functionDeclared, FunctionDecl.declarations, FunctionDecl.width, ← Nat.add_assoc]
    refine Lists.cons hcode ?_ (by omega)
    by_cases hends : endsInReturn body
    · simp only [hends, if_true] at h ⊢
      rw [valueDeclared_of_endsInReturn _ hends]
      exact stmts_lists body h.2
    · simp only [hends, if_false, Bool.false_eq_true] at h ⊢
      exact (value_lists body h.2.1).widen (Nat.le_refl _) (by omega)

theorem value_lists : (ss : List Stmt) → {ns : List String} → {a : Nat} → ValueAt c ns a ss →
    Lists c image a (a + valueWidth ss) (valueDeclared image a ss) (stmtDeclarations ss)
  | [], ns, a, h => .nil
  | [s], ns, a, h => by
    have hplain : StmtAt c ns a s → valueDeclared image a [s] = stmtDeclared image a s →
        a + s.width ≤ a + valueWidth [s] →
        Lists c image a (a + valueWidth [s]) (valueDeclared image a [s]) (stmtDeclarations [s]) := by
      intro hs heq hle
      rw [heq]
      simp only [stmtDeclarations, List.append_nil]
      exact (stmt_lists s hs).widen (Nat.le_refl _) hle
    match s, h with
    | .expr e, h => exact .nil
    | .ifElse cond ⟨thenStmts, _⟩ none _, h =>
      simp only [stmtDeclarations, Stmt.declarations, Block.declarations, List.append_nil]
      change Lists c image a _ (valueDeclared image (a + cond.width + 2) thenStmts ++ []) _
      rw [add_valueWidth_ifThen, List.append_nil]
      exact (value_lists thenStmts h.2.2.1).widen (by omega) (by omega)
    | .ifElse cond ⟨thenStmts, _⟩ (some ⟨elseStmts, _⟩) _, h =>
      simp only [stmtDeclarations, Stmt.declarations, Block.declarations, List.append_nil]
      change Lists c image a _ (valueDeclared image (a + cond.width + 2) thenStmts ++
        valueDeclared image (a + cond.width + 2 + valueWidth thenStmts + 2) elseStmts) _
      rw [add_valueWidth_ifElse]
      have hfirst := (value_lists thenStmts h.2.2.1).widen (Nat.le_refl _) (Nat.le_add_right _ 2)
      exact (hfirst.append (value_lists elseStmts h.2.2.2) (by omega) (by omega)).widen
        (by omega) (by omega)
    | .print _ _, h | .function _, h | .classDecl _ _ _, h | .block _, h
    | .whileLoop _ _ _, h | .ret _ _, h | .importUnit _ _, h | .tryCatch _ _ _ _, h =>
      exact hplain h.1 rfl (Nat.add_le_add_left (Nat.le_add_right _ 2) a)
  | s :: s' :: ss, ns, a, h => by
    rw [add_valueWidth_cons]
    change Lists c image a _
      (stmtDeclared image a s ++ valueDeclared image (a + s.width) (s' :: ss))
      (s.declarations ++ stmtDeclarations (s' :: ss))
    exact (stmt_lists s h.1).append (value_lists (s' :: ss) h.2) (by omega) (by omega)

end

end

/-! ## Numbers -/

section
variable {Γ : Context} {k : Nat}

/-- The functions of a piece of the program are numbered from `k` on. -/
def Numbered (Γ : Context) (k : Nat) (ds : List Declared) : Prop := ds <+: Γ.declared.drop k

theorem Numbered.append {ds ds' : List Declared} {m : Nat} (h : Numbered Γ k (ds ++ ds'))
    (hm : ds.length = m) : Numbered Γ k ds ∧ Numbered Γ (k + m) ds' := by
  subst hm
  obtain ⟨rest, hrest⟩ := h
  refine ⟨⟨ds' ++ rest, by rw [← List.append_assoc, hrest]⟩, ⟨rest, ?_⟩⟩
  rw [← List.drop_drop, ← hrest, List.append_assoc, List.drop_left]

theorem Numbered.head {d : Declared} {ds : List Declared} (h : Numbered Γ k (d :: ds)) :
    Γ.declared[k]? = some d := by
  obtain ⟨rest, hrest⟩ := h
  rw [← List.head?_drop, ← hrest]
  rfl

/-- Every function of the program has its code. -/
def AllPlaced (Γ : Context) (image : Image) : Prop :=
  ∀ k d, Γ.declared[k]? = some d → Placed image.chunk image (Γ.declared.drop (k + 1)) d

theorem find?_eq_some {f : Function} {isMethod : Bool} {d : Declared} {k : Nat}
    (h : Γ.find? f isMethod = some (d, k)) :
    Γ.declared[k]? = some d ∧ d.function = f ∧ d.isMethod = isMethod := by
  have hmem := List.mem_of_find?_eq_some h
  have hprop := List.find?_some h
  simp only [decide_eq_true_eq] at hprop
  rw [List.mem_zipIdx_iff_getElem?] at hmem
  exact ⟨hmem, hprop⟩

theorem find?_ne_none {d : Declared} (hd : d ∈ Γ.declared) :
    Γ.find? d.function d.isMethod ≠ none := by
  obtain ⟨k, hk⟩ := List.mem_iff_getElem?.mp hd
  intro hnone
  have hall := List.find?_eq_none.mp hnone (d, k) (List.mem_zipIdx_iff_getElem?.mpr hk)
  simp at hall

end

end DotScript.Semantics
