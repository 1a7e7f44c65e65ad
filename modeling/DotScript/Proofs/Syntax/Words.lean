import DotScript.Proofs.Syntax.Rendering

/-!
# The tokens of normal programs

All of them can be read, the first begins an expression or a statement, the last is no property dot,
and they do not depend on spans.
-/

namespace DotScript.Syntax

/-! ## Lists with commas -/

section
variable {α : Type}

/-- The tokens of some items with commas between them. -/
def joined (words : α → List TokenKind) : List α → List TokenKind
  | [] => []
  | x :: xs => words x ++ xs.flatMap fun y => .symbol .comma :: words y

/-- The tokens of an entry of a map. -/
def entryWords (parens : Bool) (entry : Expr × Expr) : List TokenKind :=
  parenthesised (parens && entry.1.isVar) (entry.1.words parens) ++
    .symbol .colon :: entry.2.words parens

def Ident.words (id : Ident) : List TokenKind := [.ident id.name]

theorem exprsWords_eq (parens : Bool) (es : List Expr) :
    exprsWords parens es = joined (Expr.words parens) es := by
  have hmore : ∀ es, moreExprsWords parens es =
      es.flatMap fun e => .symbol .comma :: e.words parens := by
    intro es
    induction es with
    | nil => rw [moreExprsWords, List.flatMap_nil]
    | cons e es ih => rw [moreExprsWords, List.flatMap_cons, ih]
  cases es with
  | nil => rw [exprsWords, joined]
  | cons e es => rw [exprsWords, joined, hmore]

theorem entriesWords_eq (parens : Bool) (entries : List (Expr × Expr)) :
    entriesWords parens entries = joined (entryWords parens) entries := by
  have hmore : ∀ es, moreEntriesWords parens es =
      es.flatMap fun e => .symbol .comma :: entryWords parens e := by
    intro es
    induction es with
    | nil => rw [moreEntriesWords, List.flatMap_nil]
    | cons e es ih =>
      rw [moreEntriesWords, List.flatMap_cons, ih, entryWords]
      simp only [List.cons_append, List.append_assoc]
  cases entries with
  | nil => rw [entriesWords, joined]
  | cons e es => rw [entriesWords, joined, hmore, entryWords]

theorem namesWords_eq (ids : List Ident) : namesWords ids = joined Ident.words ids := by
  have hmore : ∀ ids, moreNamesWords ids = ids.flatMap fun id => .symbol .comma :: id.words := by
    intro ids
    induction ids with
    | nil => rfl
    | cons id ids ih =>
      rw [moreNamesWords, List.flatMap_cons, ih]
      rfl
  cases ids with
  | nil => rfl
  | cons id ids =>
    rw [namesWords, joined, hmore]
    rfl

theorem mem_joined {words : α → List TokenKind} {xs : List α} {k : TokenKind}
    (h : k ∈ joined words xs) : k = .symbol .comma ∨ ∃ x ∈ xs, k ∈ words x := by
  cases xs with
  | nil => exact absurd h List.not_mem_nil
  | cons x xs =>
    rcases List.mem_append.1 h with h | h
    · exact .inr ⟨x, List.mem_cons_self, h⟩
    · obtain ⟨y, hy, hk⟩ := List.mem_flatMap.1 h
      rcases List.mem_cons.1 hk with rfl | hk
      · exact .inl rfl
      · exact .inr ⟨y, List.mem_cons_of_mem _ hy, hk⟩

theorem mem_parenthesised {wanted : Bool} {ws : List TokenKind} {k : TokenKind}
    (h : k ∈ parenthesised wanted ws) : k = .symbol .lParen ∨ k = .symbol .rParen ∨ k ∈ ws := by
  unfold parenthesised at h
  split at h
  · simp only [List.cons_append, List.mem_cons, List.mem_append, List.not_mem_nil, or_false] at h
    rcases h with h | h | h
    · exact .inl h
    · exact .inr (.inr h)
    · exact .inr (.inl h)
  · exact .inr (.inr h)

theorem exprsErased_eq (es : List Expr) : exprsErased es = es.map Expr.erased := by
  induction es with
  | nil => rw [exprsErased, List.map_nil]
  | cons e es ih => rw [exprsErased, List.map_cons, ih]

theorem entriesErased_eq (es : List (Expr × Expr)) :
    entriesErased es = es.map fun entry => (entry.1.erased, entry.2.erased) := by
  induction es with
  | nil => rw [entriesErased, List.map_nil]
  | cons e es ih => rw [entriesErased, List.map_cons, ih]

end

/-! ## Statements from left to right -/

section
variable (parens : Bool) {span span' : Text.Span}

/-- The tokens of the second arm of an `if`. -/
def elseWords : Option Block → List TokenKind
  | some b => .keyword .kwElse :: .symbol .colon :: b.words parens
  | none => []

theorem Expr.words_set (object value : Expr) (name : Ident) :
    (Expr.set object name value span).words parens =
      (Expr.get object name span').words parens ++ .symbol .assign :: value.words parens := by
  simp only [Expr.words, List.append_assoc, List.cons_append, List.nil_append]

theorem Stmt.words_classDecl (name : Ident) (ms : List FunctionDecl) :
    (Stmt.classDecl name ms span).words parens = .keyword .kwClass :: .ident name.name ::
      .symbol .colon :: (methodsWords parens ms ++ [.symbol .blockDot]) := rfl

theorem Stmt.words_ifElse (cond : Expr) (thenBlock : Block) (elseBlock : Option Block) :
    (Stmt.ifElse cond thenBlock elseBlock span).words parens = .keyword .kwIf ::
      (cond.words parens ++ .symbol .colon ::
        (thenBlock.words parens ++ (elseWords parens elseBlock ++ [.symbol .blockDot]))) := by
  cases elseBlock <;> simp only [Stmt.words, elseWords, List.cons_append, List.append_assoc]

theorem Stmt.words_whileLoop (cond : Expr) (body : Block) :
    (Stmt.whileLoop cond body span).words parens = .keyword .kwWhile ::
      (cond.words parens ++ .symbol .colon :: (body.words parens ++ [.symbol .blockDot])) := by
  simp only [Stmt.words, List.cons_append, List.append_assoc]

theorem Stmt.words_tryCatch (body handler : Block) (errorVar : Ident) :
    (Stmt.tryCatch body errorVar handler span).words parens = .keyword .kwTry ::
      .symbol .colon :: (body.words parens ++ .keyword .kwCatch :: .ident errorVar.name ::
        .symbol .colon :: (handler.words parens ++ [.symbol .blockDot])) := by
  simp only [Stmt.words, List.cons_append, List.append_assoc]

theorem FunctionDecl.words_eq (name : Ident) (params : List Ident) (body : Block) :
    (FunctionDecl.mk name params body span).words parens = .keyword .kwFun :: .ident name.name ::
      (namesWords params ++ .symbol .colon :: (body.words parens ++ [.symbol .blockDot])) := by
  simp only [FunctionDecl.words, List.cons_append, List.append_assoc]

end

/-! ## Spans do not matter -/

section
variable (parens : Bool)

theorem Ident.name_erased (id : Ident) : id.erased.name = id.name := rfl

theorem Expr.level_erased (e : Expr) : e.erased.level = e.level := by
  cases e <;> rfl

theorem Expr.isVar_erased (e : Expr) : e.erased.isVar = e.isVar := by
  cases e <;> rfl

mutual

theorem Expr.words_erased : (e : Expr) → e.erased.words parens = e.words parens
  | .var id | .null _ | .bool b _ | .number n _ | .str s _ | .self _ => rfl
  | .assign target value _ => by
    simp only [Expr.erased, Expr.words, Expr.level_erased, Expr.words_erased target,
      Expr.words_erased value]
  | .set object name value _ => by
    simp only [Expr.erased, Expr.words, Expr.level_erased, Ident.name_erased,
      Expr.words_erased object, Expr.words_erased value]
  | .get object name _ => by
    simp only [Expr.erased, Expr.words, Expr.level_erased, Ident.name_erased,
      Expr.words_erased object]
  | .binary op left right _ => by
    simp only [Expr.erased, Expr.words, Expr.level_erased, Expr.words_erased left,
      Expr.words_erased right]
  | .unary op operand _ => by
    simp only [Expr.erased, Expr.words, Expr.level_erased, Expr.words_erased operand]
  | .call callee args _ => by
    simp only [Expr.erased, Expr.words, Expr.level_erased, Expr.words_erased callee,
      exprsWords_erased args]
  | .list elems _ => by simp only [Expr.erased, Expr.words, exprsWords_erased elems]
  | .map entries _ => by simp only [Expr.erased, Expr.words, entriesWords_erased entries]
  | .spawn call _ => by simp only [Expr.erased, Expr.words, Expr.words_erased call]

theorem exprsWords_erased : (es : List Expr) →
    exprsWords parens (exprsErased es) = exprsWords parens es
  | [] => rfl
  | e :: es => by
    simp only [exprsErased, exprsWords, Expr.words_erased e, moreExprsWords_erased es]

theorem moreExprsWords_erased : (es : List Expr) →
    moreExprsWords parens (exprsErased es) = moreExprsWords parens es
  | [] => rfl
  | e :: es => by
    simp only [exprsErased, moreExprsWords, Expr.words_erased e, moreExprsWords_erased es]

theorem entriesWords_erased : (es : List (Expr × Expr)) →
    entriesWords parens (entriesErased es) = entriesWords parens es
  | [] => rfl
  | (key, value) :: es => by
    simp only [entriesErased, entriesWords, Expr.isVar_erased, Expr.words_erased key,
      Expr.words_erased value, moreEntriesWords_erased es]

theorem moreEntriesWords_erased : (es : List (Expr × Expr)) →
    moreEntriesWords parens (entriesErased es) = moreEntriesWords parens es
  | [] => rfl
  | (key, value) :: es => by
    simp only [entriesErased, moreEntriesWords, Expr.isVar_erased, Expr.words_erased key,
      Expr.words_erased value, moreEntriesWords_erased es]

end

theorem namesWords_erased (ids : List Ident) : namesWords (ids.map Ident.erased) = namesWords ids := by
  rw [namesWords_eq, namesWords_eq]
  cases ids with
  | nil => rfl
  | cons id ids =>
    rw [List.map_cons, joined, joined, List.flatMap_map]
    rfl

mutual

theorem Stmt.words_erased : (s : Stmt) → s.erased.words parens = s.words parens
  | .expr e => by simp only [Stmt.erased, Stmt.words, Expr.words_erased]
  | .print value _ => by simp only [Stmt.erased, Stmt.words, Expr.words_erased]
  | .function decl => by simp only [Stmt.erased, Stmt.words, FunctionDecl.words_erased decl]
  | .classDecl name methods _ => by
    simp only [Stmt.erased, Stmt.words, Ident.name_erased, methodsWords_erased methods]
  | .block body => by simp only [Stmt.erased, Stmt.words, Block.words_erased body]
  | .ifElse cond thenBlock none _ => by
    simp only [Stmt.erased, Stmt.words, Expr.words_erased, Block.words_erased thenBlock]
  | .ifElse cond thenBlock (some elseBlock) _ => by
    simp only [Stmt.erased, Stmt.words, Expr.words_erased, Block.words_erased thenBlock,
      Block.words_erased elseBlock]
  | .whileLoop cond body _ => by
    simp only [Stmt.erased, Stmt.words, Expr.words_erased, Block.words_erased body]
  | .ret none _ => rfl
  | .ret (some value) _ => by simp only [Stmt.erased, Stmt.words, Expr.words_erased]
  | .importUnit path _ => by simp only [Stmt.erased, Stmt.words, Expr.words_erased]
  | .tryCatch body errorVar handler _ => by
    simp only [Stmt.erased, Stmt.words, Ident.name_erased, Block.words_erased body,
      Block.words_erased handler]

theorem stmtsWords_erased : (ss : List Stmt) →
    stmtsWords parens (stmtsErased ss) = stmtsWords parens ss
  | [] => rfl
  | s :: ss => by simp only [stmtsErased, stmtsWords, Stmt.words_erased s, stmtsWords_erased ss]

theorem methodsWords_erased : (ms : List FunctionDecl) →
    methodsWords parens (methodsErased ms) = methodsWords parens ms
  | [] => rfl
  | m :: ms => by
    simp only [methodsErased, methodsWords, FunctionDecl.words_erased m, methodsWords_erased ms]

theorem Block.words_erased : (b : Block) → b.erased.words parens = b.words parens
  | ⟨ss, _⟩ => by simp only [Block.erased, Block.words, stmtsWords_erased ss]

theorem FunctionDecl.words_erased : (decl : FunctionDecl) →
    decl.erased.words parens = decl.words parens
  | ⟨name, params, body, _⟩ => by
    simp only [FunctionDecl.erased, FunctionDecl.words, Ident.name_erased, namesWords_erased,
      Block.words_erased body]

end

theorem Program.words_erased (p : Program) : p.erased.words parens = p.words parens :=
  stmtsWords_erased parens p.stmts

end

/-! ## The first token -/

/-- Whether an expression can begin with a token. -/
def beginsExpr : TokenKind → Bool
  | .ident _ | .number _ | .str _ => true
  | .keyword k => k == .kwNull || k == .kwTrue || k == .kwFalse || k == .kwThis
  | .symbol s => s == .lParen || s == .lBracket || s == .lBrace || s == .minus || s == .bang
  | _ => false

/-- Tokens of which the first begins an expression. -/
def BeginsExpr (ws : List TokenKind) : Prop := ∃ k ks, ws = k :: ks ∧ beginsExpr k = true

theorem BeginsExpr.append {ws : List TokenKind} (h : BeginsExpr ws) (vs : List TokenKind) :
    BeginsExpr (ws ++ vs) := by
  obtain ⟨k, ks, rfl, hk⟩ := h
  exact ⟨k, ks ++ vs, rfl, hk⟩

theorem BeginsExpr.parenthesised {ws : List TokenKind} (h : BeginsExpr ws) (wanted : Bool) :
    BeginsExpr (parenthesised wanted ws) := by
  unfold Syntax.parenthesised
  split
  · exact ⟨_, _, rfl, rfl⟩
  · exact h

theorem Expr.beginsExpr_words (parens : Bool) : (e : Expr) → e.normal = true →
    BeginsExpr (e.words parens)
  | .var id, _ | .null _, _ | .number n _, _ | .str s _, _ | .self _, _ => ⟨_, _, rfl, rfl⟩
  | .bool b _, _ => ⟨_, _, rfl, by cases b <;> rfl⟩
  | .list elems _, _ | .map entries _, _ => ⟨_, _, rfl, rfl⟩
  | .unary op _ _, _ => ⟨_, _, rfl, by cases op <;> rfl⟩
  | .assign target value _, h => by
    simp only [Expr.normal, Bool.and_eq_true] at h
    exact ((beginsExpr_words parens target h.1.2).parenthesised _).append _
  | .set object name value _, h => by
    simp only [Expr.normal, Bool.and_eq_true] at h
    exact ((beginsExpr_words parens object h.1.1).parenthesised _).append _
  | .get object name _, h => by
    simp only [Expr.normal, Bool.and_eq_true] at h
    exact ((beginsExpr_words parens object h.1).parenthesised _).append _
  | .binary op left right _, h => by
    simp only [Expr.normal, Bool.and_eq_true] at h
    exact ((beginsExpr_words parens left h.1).parenthesised _).append _
  | .call callee args _, h => by
    simp only [Expr.normal, Bool.and_eq_true] at h
    exact ((beginsExpr_words parens callee h.1).parenthesised _).append _
  | .spawn _ _, h => absurd h Bool.false_ne_true

/-- Whether a statement can begin with a token. -/
def beginsStmt : TokenKind → Bool
  | .keyword k => k != .kwElse && k != .kwCatch && k != .kwFor && k != .kwIn
  | k => beginsExpr k

theorem beginsStmt_of_beginsExpr {k : TokenKind} (h : beginsExpr k = true) :
    beginsStmt k = true := by
  cases k with
  | keyword k => cases k <;> first | rfl | exact absurd h (by decide)
  | _ => exact h

/-- A statement is an expression or begins with a reserved word. -/
theorem Stmt.expr_or_keyword (parens : Bool) {s : Stmt} (h : s.normal = true) :
    (∃ e, s = .expr e ∧ e.normal = true) ∨
      ∃ k ks, s.words parens = .keyword k :: ks ∧ beginsStmt (.keyword k) = true := by
  cases s with
  | expr e =>
    cases e with
    | spawn call span => exact .inr ⟨_, _, rfl, rfl⟩
    | _ => exact .inl ⟨_, rfl, h⟩
  | block body => exact absurd h Bool.false_ne_true
  | function decl =>
    cases decl
    exact .inr ⟨_, _, rfl, rfl⟩
  | ret value span => cases value <;> exact .inr ⟨_, _, rfl, rfl⟩
  | ifElse cond thenBlock elseBlock => cases elseBlock <;> exact .inr ⟨_, _, rfl, rfl⟩
  | print | classDecl | whileLoop | importUnit | tryCatch => exact .inr ⟨_, _, rfl, rfl⟩

theorem Stmt.beginsStmt_words (parens : Bool) {s : Stmt} (h : s.normal = true) :
    ∃ k ks, s.words parens = k :: ks ∧ beginsStmt k = true := by
  rcases Stmt.expr_or_keyword parens h with ⟨e, rfl, he⟩ | ⟨k, ks, hwords, hk⟩
  · obtain ⟨k, ks, hwords, hk⟩ := e.beginsExpr_words parens he
    exact ⟨k, ks, hwords, beginsStmt_of_beginsExpr hk⟩
  · exact ⟨_, ks, hwords, hk⟩

/-- A name that begins the tokens of a key is no bare name: no colon follows it. -/
def NoBareName (ws : List TokenKind) : Prop :=
  ∀ name rest, ws = .ident name :: rest → ∃ k ks, rest = k :: ks ∧ k ≠ .symbol .colon

theorem noBareName_append {left vs : List TokenKind} {s : Symbol}
    (hleft : NoBareName left ∨ ∃ name, left = [.ident name]) (hs : s ≠ .colon) :
    NoBareName (left ++ .symbol s :: vs) := by
  have hne : TokenKind.symbol s ≠ .symbol .colon := fun h => hs (TokenKind.symbol.inj h)
  intro name rest h
  rcases hleft with hleft | ⟨name', rfl⟩
  · cases left with
    | nil => exact TokenKind.noConfusion (List.cons.inj h).1
    | cons k left =>
      obtain ⟨rfl, rfl⟩ := List.cons.inj h
      obtain ⟨k', ks, rfl, hk'⟩ := hleft name left rfl
      exact ⟨k', ks ++ .symbol s :: vs, rfl, hk'⟩
  · obtain ⟨-, rfl⟩ := List.cons.inj h
    exact ⟨_, vs, rfl, hne⟩

theorem noBareName_cons {k : TokenKind} {ks : List TokenKind} (h : ∀ name, k ≠ .ident name) :
    NoBareName (k :: ks) := fun name _ heq => absurd (List.cons.inj heq).1 (h name)

theorem noBareName_parenthesised {wanted : Bool} {ws : List TokenKind}
    (h : NoBareName ws ∨ ∃ name, ws = [.ident name]) :
    NoBareName (parenthesised wanted ws) ∨ ∃ name, parenthesised wanted ws = [.ident name] := by
  unfold parenthesised
  split
  · exact .inl (noBareName_cons fun _ => TokenKind.noConfusion)
  · exact h

/-- Only a variable is a single name. -/
theorem Expr.noBareName_words : (e : Expr) →
    NoBareName (e.words true) ∨ ∃ name, e.words true = [.ident name] ∧ e.isVar = true
  | .var id => .inr ⟨id.name, rfl, rfl⟩
  | .null _ | .bool _ _ | .number _ _ | .str _ _ | .self _ | .list _ _ | .map _ _ | .unary _ _ _
  | .spawn _ _ => .inl (noBareName_cons fun _ => TokenKind.noConfusion)
  | .assign target _ _ =>
    .inl (noBareName_append (noBareName_parenthesised (left target)) (by decide))
  | .set object _ _ _ | .get object _ _ =>
    .inl (noBareName_append (noBareName_parenthesised (left object)) (by decide))
  | .binary op l _ _ =>
    .inl (noBareName_append (noBareName_parenthesised (left l)) (by cases op <;> decide))
  | .call callee _ _ =>
    .inl (noBareName_append (noBareName_parenthesised (left callee)) (by decide))
where
  left (e : Expr) : NoBareName (e.words true) ∨ ∃ name, e.words true = [.ident name] :=
    (Expr.noBareName_words e).imp_right fun ⟨name, h, _⟩ => ⟨name, h⟩

/-! ## All tokens can be read -/

/-- Tokens of which each can be read. -/
def AllLexable (ws : List TokenKind) : Prop := ∀ k ∈ ws, k.lexable = true

namespace AllLexable

variable {ws vs : List TokenKind}

theorem nil : AllLexable [] := fun _ h => absurd h List.not_mem_nil

theorem cons {k : TokenKind} (hk : k.lexable = true) (h : AllLexable ws) : AllLexable (k :: ws) := by
  intro k' hk'
  rcases List.mem_cons.1 hk' with rfl | hk'
  · exact hk
  · exact h k' hk'

theorem append (h : AllLexable ws) (h' : AllLexable vs) : AllLexable (ws ++ vs) := by
  intro k hk
  rcases List.mem_append.1 hk with hk | hk
  · exact h k hk
  · exact h' k hk

theorem parenthesised (h : AllLexable ws) (wanted : Bool) :
    AllLexable (parenthesised wanted ws) := by
  intro k hk
  rcases mem_parenthesised hk with rfl | rfl | hk
  · rfl
  · rfl
  · exact h k hk

end AllLexable

section
variable (parens : Bool)

mutual

theorem Expr.lexable_words : (e : Expr) → e.normal = true → AllLexable (e.words parens)
  | .var id, h => .cons h .nil
  | .null _, _ | .str _ _, _ | .self _, _ => .cons rfl .nil
  | .bool b _, _ => .cons (by cases b <;> rfl) .nil
  | .number n _, h => .cons h .nil
  | .assign target value _, h => by
    simp only [Expr.normal, Bool.and_eq_true] at h
    exact ((Expr.lexable_words target h.1.2).parenthesised _).append
      (.cons rfl (Expr.lexable_words value h.2))
  | .set object name value _, h => by
    simp only [Expr.normal, Bool.and_eq_true] at h
    exact ((Expr.lexable_words object h.1.1).parenthesised _).append
      (.cons rfl (.cons h.1.2 (.cons rfl (Expr.lexable_words value h.2))))
  | .get object name _, h => by
    simp only [Expr.normal, Bool.and_eq_true] at h
    exact ((Expr.lexable_words object h.1).parenthesised _).append (.cons rfl (.cons h.2 .nil))
  | .binary op left right _, h => by
    simp only [Expr.normal, Bool.and_eq_true] at h
    exact ((Expr.lexable_words left h.1).parenthesised _).append
      (.cons rfl ((Expr.lexable_words right h.2).parenthesised _))
  | .unary op operand _, h => .cons rfl ((Expr.lexable_words operand h).parenthesised _)
  | .call callee args _, h => by
    simp only [Expr.normal, Bool.and_eq_true] at h
    exact ((Expr.lexable_words callee h.1).parenthesised _).append
      ((lexable_exprsWords args h.2).parenthesised _)
  | .list elems _, h => .cons rfl ((lexable_exprsWords elems h).append (.cons rfl .nil))
  | .map entries _, h => .cons rfl ((lexable_entriesWords entries h).append (.cons rfl .nil))
  | .spawn _ _, h => absurd h Bool.false_ne_true

theorem lexable_exprsWords : (es : List Expr) → exprsNormal es = true →
    AllLexable (exprsWords parens es)
  | [], _ => .nil
  | e :: es, h => by
    simp only [exprsNormal, Bool.and_eq_true] at h
    exact (Expr.lexable_words e h.1).append (lexable_moreExprsWords es h.2)

theorem lexable_moreExprsWords : (es : List Expr) → exprsNormal es = true →
    AllLexable (moreExprsWords parens es)
  | [], _ => .nil
  | e :: es, h => by
    simp only [exprsNormal, Bool.and_eq_true] at h
    exact .cons rfl ((Expr.lexable_words e h.1).append (lexable_moreExprsWords es h.2))

theorem lexable_entriesWords : (es : List (Expr × Expr)) → entriesNormal es = true →
    AllLexable (entriesWords parens es)
  | [], _ => .nil
  | (key, value) :: es, h => by
    simp only [entriesNormal, Bool.and_eq_true] at h
    exact (((Expr.lexable_words key h.1.1).parenthesised _).append
      (.cons rfl (Expr.lexable_words value h.1.2))).append (lexable_moreEntriesWords es h.2)

theorem lexable_moreEntriesWords : (es : List (Expr × Expr)) → entriesNormal es = true →
    AllLexable (moreEntriesWords parens es)
  | [], _ => .nil
  | (key, value) :: es, h => by
    simp only [entriesNormal, Bool.and_eq_true] at h
    exact .append (.append (.cons rfl ((Expr.lexable_words key h.1.1).parenthesised _))
      (.cons rfl (Expr.lexable_words value h.1.2))) (lexable_moreEntriesWords es h.2)

end

theorem lexable_namesWords {ids : List Ident} (h : ids.all Ident.normal = true) :
    AllLexable (namesWords ids) := by
  rw [namesWords_eq]
  intro k hk
  rcases mem_joined hk with rfl | ⟨id, hid, hk⟩
  · rfl
  · obtain rfl := List.mem_singleton.1 hk
    exact List.all_eq_true.1 h id hid

mutual

theorem Stmt.lexable_words : (s : Stmt) → s.normal = true → AllLexable (s.words parens)
  | .expr e, h => by
    cases e with
    | spawn call span => exact .cons rfl (Expr.lexable_words parens call h)
    | _ => exact Expr.lexable_words parens _ h
  | .print value _, h => .cons rfl (Expr.lexable_words parens value h)
  | .function decl, h => FunctionDecl.lexable_words decl h
  | .classDecl name methods _, h => by
    simp only [Stmt.normal, Bool.and_eq_true] at h
    exact .append (.cons rfl (.cons h.1 (.cons rfl (lexable_methodsWords methods h.2))))
      (.cons rfl .nil)
  | .block _, h => absurd h Bool.false_ne_true
  | .ifElse cond thenBlock none _, h => by
    simp only [Stmt.normal, Bool.and_eq_true] at h
    exact .append (.append (.append (.cons rfl (Expr.lexable_words parens cond h.1.1))
      (.cons rfl (Block.lexable_words thenBlock h.1.2))) .nil) (.cons rfl .nil)
  | .ifElse cond thenBlock (some elseBlock) _, h => by
    simp only [Stmt.normal, Bool.and_eq_true] at h
    exact .append (.append (.append (.cons rfl (Expr.lexable_words parens cond h.1.1))
      (.cons rfl (Block.lexable_words thenBlock h.1.2)))
      (.cons rfl (.cons rfl (Block.lexable_words elseBlock h.2)))) (.cons rfl .nil)
  | .whileLoop cond body _, h => by
    simp only [Stmt.normal, Bool.and_eq_true] at h
    exact .append (.append (.cons rfl (Expr.lexable_words parens cond h.1))
      (.cons rfl (Block.lexable_words body h.2))) (.cons rfl .nil)
  | .ret none _, _ => .cons rfl .nil
  | .ret (some value) _, h => .cons rfl (Expr.lexable_words parens value h)
  | .importUnit path _, h => .cons rfl (Expr.lexable_words parens path h)
  | .tryCatch body errorVar handler _, h => by
    simp only [Stmt.normal, Bool.and_eq_true] at h
    exact .append (.append (.cons rfl (.cons rfl (Block.lexable_words body h.1.1)))
      (.cons rfl (.cons h.1.2 (.cons rfl (Block.lexable_words handler h.2))))) (.cons rfl .nil)

theorem lexable_stmtsWords : (ss : List Stmt) → stmtsNormal ss = true →
    AllLexable (stmtsWords parens ss)
  | [], _ => .nil
  | s :: ss, h => by
    simp only [stmtsNormal, Bool.and_eq_true] at h
    exact (Stmt.lexable_words s h.1.1).append (lexable_stmtsWords ss h.2)

theorem lexable_methodsWords : (ms : List FunctionDecl) → methodsNormal ms = true →
    AllLexable (methodsWords parens ms)
  | [], _ => .nil
  | m :: ms, h => by
    simp only [methodsNormal, Bool.and_eq_true] at h
    exact (FunctionDecl.lexable_words m h.1).append (lexable_methodsWords ms h.2)

theorem Block.lexable_words : (b : Block) → b.normal = true → AllLexable (b.words parens)
  | ⟨ss, _⟩, h => lexable_stmtsWords ss h

theorem FunctionDecl.lexable_words : (decl : FunctionDecl) → decl.normal = true →
    AllLexable (decl.words parens)
  | ⟨name, params, body, _⟩, h => by
    simp only [FunctionDecl.normal, Bool.and_eq_true] at h
    exact .append (.append (.cons rfl (.cons h.1.1 (lexable_namesWords h.1.2)))
      (.cons rfl (Block.lexable_words body h.2))) (.cons rfl .nil)

end

end

/-! ## The last token -/

/-- Tokens of which the last is no property dot. -/
def Closed (ws : List TokenKind) : Prop := ∃ k, ws.getLast? = some k ∧ k ≠ .symbol .dot

namespace Closed

variable {ws : List TokenKind}

theorem append (h : Closed ws) (vs : List TokenKind) : Closed (vs ++ ws) := by
  obtain ⟨k, hlast, hk⟩ := h
  exact ⟨k, by rw [List.getLast?_append, hlast, Option.some_or], hk⟩

theorem cons (h : Closed ws) (k : TokenKind) : Closed (k :: ws) := h.append [k]

theorem single {k : TokenKind} (hk : k ≠ .symbol .dot) : Closed [k] := ⟨k, rfl, hk⟩

theorem parenthesised (h : Closed ws) (wanted : Bool) : Closed (parenthesised wanted ws) := by
  unfold Syntax.parenthesised
  split
  · exact ((single (by decide)).append ws).cons _
  · exact h

end Closed

theorem Expr.closed_words : (e : Expr) → Closed (e.words true)
  | .var _ | .number _ _ | .str _ _ => .single TokenKind.noConfusion
  | .null _ | .self _ => .single (by decide)
  | .bool b _ => .single (by cases b <;> decide)
  | .assign _ value _ => ((closed_words value).cons _).append _
  | .set _ _ value _ => ((((closed_words value).cons _).cons _).cons _).append _
  | .get _ _ _ => ((Closed.single TokenKind.noConfusion).cons _).append _
  | .binary _ _ right _ => (((closed_words right).parenthesised _).cons _).append _
  | .unary _ operand _ => ((closed_words operand).parenthesised _).cons _
  | .call _ _ _ => (((Closed.single (by decide)).append _).cons _).append _
  | .list _ _ | .map _ _ => ((Closed.single (by decide)).append _).cons _
  | .spawn operand _ => (closed_words operand).cons _

theorem Stmt.closed_words {s : Stmt} (h : s.normal = true) : Closed (s.words true) := by
  have hdot : Closed [.symbol .blockDot] := .single (by decide)
  cases s with
  | expr e => exact e.closed_words
  | print value | importUnit value => exact value.closed_words.cons _
  | function decl =>
    cases decl
    exact hdot.append _
  | ret value =>
    cases value with
    | none => exact .single (by decide)
    | some value => exact value.closed_words.cons _
  | block => exact absurd h Bool.false_ne_true
  | ifElse cond thenBlock elseBlock =>
    cases elseBlock <;> exact hdot.append _
  | classDecl | whileLoop | tryCatch => exact hdot.append _

theorem getLast?_stmtsWords {ss : List Stmt} (h : stmtsNormal ss = true) :
    (stmtsWords true ss).getLast? ≠ some (.symbol .dot) := by
  have hclosed : ss ≠ [] → Closed (stmtsWords true ss) := by
    induction ss with
    | nil => exact fun h => absurd rfl h
    | cons s ss ih =>
      intro _
      simp only [stmtsNormal, Bool.and_eq_true] at h
      have hs := Stmt.closed_words h.1.1
      rw [stmtsWords]
      cases ss with
      | nil => rwa [stmtsWords, List.append_nil]
      | cons s' ss => exact (ih h.2 (List.cons_ne_nil _ _)).append _
  cases ss with
  | nil => simp [stmtsWords]
  | cons s ss =>
    obtain ⟨k, hlast, hk⟩ := hclosed (List.cons_ne_nil _ _)
    rw [hlast]
    exact fun heq => hk (Option.some.inj heq)

/-- Reading the text of a program gives its tokens. -/
theorem map_kind_tokens_rendered {p : Program} (h : p.normal = true) :
    (tokens p.rendered).map Token.kind = p.words true ++ [.endOfFile] := by
  rw [tokens, Program.rendered, spelled, String.toList_ofList]
  exact map_kind_tokensFrom_spelled (lexable_stmtsWords true p.stmts h) (getLast?_stmtsWords h) 0

end DotScript.Syntax
