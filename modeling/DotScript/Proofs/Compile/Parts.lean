import Mathlib.Data.List.Perm.Subperm
import DotScript.Proofs.Compile.Compiled

/-!
# Parts of a program

If a program compiles, so does each of its two parts by itself. Building a part goes the same way as
in the whole program. Its code stands elsewhere, but jumps go as far, and its constants need no more
room than those of the whole program.

* `Covers c c'`: the constants of `c` need no more room than those of `c'`;
* `Succeeds P x y Q`: a piece of building does not fail if another one does not;
* `Builds x`: a piece of building does not fail by itself if it does not in the whole program.

Main statement: `compiles_of_append`, which also says that the code of the first part is the
beginning of that of the whole program.
-/

namespace DotScript.Compile

open DotScript.Bytecode DotScript.Syntax

/-! ## Room for constants -/

/-- The constants of a chunk that are no functions. -/
def plainConstants (c : Chunk) : List Constant := c.constants.toList.filter (!·.isFunction)

/-- How many constants of a chunk are functions. -/
def functionCount (c : Chunk) : Nat := c.constants.toList.countP (·.isFunction)

/-- There is room for the constants of a chunk if there is for those of another: they are all
different or functions, and of these there are no more. -/
structure Covers (c c' : Chunk) : Prop where
  distinct : (plainConstants c).Nodup
  plain : plainConstants c ⊆ plainConstants c'
  functions : functionCount c ≤ functionCount c'

section
variable {c c' : Chunk} {k k' : Constant}

theorem mem_plainConstants : k ∈ plainConstants c ↔ k ∈ c.constants ∧ k.isFunction = false := by
  simp [plainConstants]

theorem constants_size_eq (c : Chunk) :
    c.constants.size = (plainConstants c).length + functionCount c := by
  have hlength := List.length_eq_countP_add_countP (fun k : Constant => !k.isFunction)
    (l := c.constants.toList)
  simp only [Bool.not_eq_true', Bool.not_eq_false, Bool.decide_eq_true] at hlength
  rw [plainConstants, functionCount, ← List.countP_eq_length_filter, ← Array.length_toList]
  exact hlength

theorem plainConstants_add (hk : k.isFunction = false) :
    plainConstants (c.addConstant k) = plainConstants c ++ [k] := by
  simp [plainConstants, Chunk.addConstant, hk]

theorem plainConstants_addFunction (hk : k.isFunction = true) :
    plainConstants (c.addConstant k) = plainConstants c := by
  simp [plainConstants, Chunk.addConstant, hk]

theorem functionCount_add (hk : k.isFunction = false) :
    functionCount (c.addConstant k) = functionCount c := by
  simp [functionCount, Chunk.addConstant, hk]

theorem functionCount_addFunction (hk : k.isFunction = true) :
    functionCount (c.addConstant k) = functionCount c + 1 := by
  simp [functionCount, Chunk.addConstant, hk]

namespace Covers

theorem size_le (h : Covers c c') : c.constants.size ≤ c'.constants.size := by
  rw [constants_size_eq, constants_size_eq]
  exact Nat.add_le_add (h.distinct.subperm h.plain).length_le h.functions

/-- A new chunk has no constants. -/
theorem of_empty (h : c.constants = #[]) : Covers c c' := by
  have hplain : plainConstants c = [] := by rw [plainConstants, h]; rfl
  have hcount : functionCount c = 0 := by rw [functionCount, h]; rfl
  refine ⟨hplain ▸ .nil, ?_, hcount ▸ Nat.zero_le _⟩
  rw [hplain]
  exact List.nil_subset _

theorem addFunction (h : Covers c c') (hk : k.isFunction = true) (hk' : k'.isFunction = true) :
    Covers (c.addConstant k) (c'.addConstant k') where
  distinct := by
    rw [plainConstants_addFunction hk]
    exact h.distinct
  plain := by
    rw [plainConstants_addFunction hk, plainConstants_addFunction hk']
    exact h.plain
  functions := by
    rw [functionCount_addFunction hk, functionCount_addFunction hk']
    exact Nat.succ_le_succ h.functions

/-- More constants on the right. -/
theorem grow (h : Covers c c') (hk : k.isFunction = false) : Covers c (c'.addConstant k) where
  distinct := h.distinct
  plain := by
    rw [plainConstants_add hk]
    exact fun x hx => List.mem_append_left _ (h.plain hx)
  functions := by
    rw [functionCount_add hk]
    exact h.functions

/-- A constant of the right chunk is added on the left. -/
theorem add (h : Covers c c') (hk : k.isFunction = false) (hnew : k ∉ c.constants)
    (hin : k ∈ c'.constants) : Covers (c.addConstant k) c' where
  distinct := by
    rw [plainConstants_add hk]
    refine List.nodup_append.mpr ⟨h.distinct, List.pairwise_singleton _ k, ?_⟩
    rintro x hx _ hxk rfl
    cases List.mem_singleton.mp hxk
    exact hnew (mem_plainConstants.mp hx).1
  plain := by
    rw [plainConstants_add hk]
    refine List.append_subset.mpr ⟨h.plain, fun x hx => ?_⟩
    cases List.mem_singleton.mp hx
    exact mem_plainConstants.mpr ⟨hin, hk⟩
  functions := by
    rw [functionCount_add hk]
    exact h.functions

end Covers

end

/-! ## Building a part -/

/-- A part is built by itself on the left, and as a part of a whole program on the right, behind `w`
words that the left chunk does not have. -/
structure Beside (w : Nat) (b b' : Builder) : Prop where
  scope : b.scope = b'.scope
  code : b'.chunk.code.size = b.chunk.code.size + w
  constants : Covers b.chunk b'.chunk

/-- All constants of a chunk have an index that fits into a word. -/
def Room (b : Builder) : Prop := b.chunk.constants.size ≤ 2147483648

/-- A part and the whole program, which has had room for its constants so far. -/
structure Fits (w : Nat) (b b' : Builder) : Prop extends Beside w b b' where
  room : Room b'

/-- A piece of building does not fail if another one does not. -/
def Succeeds {α β : Type} (P : Builder → Builder → Prop) (x : Build α) (y : Build β)
    (Q : α → β → Builder → Builder → Prop) : Prop :=
  ∀ b b' b₁' r', P b b' → y b' = .ok r' b₁' → ∃ r b₁, x b = .ok r b₁ ∧ Q r r' b₁ b₁'

theorem discard_eq_ok {x : Build Nat} {b b' : Builder} {u : Unit} :
    (discard x : Build Unit) b = .ok u b' ↔ ∃ r, x b = .ok r b' := by
  have heq : (discard x : Build Unit) = (x >>= fun _ => pure ()) := rfl
  rw [heq, bind_eq_ok]
  constructor
  · rintro ⟨r, _, hx, ⟨⟩⟩
    exact ⟨r, hx⟩
  · rintro ⟨r, hx⟩
    exact ⟨r, b', hx, rfl⟩

/-- A piece of building does not fail by itself if it does not in the whole program. -/
def Builds (w : Nat) (x : Build Unit) : Prop := Succeeds (Fits w) x x fun _ _ => Fits w

/-- If there is room in the whole program, so there is in the part. -/
theorem Beside.lt_of_room {w n : Nat} {b b' : Builder} (h : Beside w b b') (hroom : Room b')
    (hn : n < b.chunk.constants.size) : n < 2147483648 :=
  Nat.lt_of_lt_of_le hn (Nat.le_trans h.constants.size_le hroom)

section
variable {α β γ δ : Type} {P : Builder → Builder → Prop} {x : Build α} {y : Build β}
  {Q Q' : α → β → Builder → Builder → Prop} {f : α → Build γ} {g : β → Build δ}
  {R : γ → δ → Builder → Builder → Prop}

namespace Succeeds

theorem bind (hx : Succeeds P x y Q) (hf : ∀ r r', Succeeds (Q r r') (f r) (g r') R) :
    Succeeds P (x >>= f) (y >>= g) R := by
  intro b b' b₂' u' hP h
  obtain ⟨r', b₁', hy, hg⟩ := bind_eq_ok.mp h
  obtain ⟨r, b₁, hrun, hQ⟩ := hx b b' b₁' r' hP hy
  obtain ⟨u, b₂, hrun', hR⟩ := hf r r' b₁ b₁' b₂' u' hQ hg
  exact ⟨u, b₂, (bind_of_ok hrun).trans hrun', hR⟩

theorem pure {r : α} {r' : β} (h : ∀ b b', P b b' → Q r r' b b') :
    Succeeds P (pure r) (pure r') Q := by
  intro b b' b₁' u' hP hrun
  cases hrun
  exact ⟨r, b, rfl, h b b' hP⟩

theorem extract {p : Prop} (h : p → Succeeds P x y Q) : Succeeds (fun b b' => p ∧ P b b') x y Q :=
  fun b b' b₁' r' hP => h hP.1 b b' b₁' r' hP.2

theorem modify {f g : Builder → Builder} {S : Builder → Builder → Prop}
    (h : ∀ b b', P b b' → S (f b) (g b')) :
    Succeeds P (modify f : Build Unit) (modify g : Build Unit) fun _ _ => S := by
  intro b b' b₁' u' hP hrun
  cases hrun
  exact ⟨(), _, rfl, h b b' hP⟩

end Succeeds

end

/-! ## Instructions -/

section
variable {w : Nat} {x y z : Build Unit} {k : Constant}

theorem fit_succeeds {P : Builder → Builder → Prop} {n n' : Int} {m m' : Nat} (h : n = n') :
    Succeeds P (fit n m) (fit n' m') fun u u' b b' => u = u' ∧ P b b' := by
  subst h
  unfold fit
  cases word? n with
  | some u => exact .pure fun _ _ hP => ⟨rfl, hP⟩
  | none => exact fun _ _ _ _ _ hrun => nomatch hrun

theorem emitWord_succeeds (u u' : Word) :
    Succeeds (Fits w) (emitWord u) (emitWord u') fun _ _ => Fits w := by
  refine .modify fun b b' h => ⟨⟨h.scope, ?_, h.constants.distinct, h.constants.plain,
    h.constants.functions⟩, h.room⟩
  simp only [Chunk.write, Array.size_push, h.code]
  omega

theorem here_succeeds :
    Succeeds (Fits w) here here fun a a' b b' => a' = a + w ∧ Fits w b b' := by
  intro b b' b₁' a' h hrun
  cases hrun
  exact ⟨_, b, rfl, h.code, h⟩

theorem emit_builds (op : Opcode) : Builds w (emit op) := emitWord_succeeds _ _

theorem emitOp_succeeds (op : Opcode) :
    Succeeds (Fits w) (emitOp op) (emitOp op) fun a a' b b' => a' = a + w ∧ Fits w b b' :=
  here_succeeds.bind fun _ _ => .extract fun ha =>
    (emitWord_succeeds _ _).bind fun _ _ => .pure fun _ _ h => ⟨ha, h⟩

theorem discard_builds {x : Build Nat} {Q : Nat → Nat → Builder → Builder → Prop}
    (h : Succeeds (Fits w) x x Q) (hQ : ∀ {n n' b b'}, Q n n' b b' → Fits w b b') :
    Builds w (discard x) := by
  have heq : (discard x : Build Unit) = (x >>= fun _ => pure ()) := rfl
  rw [Builds, heq]
  exact h.bind fun _ _ => .pure fun _ _ => hQ

/-- An instruction whose operand does not depend on where it stands. -/
theorem emitWith_builds (op : Opcode) (n : Nat) : Builds w (discard (emitWith op n)) := by
  have h : Succeeds (Fits w) (emitWith op n) (emitWith op n) fun _ _ => Fits w :=
    (fit_succeeds rfl).bind fun _ _ => .extract fun _ => (emitOp_succeeds op).bind fun _ _ =>
      .extract fun _ => (emitWord_succeeds _ _).bind fun _ _ => .pure fun _ _ h => h
  exact discard_builds h id

/-- What is written with an operand that fits into a word. -/
theorem emitWith_eq_ok {op : Opcode} {n r : Nat} {b b' : Builder} :
    emitWith op n b = .ok r b' ↔ n < 2147483648 ∧ r = b.chunk.code.size ∧
      b' = { b with chunk := (b.chunk.writeOp op).write (Int32.ofInt n) } := by
  unfold emitWith fit word?
  by_cases hn : n < 2147483648
  · have hrange : -2147483648 ≤ (n : Int) ∧ (n : Int) ≤ 2147483647 := by omega
    simp only [hrange, and_self, if_true]
    constructor
    · rintro ⟨⟩
      exact ⟨hn, rfl, rfl⟩
    · rintro ⟨-, rfl, rfl⟩
      rfl
  · have hrange : ¬ (-2147483648 ≤ (n : Int) ∧ (n : Int) ≤ 2147483647) := by omega
    simp only [hrange, if_false, hn, false_and, iff_false]
    rintro ⟨⟩

/-- An instruction with the index of a constant, which the part has elsewhere. -/
theorem emitWith_beside {op : Opcode} {n n' r' : Nat} {b b' b₁' : Builder} (h : Beside w b b')
    (hn : n' < 2147483648 → n < 2147483648) (hrun : emitWith op n' b' = .ok r' b₁') :
    n' < 2147483648 ∧ ∃ r b₁, emitWith op n b = .ok r b₁ ∧ Beside w b₁ b₁' ∧
      (Room b' → Room b₁') := by
  obtain ⟨hn', rfl, rfl⟩ := emitWith_eq_ok.mp hrun
  refine ⟨hn', _, _, emitWith_eq_ok.mpr ⟨hn hn', rfl, rfl⟩, ⟨h.scope, ?_, h.constants.distinct,
    h.constants.plain, h.constants.functions⟩, id⟩
  simp only [Chunk.writeOp, Chunk.write, Array.size_push, h.code]
  omega

/-! ## Constants -/

theorem intern_eq_ok {k : Constant} {n : Nat} {b b' : Builder} (hk : k.isFunction = false)
    (h : intern k b = .ok n b') :
    (b' = b ∧ n < b.chunk.constants.size ∧ k ∈ b.chunk.constants) ∨
      (∃ hnew, b' = b.share k hnew ∧ n = b.chunk.constants.size ∧ k ∉ b.chunk.constants) := by
  obtain hlisted | ⟨i, hlisted⟩ := Option.eq_none_or_eq_some (b.indices.get? k)
  · rw [intern_new hlisted] at h
    cases h
    refine .inr ⟨hlisted, rfl, rfl, fun hmem => ?_⟩
    obtain ⟨i, hi⟩ := Array.mem_iff_getElem?.mp hmem
    cases hlisted.symm.trans (b.indexed.lists hi hk)
  · rw [intern_listed hlisted] at h
    cases h
    obtain ⟨hi, hin⟩ := Array.getElem?_eq_some_iff.mp (b.indexed.denotes hlisted)
    exact .inl ⟨rfl, hi, hin ▸ Array.getElem_mem hi⟩

/-- A constant is interned in a part as in the whole program. -/
theorem intern_beside {n' : Nat} {b b' b₁' : Builder} (hk : k.isFunction = false)
    (h : Beside w b b') (hrun : intern k b' = .ok n' b₁') :
    ∃ n b₁, intern k b = .ok n b₁ ∧ Beside w b₁ b₁' ∧ n < b₁.chunk.constants.size ∧
      (Room b' → n' < 2147483648 → Room b₁') := by
  obtain ⟨n, b₁, hintern⟩ := exists_intern k b
  have hright : Beside w b b₁' ∧ k ∈ b₁'.chunk.constants ∧
      (Room b' → n' < 2147483648 → Room b₁') := by
    obtain ⟨rfl, -, hin⟩ | ⟨_, rfl, rfl, -⟩ := intern_eq_ok hk hrun
    · exact ⟨h, hin, fun hroom _ => hroom⟩
    · refine ⟨⟨h.scope, h.code, h.constants.grow hk⟩, Array.mem_push_self, fun _ hn => ?_⟩
      simpa only [Room, Builder.share_chunk, Chunk.addConstant, Array.size_push] using
        Nat.succ_le_of_lt hn
  obtain ⟨hbeside, hin, hroom⟩ := hright
  refine ⟨n, b₁, hintern, ?_⟩
  obtain ⟨rfl, hlt, -⟩ | ⟨_, rfl, rfl, hnew⟩ := intern_eq_ok hk hintern
  · exact ⟨hbeside, hlt, hroom⟩
  · refine ⟨⟨hbeside.scope, hbeside.code, hbeside.constants.add hk hnew hin⟩, ?_, hroom⟩
    simp only [Builder.share_chunk, Chunk.addConstant, Array.size_push, Nat.lt_succ_self]

/-- An instruction with a constant that is interned first. -/
theorem interned_builds (op : Opcode) (hk : k.isFunction = false) :
    Builds w (do discard (emitWith op (← intern k))) := by
  intro b b' b₂' u' h hrun
  obtain ⟨n', b₁', hintern', hemit'⟩ := bind_eq_ok.mp hrun
  obtain ⟨n, b₁, hintern, hbeside, hlt, hroom⟩ := intern_beside hk h.toBeside hintern'
  obtain ⟨r', hemit'⟩ := discard_eq_ok.mp hemit'
  obtain ⟨hn', r, b₂, hemit, hbeside', hroom'⟩ := emitWith_beside hbeside
    (fun hn' => hbeside.lt_of_room (hroom h.room hn') hlt) hemit'
  exact ⟨(), b₂, (bind_of_ok hintern).trans (discard_of_ok hemit), hbeside', hroom' (hroom h.room hn')⟩

theorem emitVariable_builds (onLocal onGlobal : Opcode) (name : String) :
    Builds w (emitVariable onLocal onGlobal name) := by
  intro b b' b₁' u' h hrun
  have hscope := h.scope
  unfold emitVariable at hrun ⊢
  rw [bind_of_ok (get_apply _)] at hrun ⊢
  rw [hscope]
  cases hslot : b'.scope.resolve name with
  | some slot =>
    rw [hslot] at hrun
    exact emitWith_builds onLocal slot b b' b₁' u' h hrun
  | none =>
    rw [hslot] at hrun
    exact interned_builds (k := .str name) onGlobal rfl b b' b₁' u' h hrun

/-! ## Jumps -/

theorem emitJump_succeeds (op : Opcode) :
    Succeeds (Fits w) (emitJump op) (emitJump op) fun a a' b b' => a' = a + w ∧ Fits w b b' :=
  (emit_builds op).bind fun _ _ => here_succeeds.bind fun _ _ => .extract fun ha =>
    (emitWord_succeeds _ _).bind fun _ _ => .pure fun _ _ h => ⟨ha, h⟩

theorem patchJump_succeeds {slot slot' : Nat} (hslot : slot' = slot + w) :
    Succeeds (Fits w) (patchJump slot) (patchJump slot') fun _ _ => Fits w := by
  subst hslot
  refine here_succeeds.bind fun a a' => .extract fun ha => ?_
  subst ha
  refine (fit_succeeds (by omega)).bind fun u u' => .extract fun hu => .modify fun b b' h => ?_
  refine ⟨⟨h.scope, ?_, h.constants.distinct, h.constants.plain, h.constants.functions⟩, h.room⟩
  simp only [Chunk.patch, Array.size_setIfInBounds, h.code]

theorem emitLoop_succeeds {start start' : Nat} (hstart : start' = start + w) :
    Succeeds (Fits w) (emitLoop start) (emitLoop start') fun _ _ => Fits w := by
  subst hstart
  refine (emitOp_succeeds .jump).bind fun a a' => .extract fun ha => ?_
  subst ha
  exact (fit_succeeds (by push_cast; omega)).bind fun u u' => .extract fun _ => emitWord_succeeds u u'

/-! ## Scopes -/

theorem emitPops_builds (n : Nat) : Builds w (emitPops n) := by
  induction n with
  | zero => exact .pure fun _ _ h => h
  | succ n ih => exact (emit_builds .pop).bind fun _ _ => ih

/-- The scopes of the part and the whole program change in the same way. -/
theorem Fits.scoped {b b' : Builder} (h : Fits w b b') (scope : Scope) :
    Fits w { b with scope } { b' with scope } :=
  { h with scope := rfl }

theorem enterScope_builds : Builds w enterScope :=
  .modify fun b b' h => by
    rw [h.scope]
    exact h.scoped _

theorem declare_builds (name : String) : Builds w (declare name) :=
  .modify fun b b' h => by
    rw [h.scope]
    exact h.scoped _

theorem leaveScope_builds : Builds w leaveScope := by
  intro b b' b₁' u' h hrun
  have hscope := h.scope
  unfold leaveScope at hrun ⊢
  rw [bind_of_ok (get_apply _)] at hrun ⊢
  rw [hscope]
  have hleave : Succeeds (Fits w)
      (modify fun b : Builder => { b with scope := b'.scope.leave } : Build Unit)
      (modify fun b : Builder => { b with scope := b'.scope.leave } : Build Unit)
      fun _ _ => Fits w := .modify fun _ _ h => h.scoped _
  exact (hleave.bind fun _ _ => emitPops_builds _) b b' b₁' u' h hrun

theorem withScope_builds (scope : Scope) (hx : Builds w x) : Builds w (withScope scope x) := by
  intro b b' b₁' u' h hrun
  unfold withScope at hrun ⊢
  cases hrun' : x { b' with scope } with
  | error e b₂' =>
    rw [hrun'] at hrun
    cases hrun
  | ok u b₂' =>
    rw [hrun'] at hrun
    cases hrun
    obtain ⟨_, b₂, hx, h₂⟩ := hx _ _ _ _ (h.scoped scope) hrun'
    rw [hx]
    refine ⟨(), _, rfl, ?_⟩
    rw [h.scope]
    exact h₂.scoped _

/-! ## Expressions -/

theorem self_builds (span : Text.Span) : Builds w (expr (.self span)) := by
  intro b b' b₁' u' h hrun
  have hscope := h.scope
  simp only [expr] at hrun ⊢
  rw [bind_of_ok (get_apply _)] at hrun ⊢
  rw [hscope]
  cases hslot : b'.scope.resolve "this" with
  | some slot =>
    rw [hslot] at hrun
    exact emitWith_builds .getLocal slot b b' b₁' u' h hrun
  | none =>
    rw [hslot] at hrun
    cases hrun

mutual

theorem expr_builds : (e : Expr) → Builds w (expr e)
  | .var id => emitVariable_builds _ _ id.name
  | .null _ => interned_builds .constant rfl
  | .bool _ _ => interned_builds .constant rfl
  | .number _ _ => interned_builds .constant rfl
  | .str _ _ => interned_builds .constant rfl
  | .assign target value _ => by
    cases target with
    | var id => exact (expr_builds value).bind fun _ _ => emitVariable_builds _ _ id.name
    | _ => exact nofun
  | .set object name value _ =>
    (expr_builds object).bind fun _ _ => (expr_builds value).bind fun _ _ => interned_builds _ rfl
  | .get object name _ => (expr_builds object).bind fun _ _ => interned_builds _ rfl
  | .binary op left right _ =>
    (expr_builds left).bind fun _ _ => (expr_builds right).bind fun _ _ => emit_builds _
  | .unary op operand _ => (expr_builds operand).bind fun _ _ => emit_builds _
  | .call callee args _ =>
    (expr_builds callee).bind fun _ _ => (exprs_builds args).bind fun _ _ => emitWith_builds _ _
  | .list elems _ => (exprs_builds elems).bind fun _ _ => emitWith_builds _ _
  | .map entries _ => (pairs_builds entries).bind fun _ _ => emitWith_builds _ _
  | .self span => self_builds span
  | .spawn operand _ => by
    cases operand with
    | call callee args _ =>
      exact (expr_builds callee).bind fun _ _ => (exprs_builds args).bind fun _ _ =>
        emitWith_builds _ _
    | _ => exact nofun

theorem exprs_builds : (es : List Expr) → Builds w (exprs es)
  | [] => .pure fun _ _ h => h
  | e :: es => (expr_builds e).bind fun _ _ => exprs_builds es

theorem pairs_builds : (es : List (Expr × Expr)) → Builds w (pairs es)
  | [] => .pure fun _ _ h => h
  | (key, value) :: es =>
    (expr_builds key).bind fun _ _ => (expr_builds value).bind fun _ _ => pairs_builds es

end

/-! ## Statements -/

theorem conditional_builds (hx : Builds w x) (hy : Builds w y) (hz : Builds w z) :
    Builds w (conditional x y z) :=
  hx.bind fun _ _ => (emitJump_succeeds _).bind fun _ _ => .extract fun helse =>
    hy.bind fun _ _ => (emitJump_succeeds _).bind fun _ _ => .extract fun hend =>
      (patchJump_succeeds helse).bind fun _ _ => hz.bind fun _ _ => patchJump_succeeds hend

/-- The last constant of a part and the whole program, which is to be used yet, is that of a function. -/
structure Adds (w n n' : Nat) (b b' : Builder) : Prop extends Beside w b b' where
  last : n + 1 = b.chunk.constants.size
  last' : n' + 1 = b'.chunk.constants.size

theorem function_succeeds {isMethod : Bool} {name : Ident} {params : List Ident} {body : List Stmt}
    {bodySpan span : Text.Span} (hbody : Builds w (functionBody body)) :
    Succeeds (Fits w) (function isMethod ⟨name, params, ⟨body, bodySpan⟩, span⟩)
      (function isMethod ⟨name, params, ⟨body, bodySpan⟩, span⟩) (Adds w) := by
  refine (emitJump_succeeds .jump).bind fun skip skip' => .extract fun hskip => ?_
  refine here_succeeds.bind fun entry entry' => .extract fun _ => ?_
  refine (withScope_builds _ hbody).bind fun _ _ => (patchJump_succeeds hskip).bind fun _ _ => ?_
  intro b b' b₁' n' h hrun
  cases hrun
  refine ⟨_, _, rfl, ⟨h.scope, h.code, h.constants.addFunction rfl rfl⟩, ?_, ?_⟩
  · simp only [Builder.define_chunk, Chunk.addConstant, Array.size_push]
  · simp only [Builder.define_chunk, Chunk.addConstant, Array.size_push]

/-- A function, the constant that pushes it, and an instruction that names it. -/
theorem define_builds {f : Build Nat} (hf : Succeeds (Fits w) f f (Adds w)) (op : Opcode)
    (name : String) (hx : Builds w x) :
    Builds w (do
      let proto ← f
      let index ← internStr name
      emitConstant proto
      discard (emitWith op index)
      x) := by
  refine Succeeds.bind hf fun proto proto' => ?_
  intro b b' b₄' u' h hrun
  simp only [bind_eq_ok] at hrun
  obtain ⟨index', b₁', hintern', _, b₂', hproto', _, b₃', hindex', hx'⟩ := hrun
  obtain ⟨_, hproto'⟩ := discard_eq_ok.mp hproto'
  obtain ⟨_, hindex'⟩ := discard_eq_ok.mp hindex'
  obtain ⟨index, b₁, hintern, h₁, hlt, hroom⟩ := intern_beside (k := .str name) rfl h.toBeside hintern'
  have hle := h.constants.size_le
  have hlast := h.last
  have hlast' := h.last'
  obtain ⟨hfits, _, b₂, hproto, h₂, hroom₂⟩ := emitWith_beside (n := proto) h₁ (by omega) hproto'
  have hfull : Room b' := by
    rw [Room]
    omega
  obtain ⟨hfits', _, b₃, hindex, h₃, hroom₃⟩ := emitWith_beside (n := index) h₂
    (fun hfits' => h₁.lt_of_room (hroom hfull hfits') hlt) hindex'
  have hfits₃ : Fits w b₃ b₃' := ⟨h₃, hroom₃ (hroom₂ (hroom hfull hfits'))⟩
  obtain ⟨u, b₄, hx, h₄⟩ := hx b₃ b₃' b₄' u' hfits₃ hx'
  refine ⟨u, b₄, ?_, h₄⟩
  rw [bind_of_ok (show internStr name b = .ok index b₁ from hintern),
    bind_of_ok (show emitConstant proto b₁ = .ok () b₂ from discard_of_ok hproto),
    bind_of_ok (discard_of_ok hindex)]
  exact hx

mutual

theorem stmt_builds : (s : Stmt) → Builds w (stmt s)
  | .expr e => (expr_builds e).bind fun _ _ => emit_builds _
  | .print value _ => (expr_builds value).bind fun _ _ => emit_builds _
  | .function decl => define_builds (function_builds false decl) _ _ (emit_builds .pop)
  | .classDecl name methods _ => (interned_builds _ rfl).bind fun _ _ =>
    (methods_builds methods).bind fun _ _ => emit_builds _
  | .block body => block_builds body
  | .ifElse cond thenBlock elseBlock _ => by
    cases elseBlock with
    | some b => exact conditional_builds (expr_builds cond) (block_builds thenBlock) (block_builds b)
    | none =>
      exact conditional_builds (expr_builds cond) (block_builds thenBlock) (.pure fun _ _ h => h)
  | .whileLoop cond body _ => here_succeeds.bind fun _ _ => .extract fun hstart =>
    (expr_builds cond).bind fun _ _ => (emitJump_succeeds _).bind fun _ _ => .extract fun hexit =>
      (block_builds body).bind fun _ _ => (emitLoop_succeeds hstart).bind fun _ _ =>
        patchJump_succeeds hexit
  | .ret value _ => by
    cases value with
    | some e => exact (expr_builds e).bind fun _ _ => emit_builds _
    | none => exact (interned_builds (k := .null) .constant rfl).bind fun _ _ => emit_builds _
  | .importUnit path _ => (expr_builds path).bind fun _ _ => emit_builds _
  | .tryCatch body errorVar handler _ =>
    (emitJump_succeeds _).bind fun _ _ => .extract fun hhandler =>
      (block_builds body).bind fun _ _ => (emit_builds _).bind fun _ _ =>
        (emitJump_succeeds _).bind fun _ _ => .extract fun hend =>
          (patchJump_succeeds hhandler).bind fun _ _ => enterScope_builds.bind fun _ _ =>
            (declare_builds errorVar.name).bind fun _ _ => (block_builds handler).bind fun _ _ =>
              leaveScope_builds.bind fun _ _ => patchJump_succeeds hend

theorem stmts_builds : (ss : List Stmt) → Builds w (stmts ss)
  | [] => .pure fun _ _ h => h
  | s :: ss => (stmt_builds s).bind fun _ _ => stmts_builds ss

theorem block_builds : (b : Block) → Builds w (block b)
  | ⟨ss, _⟩ => enterScope_builds.bind fun _ _ => (stmts_builds ss).bind fun _ _ => leaveScope_builds

theorem methods_builds : (ms : List FunctionDecl) → Builds w (methodDefs ms)
  | [] => .pure fun _ _ h => h
  | m :: ms => define_builds (function_builds true m) _ _ (methods_builds ms)

theorem function_builds (isMethod : Bool) : (decl : FunctionDecl) →
    Succeeds (Fits w) (function isMethod decl) (function isMethod decl) (Adds w)
  | ⟨name, params, ⟨body, _⟩, _⟩ => by
    refine function_succeeds ?_
    rw [functionBody_eq]
    split
    · exact stmts_builds body
    · exact (value_builds body).bind fun _ _ => emit_builds _

theorem value_builds : (ss : List Stmt) → Builds w (valueOf ss)
  | [] => interned_builds (k := .null) .constant rfl
  | [s] => by
    have hs := stmt_builds s
    have hnull : Builds w emitNull := interned_builds (k := .null) .constant rfl
    cases s with
    | expr e => exact expr_builds e
    | ifElse cond thenBlock elseBlock span =>
      match thenBlock, elseBlock with
      | ⟨thenStmts, _⟩, some ⟨elseStmts, _⟩ =>
        exact conditional_builds (expr_builds cond) (value_builds thenStmts) (value_builds elseStmts)
      | ⟨thenStmts, _⟩, none =>
        exact conditional_builds (expr_builds cond) (value_builds thenStmts) hnull
    | _ => exact hs.bind fun _ _ => hnull
  | s :: s' :: ss => (stmt_builds s).bind fun _ _ => value_builds (s' :: ss)

end

end

/-! ## Programs -/

theorem stmts_append (ss ts : List Stmt) : stmts (ss ++ ts) = (do stmts ss; stmts ts) := by
  induction ss with
  | nil => simp only [List.nil_append, stmts, pure_bind]
  | cons s ss ih => simp only [List.cons_append, stmts, ih, bind_assoc]

theorem stmtsWidth_append (ss ts : List Stmt) :
    stmtsWidth (ss ++ ts) = stmtsWidth ss + stmtsWidth ts := by
  induction ss with
  | nil => simp only [List.nil_append, stmtsWidth, Nat.zero_add]
  | cons s ss ih => simp only [List.cons_append, stmtsWidth, ih, Nat.add_assoc]

/-- Code that ends a program. -/
def ending : Build Unit := do
  emitNull
  emit .ret

theorem ending_builds {w : Nat} : Builds w ending :=
  (interned_builds (k := .null) .constant rfl).bind fun _ _ => emit_builds .ret

theorem compile_eq_ok {p : Program} {name : String} {c : Chunk} :
    compile p name = .ok c ↔
      ∃ b b', stmts p.stmts (.new name) = .ok () b ∧ ending b = .ok () b' ∧ c = b'.chunk := by
  have hprogram : program p = (do stmts p.stmts; ending) := rfl
  rw [compile, hprogram]
  constructor
  · intro h
    split at h
    · next b' hrun =>
      cases h
      obtain ⟨_, b, hstmts, hend⟩ := bind_eq_ok.mp hrun
      exact ⟨b, b', hstmts, hend, rfl⟩
    · cases h
  · rintro ⟨b, b', hstmts, hend, rfl⟩
    rw [bind_of_ok hstmts, hend]

/-- What was there before is the beginning. -/
theorem Emits.begins {opens : List Nat} {n : Nat} {c c' : Chunk} {P : Chunk → Prop}
    (h : Emits opens n c c' P) : Begins c c' where
  code := fun {a} _ hword => by
    rw [h.kept a (Array.getElem?_eq_some_iff.mp hword).1]
    exact hword
  constants := fun {n} {k} hk => h.constants n k hk

theorem agrees_of_begins {c c' : Chunk} (h : Begins c c') (lo : Nat) : Agrees c' c lo [] where
  code i _ hi _ := by
    rw [Array.getElem?_eq_getElem hi]
    exact h.code (Array.getElem?_eq_getElem hi)
  constants _ _ hk := h.constants hk
  size := h.size_le

/-- All constants of a chunk are there in one that begins with it. -/
theorem Covers.of_begins {c c' : Chunk} (h : Covers c c) (hbegins : Begins c c') : Covers c c' := by
  have hfirst : c.constants.toList <+: c'.constants.toList := by
    refine List.prefix_iff_getElem?.mpr fun i hi => ?_
    rw [Array.getElem?_toList]
    exact hbegins.constants (Array.getElem?_eq_getElem hi)
  exact ⟨h.distinct, (hfirst.sublist.filter _).subset, hfirst.sublist.countP_le⟩

/-- The code of the statements of `p` is the beginning of the code of the program and of that of a
program that goes on with the statements of `q`. -/
structure CommonStart (p q : Program) (d c c' : Chunk) : Prop where
  layout : StmtsAt d [] 0 p.stmts
  size : d.code.size = stmtsWidth p.stmts
  alone : Begins d c
  whole : Begins d c'
  rest : StmtsAt c' [] (stmtsWidth p.stmts) q.stmts
  null : ConstAt c' (stmtsWidth p.stmts + stmtsWidth q.stmts) .constant .null
  ret : OpAt c' (stmtsWidth p.stmts + stmtsWidth q.stmts + 2) .ret

/-- If a program compiles, so do its parts, and it begins with the code of the first part. -/
theorem compiles_of_append {p q pq : Program} (hpq : pq.stmts = p.stmts ++ q.stmts) {name : String}
    {c' : Chunk} (h : compile pq name = .ok c') :
    ∃ c c₂ d, compile p name = .ok c ∧ compile q name = .ok c₂ ∧ CommonStart p q d c c' := by
  have hwidth : stmtsWidth pq.stmts = stmtsWidth p.stmts + stmtsWidth q.stmts := by
    rw [hpq, stmtsWidth_append]
  obtain ⟨-, hnull, hret, -⟩ := compile_layout h
  obtain ⟨b₂, b₃, hstmts, hend, rfl⟩ := compile_eq_ok.mp h
  rw [hpq, stmts_append] at hstmts
  obtain ⟨_, b₁, hp, hq⟩ := bind_eq_ok.mp hstmts
  have hnew {w : Nat} {b : Builder} (hscope : b.scope = {}) (hsize : b.chunk.code.size = w)
      (hroom : Room b) : Fits w (.new name) b :=
    ⟨⟨hscope.symm, hsize.trans (Nat.zero_add w).symm, .of_empty rfl⟩, hroom⟩
  -- The code of the two parts, one behind the other.
  obtain ⟨hscope₁, hemits₁⟩ := (stmts_lays p.stmts).out Scope.tidy_empty hp
  obtain ⟨hscope₂, hemits₂⟩ := (stmts_lays q.stmts).out (hscope₁ ▸ Scope.tidy_empty) hq
  have hsize₁ : b₁.chunk.code.size = stmtsWidth p.stmts := hemits₁.size.trans (Nat.zero_add _)
  have hending := emitNull_lays.seq (emit_lays .ret)
  obtain ⟨-, hemits₃⟩ := hending.out (hscope₂ ▸ hscope₁ ▸ Scope.tidy_empty) hend
  -- The first part is built as it is in the whole program, so there is room for its constants.
  obtain ⟨_, b, hrun, hfits₁⟩ := stmts_builds (w := 0) p.stmts _ _ _ _
    (hnew rfl rfl (Nat.zero_le _)) hp
  cases hp.symm.trans hrun
  obtain ⟨_, b₂q, hq', hfits₂⟩ := stmts_builds q.stmts _ _ _ _ (hnew hscope₁ hsize₁ hfits₁.room) hq
  have hends : Fits (stmtsWidth q.stmts) b₁ b₂ :=
    ⟨⟨hscope₂.symm, hemits₂.size, hfits₁.constants.of_begins hemits₂.begins⟩, hfits₂.room⟩
  obtain ⟨_, c, hend₁, -⟩ := ending_builds _ _ _ _ hends hend
  obtain ⟨_, c₂, hend₂, -⟩ := ending_builds _ _ _ _ hfits₂ hend
  obtain ⟨-, hemits⟩ := hending.out (hscope₁ ▸ Scope.tidy_empty) hend₁
  refine ⟨_, _, b₁.chunk, compile_eq_ok.mpr ⟨_, _, hp, hend₁, rfl⟩,
    compile_eq_ok.mpr ⟨_, _, hq', hend₂, rfl⟩, ?_, hsize₁, hemits.begins,
    (hemits₂.trans hemits₃).begins, ?_, ?_, ?_⟩
  · exact hemits₁.holds _ (agrees_of_begins (.refl _) _)
  · have hrest := hemits₂.holds _ (agrees_of_begins hemits₃.begins _)
    rw [hscope₁, hsize₁] at hrest
    exact hrest
  · rw [← hwidth]
    exact hnull
  · rw [← hwidth]
    exact hret

end DotScript.Compile
