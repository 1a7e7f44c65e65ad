import DotScript.Proofs.Machine.History
import DotScript.Proofs.Machine.Level

/-!
# What an instruction can do

Seen from the activation that carries it out, an instruction of compiled code does one of a few
things: it goes on in the same activation, arms or disarms a handler, enters a function, leaves the
activation, begins an import, or fails. `Effect` lists them with all that is needed to go on, and
`effect` says that there is nothing else. No failure is one of the machine's own.
-/

namespace DotScript.Machine

open DotScript.Bytecode DotScript.Compile DotScript.Syntax

/-- The failures of code that does not fit the machine. -/
def RuntimeError.internal : RuntimeError → Bool
  | notAMethod _ _ | methodOnNonClass _ _ | stackUnderflow | invalidLocal _ | invalidOpcode _ _
  | missingOperand _ | invalidJump _ | invalidConstant _ => true
  | _ => false

/-- The loader gives compiled programs only, and these are among some. -/
def Host.LoadsFrom (host : Host) (programs : Program → Prop) : Prop :=
  ∀ load, host.loader = some load → ∀ files path chunk, load files path = .ok chunk →
    ∃ p, CompiledFrom programs p chunk

/-- What an instruction can do. -/
inductive Effect (R : Realm) (host : Host) (L : Level) (σ : Site) (ls : List Value) (t : Thread)
    (w : World) : Result (Option Value) → Prop
  | go {σ' ls' vs' t' w'} (hstands : Stands R L σ' ls' vs' t') (hw : w'.In R)
    (htries : σ'.tries = σ.tries) (hhandler : t'.handler = t.handler)
    (hls : ∀ m, m ≤ σ'.locals → ls'.take m = t.assign (ls.take m))
    (hip : Loops L.program ∨ t.ip < t'.ip) : Effect R host L σ ls t w (.ok none ⟨t', w'⟩)
  | arm {σ' τ t'} (hop : OpAt t.image.chunk t.ip .tryEnter) (ha : t.ip = τ.enter)
    (hlocals : ls.length = τ.names.length) (hstack : t.stack = L.stack ls [])
    (hstands : Stands R L σ' ls [] t') (htries : σ'.tries = τ :: σ.tries)
    (hhandler : t'.handler = some (L.handler τ)) (hip : t.ip < t'.ip) :
    Effect R host L σ ls t w (.ok none ⟨t', w⟩)
  | disarm {σ' τ vs' t'} (hop : OpAt t.image.chunk t.ip .tryExit)
    (hstands : Stands R L σ' ls vs' t') (htries : σ.tries = τ :: σ'.tries)
    (hhandler : t'.handler = none) (hip : t.ip < t'.ip) :
    Effect R host L σ ls t w (.ok none ⟨t', w⟩)
  | enter {σ' f p slots vs' result t' w'} (hop : OpAt t.image.chunk t.ip .call)
    (hwait : ∀ v, v.In R → AtSite R L (t.ip + 2) σ' ls (v :: vs'))
    (htries : σ'.tries = σ.tries) (hresult : ∀ v, result = some v → v.In R)
    (hstands : Stands R
      ⟨(L.stack ls vs').push (.function f),
        L.frames.push ⟨L.image, t.ip + 2, L.lower.size, t.handler, result⟩, L.windows, f.image, p,
        false⟩
      ⟨false, slots.length, [], []⟩ slots [] t')
    (hhandler : t'.handler = t.handler) (hw : w'.In R) :
    Effect R host L σ ls t w (.ok none ⟨t', w'⟩)
  | leave {v t'} (hop : OpAt t.image.chunk t.ip .ret) (hv : v.In R)
    (hend : L.top = true → Ends L.program t.ip ls.length) (hcarries : L.Carries R t')
    (hstack : t'.stack = L.stack ls []) (hip : t'.ip = t.ip + 1) :
    Effect R host L σ ls t w (doReturn host v ⟨t', w⟩)
  | load {σ' path image p vs' t'} (hop : OpAt t.image.chunk t.ip .importUnit)
    (hwait : AtSite R L (t.ip + 1) σ' ls vs') (htries : σ'.tries = σ.tries)
    (hstands : Stands R
      ⟨L.stack ls vs', L.frames,
        ⟨path, L.frames.size, (L.stack ls vs').size, L.image, t.ip + 1, L.lower.size, t.handler⟩
          :: L.windows, image, p, true⟩
      ⟨true, 0, [], []⟩ [] [] t')
    (hhandler : t'.handler = none) : Effect R host L σ ls t w (.ok none ⟨t', w⟩)
  | fail {e vs' t' w'} (he : e.internal = false) (hcarries : L.Carries R t')
    (hstack : t'.stack = L.stack ls vs') (hhandler : t'.handler = t.handler) (hw : w'.In R) :
    Effect R host L σ ls t w (.error e ⟨t', w'⟩)

section
variable {R : Realm} {host : Host} {L : Level} {σ σ' : Site} {ls vs vs' : List Value}
  {t t' : Thread} {w w' : World}

/-! ## Failures -/

theorem not_internal_of_addValues {a b : Value} {e : RuntimeError} (h : addValues a b = .error e) :
    e.internal = false := by
  unfold addValues at h
  split at h <;> cases h
  rfl

theorem not_internal_of_onNumbers {verb : String} {f : Number → Number → Value} {a b : Value}
    {e : RuntimeError} (h : onNumbers verb f a b = .error e) : e.internal = false := by
  unfold onNumbers at h
  split at h <;> cases h
  rfl

theorem not_internal_of_buildMap {vs : List Value} {m : Table MapKey Value} {e : RuntimeError}
    (h : buildMap vs m = .error e) : e.internal = false := by
  fun_induction buildMap vs m with
  | case1 k v rest m key hkey ih => exact ih h
  | case2 =>
    cases h
    rfl
  | case3 => cases h

theorem not_internal_of_propertyOf {heap : Heap} {v : Value} {name : String} {e : RuntimeError}
    (h : propertyOf heap v name = .error e) : e.internal = false := by
  unfold propertyOf at h
  split at h
  · unfold property at h
    split at h
    · cases h
    · split at h <;> cases h
      rfl
  · cases h
    rfl

theorem not_internal_of_jobOf {callee : Value} {args : List Value} {e : RuntimeError}
    (h : jobOf t callee args = .error e) : e.internal = false := by
  unfold jobOf at h
  split at h
  · cases h
  · split at h <;> cases h
    rfl
  · split at h <;> cases h
    rfl
  · cases h
    rfl

/-- The operators of the language give values of every realm and fail for the program's reasons. -/
theorem binaryValue_binaryOpcode (R : Realm) (op : BinaryOp) :
    ∃ f, binaryValue (binaryOpcode op) = some f ∧
      (∀ a b v, f a b = .ok v → v.In R) ∧ ∀ a b e, f a b = .error e → e.internal = false := by
  have hcompare : ∀ f : Number → Number → Bool,
      (∀ a b v, onNumbers "compare" (fun x y => .bool (f x y)) a b = .ok v → v.In R) ∧
        ∀ a b e, onNumbers "compare" (fun x y => .bool (f x y)) a b = .error e →
          e.internal = false := fun f =>
    ⟨fun _ _ _ h => in_of_onNumbers (fun _ _ => Value.in_bool _) h,
      fun _ _ _ h => not_internal_of_onNumbers h⟩
  have hcompute : ∀ verb (f : Number → Number → Number),
      (∀ a b v, onNumbers verb (fun x y => .number (f x y)) a b = .ok v → v.In R) ∧
        ∀ a b e, onNumbers verb (fun x y => .number (f x y)) a b = .error e →
          e.internal = false := fun verb f =>
    ⟨fun _ _ _ h => in_of_onNumbers (fun _ _ => Value.in_number _) h,
      fun _ _ _ h => not_internal_of_onNumbers h⟩
  cases op with
  | add => exact ⟨_, rfl, fun _ _ _ h => in_of_addValues h, fun _ _ _ h => not_internal_of_addValues h⟩
  | sub | mul | div => exact ⟨_, rfl, hcompute _ _⟩
  | lt | ltEq | gt | gtEq => exact ⟨_, rfl, hcompare _⟩
  | eq | notEq =>
    refine ⟨_, rfl, fun a b v h => ?_, fun a b e h => ?_⟩
    · cases h
      exact Value.in_bool _
    · cases h

/-! ## Parts of instructions -/

/-- Sites that differ in their temporaries only. -/
structure Site.Like (σ' σ : Site) : Prop where
  top : σ'.top = σ.top
  locals : σ'.locals = σ.locals
  tries : σ'.tries = σ.tries

theorem Level.Carries.of_eq (h : L.Carries R t) (hframes : t'.frames = t.frames)
    (hwindows : t'.windows = t.windows) (himage : t'.image = t.image) (hbase : t'.base = t.base)
    (hglobals : t'.globals.In R) : L.Carries R t' :=
  ⟨⟨hframes.trans h.tops.frames, hwindows.trans h.tops.windows⟩, himage.trans h.image,
    hbase.trans h.base, hglobals⟩

/-- A thread that has moved on in its code and changed its temporaries. -/
theorem Level.Carries.move (h : L.Carries R t) (a : Nat) (st : Array Value) :
    L.Carries R { t with ip := a, stack := st } :=
  h.of_eq rfl rfl rfl rfl h.globals

namespace Effect

/-- Going on with the same locals. -/
theorem on (hs : Stands R L σ ls vs t) (hset : ¬ OpAt t.image.chunk t.ip .setLocal)
    (hc : L.Carries R t') (hst : t'.stack = L.stack ls vs') (hh : t'.handler = t.handler)
    (hw : w'.In R) (hflow : Flow R L.program L.image (fun _ _ => False) t'.ip σ')
    (hlike : σ'.Like σ) (hip : Loops L.program ∨ t.ip < t'.ip) (htemps : Fits R σ'.temps vs') :
    Effect R host L σ ls t w (.ok none ⟨t', w'⟩) :=
  .go ⟨hc, hst, hs.site.next hflow hlike.top hlike.locals htemps⟩ hw hlike.tries hh
    (fun _ _ => (Thread.assign_of_not_opAt hset _).symm) hip

/-- The last part of many instructions. -/
theorem pushed {k : Kind} {v : Value} (hs : Stands R L σ ls vs t)
    (hset : ¬ OpAt t.image.chunk t.ip .setLocal) (hc : L.Carries R t')
    (hst : t'.stack = L.stack ls vs') (hh : t'.handler = t.handler) (hw : w'.In R)
    (hflow : Flow R L.program L.image (fun _ _ => False) t'.ip (σ'.push k)) (hlike : σ'.Like σ)
    (hip : t.ip < t'.ip) (htemps : Fits R σ'.temps vs') (hv : k.Fits R v) :
    Effect R host L σ ls t w (pushed host v t' w') := by
  unfold Machine.pushed
  split
  · exact .fail rfl hc hst hh hw
  · have hc' : L.Carries R { t' with stack := t'.stack.push v } :=
      hc.of_eq rfl rfl rfl rfl hc.globals
    have hst' : t'.stack.push v = L.stack ls (v :: vs') := by rw [Level.stack_cons, hst]
    have hfits : Fits R (σ'.push k).temps (v :: vs') := ⟨hv, htemps⟩
    exact on hs hset hc' hst' hh hw hflow ⟨hlike.top, hlike.locals, hlike.tries⟩ (.inr hip) hfits

theorem operated {r : Except RuntimeError Value} (hs : Stands R L σ ls vs t)
    (hset : ¬ OpAt t.image.chunk t.ip .setLocal) (hc : L.Carries R t')
    (hst : t'.stack = L.stack ls vs') (hh : t'.handler = t.handler) (hw : w'.In R)
    (hflow : Flow R L.program L.image (fun _ _ => False) t'.ip (σ'.push .any)) (hlike : σ'.Like σ)
    (hip : t.ip < t'.ip) (htemps : Fits R σ'.temps vs') (hok : ∀ v, r = .ok v → v.In R)
    (herr : ∀ e, r = .error e → e.internal = false) :
    Effect R host L σ ls t w (operated host r t' w') := by
  cases r with
  | ok v => exact pushed hs hset hc hst hh hw hflow hlike hip htemps (hok v rfl)
  | error e => exact .fail (herr e rfl) hc hst hh hw

end Effect

/-! ## Instructions that stay in the activation -/

section
variable {name : String} {k : Kind}

theorem constant_effect {c : Constant} (hs : Stands R L σ ls vs t) (hw : w.In R)
    (h : ConstAt t.image.chunk t.ip .constant c) (hc : k.Fits R (constantValue t.image c))
    (hnext : Flow R L.program L.image (fun _ _ => False) (t.ip + 2) (σ.push k)) :
    Effect R host L σ ls t w (instruction host ⟨t, w⟩) := by
  rw [instruction_constant host h]
  exact .pushed hs (h.opAt.ne nofun) (hs.carries.move _ _) hs.stack rfl hw hnext
    ⟨rfl, rfl, rfl⟩ (by simp) hs.site.temps hc

theorem getGlobal_effect (hs : Stands R L σ ls vs t) (hw : w.In R)
    (h : ConstAt t.image.chunk t.ip .getGlobal (.str name))
    (hnext : Flow R L.program L.image (fun _ _ => False) (t.ip + 2) (σ.push .any)) :
    Effect R host L σ ls t w (instruction host ⟨t, w⟩) := by
  rw [instruction_getGlobal host h]
  cases hv : t.globals.get? name with
  | none => exact .fail rfl (hs.carries.move _ _) hs.stack rfl hw
  | some v =>
    exact .pushed hs (h.opAt.ne nofun) (hs.carries.move _ _) hs.stack rfl hw hnext
      ⟨rfl, rfl, rfl⟩ (by simp) hs.site.temps (hs.carries.globals.get? hv)

theorem setGlobal_effect (hs : Stands R L (σ.push .any) ls vs t) (hw : w.In R)
    (h : ConstAt t.image.chunk t.ip .setGlobal (.str name))
    (hnext : Flow R L.program L.image (fun _ _ => False) (t.ip + 2) (σ.push .any)) :
    Effect R host L (σ.push .any) ls t w (instruction host ⟨t, w⟩) := by
  obtain ⟨v, vs, rfl, hstack, hv, -⟩ := hs.exists_push
  rw [instruction_setGlobal host h hstack]
  exact .on hs (h.opAt.ne nofun)
    (hs.carries.of_eq rfl rfl rfl rfl (hs.carries.globals.insert name hv)) hs.stack rfl hw hnext
    ⟨rfl, rfl, rfl⟩ (.inr (by simp)) hs.site.temps

theorem getLocal_effect {slot : Nat} (hs : Stands R L σ ls vs t) (hw : w.In R)
    (h : InstrAt t.image.chunk t.ip .getLocal slot) (hslot : slot < σ.locals)
    (hnext : Flow R L.program L.image (fun _ _ => False) (t.ip + 2) (σ.push .any)) :
    Effect R host L σ ls t w (instruction host ⟨t, w⟩) := by
  obtain ⟨v, hslot, hv⟩ := hs.exists_local hslot
  rw [instruction_getLocal host h hslot]
  exact .pushed hs (h.1.ne nofun) (hs.carries.move _ _) hs.stack rfl hw hnext
    ⟨rfl, rfl, rfl⟩ (by simp) hs.site.temps hv

theorem setLocal_effect {slot : Nat} (hs : Stands R L (σ.push .any) ls vs t) (hw : w.In R)
    (h : InstrAt t.image.chunk t.ip .setLocal slot) (hslot : slot < σ.locals)
    (hnext : Flow R L.program L.image (fun _ _ => False) (t.ip + 2) (σ.push .any)) :
    Effect R host L (σ.push .any) ls t w (instruction host ⟨t, w⟩) := by
  obtain ⟨v, vs, rfl, hstack, hv, -⟩ := hs.exists_push
  have hlt : slot < ls.length := hs.site.locals ▸ hslot
  rw [instruction_setLocal host h hstack (hs.lt_size hslot)]
  have hback : t.stack.back? = some v := by rw [hstack, Array.back?_push]
  have hst : t.stack.setIfInBounds (t.base + slot) v = L.stack (ls.set slot v) (v :: vs) := by
    rw [hs.stack, hs.carries.base, Level.stack_set hlt]
  have hsite : AtSite R L (t.ip + 2) (σ.push .any) (ls.set slot v) (v :: vs) := by
    refine ⟨hs.site.compiled, hnext, hs.site.top, ?_, fun u hu => ?_, hs.site.temps⟩
    · rw [List.length_set]
      exact hs.site.locals
    · rcases List.mem_or_eq_of_mem_set hu with hu | rfl
      · exact hs.site.localsIn u hu
      · exact hv
  refine .go ⟨hs.carries.move _ _, hst, hsite⟩ hw rfl rfl (fun m _ => ?_) (.inr (by simp))
  rw [Thread.assign_of_instrAt h hback, List.take_set]

theorem binary_effect {op : BinaryOp} (hs : Stands R L ((σ.push .any).push .any) ls vs t)
    (hw : w.In R) (h : OpAt t.image.chunk t.ip (binaryOpcode op))
    (hnext : Flow R L.program L.image (fun _ _ => False) (t.ip + 1) (σ.push .any)) :
    Effect R host L ((σ.push .any).push .any) ls t w (instruction host ⟨t, w⟩) := by
  obtain ⟨b, a, vs, rfl, hstack, hb, ha, htemps⟩ := hs.exists_push_push
  obtain ⟨f, hf, hok, herr⟩ := binaryValue_binaryOpcode R op
  rw [instruction_binary host h hf hstack]
  have hset : binaryOpcode op ≠ .setLocal := by cases op <;> nofun
  exact .operated hs (h.ne hset) (hs.carries.move _ _) rfl rfl hw hnext
    ⟨rfl, rfl, rfl⟩ (by simp) htemps (hok a b) (herr a b)

theorem unary_effect {op : UnaryOp} (hs : Stands R L (σ.push .any) ls vs t)
    (hw : w.In R) (h : OpAt t.image.chunk t.ip (unaryOpcode op))
    (hnext : Flow R L.program L.image (fun _ _ => False) (t.ip + 1) (σ.push .any)) :
    Effect R host L (σ.push .any) ls t w (instruction host ⟨t, w⟩) := by
  obtain ⟨v, vs, rfl, hstack, hv, htemps⟩ := hs.exists_push
  cases op with
  | neg =>
    rw [instruction_negate host h hstack]
    refine .operated hs (h.ne nofun) (hs.carries.move _ _) rfl rfl hw hnext
      ⟨rfl, rfl, rfl⟩ (by simp) htemps (fun u hu => ?_) fun e he => ?_
    · unfold negated at hu
      split at hu <;> cases hu
      exact Value.in_number _
    · unfold negated at he
      split at he <;> cases he
      rfl
  | not =>
    rw [instruction_not host h hstack]
    exact .pushed hs (h.ne nofun) (hs.carries.move _ _) rfl rfl hw hnext
      ⟨rfl, rfl, rfl⟩ (by simp) htemps (Value.in_bool _)

theorem print_effect (hs : Stands R L (σ.push .any) ls vs t) (hw : w.In R)
    (h : OpAt t.image.chunk t.ip .print)
    (hnext : Flow R L.program L.image (fun _ _ => False) (t.ip + 1) σ) :
    Effect R host L (σ.push .any) ls t w (instruction host ⟨t, w⟩) := by
  obtain ⟨v, vs, rfl, hstack, hv, htemps⟩ := hs.exists_push
  rw [instruction_print host h hstack]
  exact .on hs (h.ne nofun) (hs.carries.move _ _) rfl rfl ⟨hw.heap, hw.pending⟩ hnext
    ⟨rfl, rfl, rfl⟩ (.inr (by simp)) htemps

theorem pop_effect (hs : Stands R L (σ.push k) ls vs t) (hw : w.In R)
    (h : OpAt t.image.chunk t.ip .pop)
    (hnext : Flow R L.program L.image (fun _ _ => False) (t.ip + 1) σ) :
    Effect R host L (σ.push k) ls t w (instruction host ⟨t, w⟩) := by
  obtain ⟨v, vs, rfl, hstack, hv, htemps⟩ := hs.exists_push
  rw [instruction_pop host h hstack]
  exact .on hs (h.ne nofun) (hs.carries.move _ _) rfl rfl hw hnext
    ⟨rfl, rfl, rfl⟩ (.inr (by simp)) htemps

/-- The variable of a handler goes out of scope. -/
theorem unbind_effect {b : Bool} {n : Nat} {ts : List Try}
    (hs : Stands R L ⟨b, n + 1, [], ts⟩ ls vs t) (hw : w.In R) (h : OpAt t.image.chunk t.ip .pop)
    (hnext : Flow R L.program L.image (fun _ _ => False) (t.ip + 1) ⟨b, n, [], ts⟩) :
    Effect R host L ⟨b, n + 1, [], ts⟩ ls t w (instruction host ⟨t, w⟩) := by
  obtain ⟨ls, v, rfl, hn, hstack⟩ := hs.exists_newest
  rw [instruction_pop host h hstack]
  have hsite : AtSite R L (t.ip + 1) ⟨b, n, [], ts⟩ ls [] :=
    ⟨hs.site.compiled, hnext, hs.site.top, hn,
      fun u hu => hs.site.localsIn u (List.mem_append_left _ hu), trivial⟩
  refine .go ⟨hs.carries.move _ _, rfl, hsite⟩ hw rfl rfl (fun m hm => ?_) (.inr (by simp))
  rw [List.take_append_of_le_length (hn ▸ hm), Thread.assign_of_not_opAt (h.ne nofun)]

theorem jump_effect {target : Nat} (hs : Stands R L σ ls vs t) (hw : w.In R)
    (h : JumpAt t.image.chunk t.ip .jump target)
    (hnext : Flow R L.program L.image (fun _ _ => False) target σ)
    (hback : Loops L.program ∨ t.ip < target) :
    Effect R host L σ ls t w (instruction host ⟨t, w⟩) := by
  rw [instruction_jump host h]
  exact .on hs (h.1.ne nofun) (hs.carries.move _ _) hs.stack rfl hw hnext ⟨rfl, rfl, rfl⟩ hback
    hs.site.temps

theorem jumpIfFalse_effect {target : Nat} (hs : Stands R L (σ.push .any) ls vs t) (hw : w.In R)
    (h : JumpAt t.image.chunk t.ip .jumpIfFalse target)
    (hnext : Flow R L.program L.image (fun _ _ => False) (t.ip + 2) σ)
    (htarget : Flow R L.program L.image (fun _ _ => False) target σ) (hforth : t.ip < target) :
    Effect R host L (σ.push .any) ls t w (instruction host ⟨t, w⟩) := by
  obtain ⟨v, vs, rfl, hstack, hv, htemps⟩ := hs.exists_push
  have hflow : Flow R L.program L.image (fun _ _ => False)
      (if v.isFalsey then target else t.ip + 2) σ := by
    cases v.isFalsey with
    | true => exact htarget
    | false => exact hnext
  have hip : t.ip < if v.isFalsey then target else t.ip + 2 := by
    split
    · exact hforth
    · omega
  rw [instruction_jumpIfFalse host h hstack]
  exact .on hs (h.1.ne nofun) (hs.carries.move _ _) rfl rfl hw hflow ⟨rfl, rfl, rfl⟩
    (.inr hip) htemps

/-! ## Lists, maps and objects -/

theorem buildList_effect {n : Nat} (hs : Stands R L (σ.pushes n) ls vs t) (hw : w.In R)
    (h : InstrAt t.image.chunk t.ip .buildList n)
    (hnext : Flow R L.program L.image (fun _ _ => False) (t.ip + 2) (σ.push .any)) :
    Effect R host L (σ.pushes n) ls t w (instruction host ⟨t, w⟩) := by
  obtain ⟨args, vs, rfl, hstack, rfl, hargs, htemps⟩ := hs.exists_pushes
  rw [instruction_buildList host h hstack]
  exact .pushed hs (h.1.ne nofun) (hs.carries.move _ _) rfl rfl hw hnext
    ⟨rfl, rfl, rfl⟩ (by simp) htemps (Value.in_list.mpr hargs)

theorem buildMap_effect {n : Nat} (hs : Stands R L (σ.pushes (n * 2)) ls vs t) (hw : w.In R)
    (h : InstrAt t.image.chunk t.ip .buildMap n)
    (hnext : Flow R L.program L.image (fun _ _ => False) (t.ip + 2) (σ.push .any)) :
    Effect R host L (σ.pushes (n * 2)) ls t w (instruction host ⟨t, w⟩) := by
  obtain ⟨args, vs, rfl, hstack, hlength, hargs, htemps⟩ := hs.exists_pushes
  rw [instruction_buildMap host h hlength hstack]
  refine .operated hs (h.1.ne nofun) (hs.carries.move _ _) rfl rfl hw hnext
    ⟨rfl, rfl, rfl⟩ (by simp) htemps (fun v hv => ?_) fun e he => ?_
  · cases hm : buildMap args {} with
    | ok m =>
      rw [hm] at hv
      cases hv
      exact Value.in_map.mpr (in_of_buildMap hargs (fun _ he => (List.not_mem_nil he).elim) hm)
    | error e =>
      rw [hm] at hv
      cases hv
  · cases hm : buildMap args {} with
    | ok m =>
      rw [hm] at he
      cases he
    | error e' =>
      rw [hm] at he
      cases he
      exact not_internal_of_buildMap hm

theorem classDef_effect (hobjects : R.objects) (hs : Stands R L σ ls vs t) (hw : w.In R)
    (h : ConstAt t.image.chunk t.ip .classDef (.str name))
    (hnext : Flow R L.program L.image (fun _ _ => False) (t.ip + 2) (σ.push .cls)) :
    Effect R host L σ ls t w (instruction host ⟨t, w⟩) := by
  obtain ⟨hclass, hheap⟩ := hw.heap.newClass hobjects name
  rw [instruction_classDef host h]
  exact .pushed hs (h.opAt.ne nofun)
    (hs.carries.of_eq rfl rfl rfl rfl
      (hs.carries.globals.insert name ((Value.in_classRef _).mpr hclass)))
    hs.stack rfl ⟨hheap, hw.pending⟩ hnext ⟨rfl, rfl, rfl⟩ (by simp) hs.site.temps ⟨_, rfl, hclass⟩

theorem method_effect (hs : Stands R L ((σ.push .cls).push .method) ls vs t) (hw : w.In R)
    (h : ConstAt t.image.chunk t.ip .method (.str name))
    (hnext : Flow R L.program L.image (fun _ _ => False) (t.ip + 2) (σ.push .cls)) :
    Effect R host L ((σ.push .cls).push .method) ls t w (instruction host ⟨t, w⟩) := by
  obtain ⟨_, _, vs, rfl, hstack, ⟨f, rfl, hf⟩, ⟨c, rfl, hc⟩, hrest⟩ := hs.exists_push_push
  rw [instruction_method host h hstack]
  exact .on hs (h.opAt.ne nofun) (hs.carries.move _ _) (Level.stack_cons _).symm rfl
    ⟨hw.heap.addMethod c name hf, hw.pending⟩ hnext
    ⟨rfl, rfl, rfl⟩ (.inr (by simp)) ⟨⟨c, rfl, hc⟩, hrest⟩

theorem getProperty_effect (hs : Stands R L (σ.push .any) ls vs t) (hw : w.In R)
    (h : ConstAt t.image.chunk t.ip .getProperty (.str name))
    (hnext : Flow R L.program L.image (fun _ _ => False) (t.ip + 2) (σ.push .any)) :
    Effect R host L (σ.push .any) ls t w (instruction host ⟨t, w⟩) := by
  obtain ⟨v, vs, rfl, hstack, hv, htemps⟩ := hs.exists_push
  rw [instruction_getProperty host h hstack]
  refine .operated hs (h.opAt.ne nofun) (hs.carries.move _ _) rfl rfl hw hnext
    ⟨rfl, rfl, rfl⟩ (by simp) htemps (fun u hu => ?_) fun e he => not_internal_of_propertyOf he
  unfold propertyOf at hu
  split at hu
  · exact hw.heap.property ((Value.in_inst _).mp hv) hu
  · cases hu

theorem setProperty_effect (hs : Stands R L ((σ.push .any).push .any) ls vs t) (hw : w.In R)
    (h : ConstAt t.image.chunk t.ip .setProperty (.str name))
    (hnext : Flow R L.program L.image (fun _ _ => False) (t.ip + 2) (σ.push .any)) :
    Effect R host L ((σ.push .any).push .any) ls t w (instruction host ⟨t, w⟩) := by
  obtain ⟨v, o, vs, rfl, hstack, hv, ho, hrest⟩ := hs.exists_push_push
  rw [instruction_setProperty host h hstack]
  cases o with
  | inst i =>
    exact .pushed hs (h.opAt.ne nofun) (hs.carries.move _ _) rfl rfl
      ⟨hw.heap.setField i name hv, hw.pending⟩ hnext ⟨rfl, rfl, rfl⟩ (by simp) hrest hv
  | _ => exact .fail rfl (hs.carries.move _ _) rfl rfl hw

end

/-! ## Handlers -/

theorem tryEnter_effect {b : Bool} {τ : Try} {ts : List Try}
    (hs : Stands R L ⟨b, τ.names.length, [], ts⟩ ls vs t)
    (h : JumpAt t.image.chunk t.ip .tryEnter τ.target) (ha : t.ip = τ.enter)
    (hnext : Flow R L.program L.image (fun _ _ => False) (t.ip + 2)
      ⟨b, τ.names.length, [], τ :: ts⟩) :
    Effect R host L ⟨b, τ.names.length, [], ts⟩ ls t w (instruction host ⟨t, w⟩) := by
  have hlocals : ls.length = τ.names.length := hs.site.locals
  have hstack : t.stack = L.stack ls [] := by rw [hs.stack, fits_nil hs.site.temps]
  rw [instruction_tryEnter host h]
  refine .arm h.1 ha hlocals hstack ⟨hs.carries.of_eq rfl rfl rfl rfl hs.carries.globals, hstack,
    hs.site.next hnext rfl rfl trivial⟩ rfl ?_ (by simp)
  simp only [Level.handler, hs.carries.image, hs.carries.base, hs.carries.tops.frames, hstack,
    Level.size_stack, hlocals]
  rfl

theorem tryExit_effect {b : Bool} {n : Nat} {τ : Try} {ts : List Try}
    (hs : Stands R L ⟨b, n, [], τ :: ts⟩ ls vs t) (h : OpAt t.image.chunk t.ip .tryExit)
    (hnext : Flow R L.program L.image (fun _ _ => False) (t.ip + 1) ⟨b, n, [], ts⟩) :
    Effect R host L ⟨b, n, [], τ :: ts⟩ ls t w (instruction host ⟨t, w⟩) := by
  rw [instruction_tryExit host h]
  exact .disarm h ⟨hs.carries.of_eq rfl rfl rfl rfl hs.carries.globals, hs.stack,
    hs.site.next hnext rfl rfl hs.site.temps⟩ rfl rfl (by simp)

/-! ## Calls and returns -/

/-- The last part of a call of a function. -/
theorem entered_effect (hR : R.OfCode) {m : Bool} {f : Function} {slots : List Value}
    {result : Option Value} (hop : OpAt t.image.chunk t.ip .call)
    (hwait : ∀ v, v.In R → AtSite R L (t.ip + 2) σ' ls (v :: vs')) (htries : σ'.tries = σ.tries)
    (hresult : ∀ v, result = some v → v.In R) (hf : IsCompiled R.program m f)
    (hslots : ∀ v ∈ slots, v.In R) (hlength : slots.length = f.arity + if m then 1 else 0)
    (hc : L.Carries R t') (hip : t'.ip = t.ip + 2) (hhandler : t'.handler = t.handler)
    (hw : w'.In R) :
    Effect R host L σ ls t w (entered host f slots result (L.stack ls vs') t' w') := by
  unfold entered
  simp only
  split
  · have hst : (L.stack ls vs').push (.function f) ++ slots.toArray =
        L.stack ls (slots.reverse ++ .function f :: vs') := by
      rw [Level.stack_append, Level.stack_cons]
    exact .fail rfl (hc.of_eq rfl rfl rfl rfl hc.globals) hst hhandler hw
  · obtain ⟨p, hentry⟩ := AtSite.entry hR hf hslots hlength
    refine .enter hop hwait htries hresult ⟨⟨⟨?_, hc.tops.windows⟩, rfl, ?_, hc.globals⟩, ?_,
      hentry _ _ _⟩ hhandler hw
    · simp only [hc.tops.frames, hc.image, hip, hc.base, hhandler]
    · simp only [Array.size_push]
    · simp only [Level.stack, List.reverse_nil, Array.append_empty]

theorem enteredWith_effect (hR : R.OfCode) {f : Function} {receiver : InstanceRef}
    {args : List Value} {result : Option Value} (hop : OpAt t.image.chunk t.ip .call)
    (hwait : ∀ v, v.In R → AtSite R L (t.ip + 2) σ' ls (v :: vs')) (htries : σ'.tries = σ.tries)
    (hresult : ∀ v, result = some v → v.In R) (hf : R.method f) (hargs : ∀ v ∈ args, v.In R)
    (hreceiver : R.HasInstance receiver) (hc : L.Carries R t') (hst : t'.stack = L.stack ls vs)
    (hip : t'.ip = t.ip + 2) (hhandler : t'.handler = t.handler) (hw : w'.In R) :
    Effect R host L σ ls t w
      (enteredWith host f receiver args result (L.stack ls vs') t' w') := by
  unfold enteredWith
  split
  · exact .fail rfl hc hst hhandler hw
  · next harity =>
    have hlength : (Value.inst receiver :: args).length = f.arity + if true then 1 else 0 := by
      rw [List.length_cons, Decidable.not_not.mp harity]
      rfl
    split
    · exact .fail rfl hc hst hhandler hw
    · refine entered_effect hR hop hwait htries hresult ((hR.method f).mp hf) (fun v hv => ?_)
        hlength hc hip hhandler hw
      rcases List.mem_cons.mp hv with rfl | hv
      · exact (Value.in_inst _).mpr hreceiver
      · exact hargs v hv

theorem call_effect (hR : R.OfCode) (hinert : host.InertIn R) {n : Nat}
    (hs : Stands R L ((σ.push .any).pushes n) ls vs t) (hw : w.In R)
    (h : InstrAt t.image.chunk t.ip .call n)
    (hnext : Flow R L.program L.image (fun _ _ => False) (t.ip + 2) (σ.push .any)) :
    Effect R host L ((σ.push .any).pushes n) ls t w (instruction host ⟨t, w⟩) := by
  obtain ⟨callee, args, vs, rfl, hstack, rfl, hcallee, hargs, htemps⟩ := hs.exists_call
  have hwait : ∀ v, v.In R → AtSite R L (t.ip + 2) (σ.push .any) ls (v :: vs) := fun v hv =>
    hs.site.next hnext rfl rfl ⟨hv, htemps⟩
  have hmove : L.Carries R { t with ip := t.ip + 2 } := hs.carries.move _ _
  have hset : ¬ OpAt t.image.chunk t.ip .setLocal := h.1.ne nofun
  rw [instruction_call host h hstack]
  cases callee with
  | function f =>
    simp only [called]
    split
    · exact .fail rfl hmove hs.stack rfl hw
    · next harity =>
      exact entered_effect hR h.1 hwait rfl (fun _ hv => by cases hv) ((hR.function f).mp ((Value.in_function f).mp
        hcallee)) hargs (Decidable.not_not.mp harity).symm hmove rfl rfl hw
  | bound receiver f =>
    obtain ⟨hreceiver, hf⟩ := (Value.in_bound receiver f).mp hcallee
    exact enteredWith_effect hR h.1 hwait rfl (fun _ hv => by cases hv) hf hargs hreceiver hmove hs.stack rfl rfl hw
  | native n =>
    simp only [called]
    rcases hcall : host.call n.builtin args w with ⟨r, w'⟩
    have hnative : R.native n.builtin := (Value.in_native n).mp hcallee
    have hw' : w'.In R := by
      refine ⟨hinert.heap hnative hcall hargs hw.heap, ?_⟩
      rw [hinert.pending hnative hcall]
      exact hw.pending
    cases r with
    | ok v =>
      exact .pushed hs hset (hs.carries.move _ _) rfl rfl hw' hnext ⟨rfl, rfl, rfl⟩ (by simp) htemps
        (hinert.result hnative hcall hargs hw.heap)
    | error message => exact .fail rfl (hs.carries.move _ _) rfl rfl hw'
  | classRef c =>
    have hclass : R.HasClass c := (Value.in_classRef c).mp hcallee
    obtain ⟨hi, hheap⟩ := hw.heap.newInstance hclass
    simp only [called]
    cases hinit : (w.heap.newInstance c).2.method? c "init" with
    | none =>
      exact .pushed hs hset (hs.carries.move _ _) rfl rfl ⟨hheap, hw.pending⟩ hnext
        ⟨rfl, rfl, rfl⟩ (by simp) htemps ((Value.in_inst _).mpr hi)
    | some init =>
      refine enteredWith_effect hR h.1 hwait rfl (fun v hv => ?_) (hheap.method hclass hinit)
        hargs hi hmove hs.stack rfl rfl ⟨hheap, hw.pending⟩
      cases hv
      exact (Value.in_inst _).mpr hi
  | _ => exact .fail rfl hmove hs.stack rfl hw

theorem ret_effect {b : Bool} {n : Nat} {ts : List Try}
    (hs : Stands R L ⟨b, n, [.any], ts⟩ ls vs t) (h : OpAt t.image.chunk t.ip .ret)
    (hend : b = true → Ends L.program t.ip n) :
    Effect R host L ⟨b, n, [.any], ts⟩ ls t w (instruction host ⟨t, w⟩) := by
  have hlocals : ls.length = n := hs.site.locals
  have htop : b = L.top := hs.site.top
  obtain ⟨v, rfl, hstack, hv⟩ := hs.exists_result
  rw [instruction_ret host h hstack]
  exact .leave h hv (fun hL => hlocals ▸ hend (htop.trans hL)) (hs.carries.move _ _) rfl rfl

/-! ## Imports and spawned calls -/

theorem importUnit_effect (hR : R.OfCode) (hload : host.LoadsFrom R.program)
    (hs : Stands R L (σ.push .any) ls vs t) (hw : w.In R)
    (h : OpAt t.image.chunk t.ip .importUnit)
    (hnext : Flow R L.program L.image (fun _ _ => False) (t.ip + 1) σ) :
    Effect R host L (σ.push .any) ls t w (instruction host ⟨t, w⟩) := by
  obtain ⟨path, vs, rfl, hstack, hpath, htemps⟩ := hs.exists_push
  rw [instruction_importUnit host h hstack, beginImport_then_none]
  cases hloader : host.loader with
  | none => exact .fail rfl (hs.carries.move _ _) rfl rfl hw
  | some load =>
    simp only
    split
    · exact .fail rfl (hs.carries.move _ _) rfl rfl hw
    · cases hchunk : load w.files path.text with
      | error message => exact .fail rfl (hs.carries.move _ _) rfl rfl hw
      | ok chunk =>
        obtain ⟨p, hc⟩ := hload load hloader w.files path.text chunk hchunk
        let image : Image := ⟨⟨t.id, t.loaded⟩, chunk⟩
        have hflow : Flow R p image (fun _ _ => False) 0 ⟨true, 0, [], []⟩ := program_flow hR hc
        have hwindows : (⟨path.text, t.frames.size, (L.stack ls vs).size, t.image, t.ip + 1, t.base,
            t.handler⟩ : Window) :: t.windows = ⟨path.text, L.frames.size, (L.stack ls vs).size,
            L.image, t.ip + 1, L.lower.size, t.handler⟩ :: L.windows := by
          rw [hs.carries.tops.frames, hs.carries.tops.windows, hs.carries.image, hs.carries.base]
        refine .load h (hs.site.next hnext rfl rfl htemps) rfl ⟨⟨⟨hs.carries.tops.frames, hwindows⟩,
          rfl, rfl, hs.carries.globals⟩, ?_, hc, hflow, rfl, rfl, nofun, trivial⟩ rfl
        simp [Level.stack]

/-- A spawned call runs on a thread of its own, from the entry of its function. -/
theorem in_of_child (hR : R.OfCode) {m : Bool} {f : Function} {slots : List Value}
    (hglobals : t.globals.In R) (hf : IsCompiled R.program m f) (hslots : ∀ v ∈ slots, v.In R)
    (hlength : slots.length = f.arity + if m then 1 else 0) :
    (Job.script (t.child f slots)).In R := by
  obtain ⟨p, hentry⟩ := AtSite.entry hR hf hslots hlength
  refine ⟨rfl, rfl, p, slots, ⟨⟨rfl, rfl⟩, rfl, rfl, hglobals⟩, ?_, hentry _ _ _⟩
  simp [Thread.child, Level.stack, Level.ground]

theorem in_of_jobOf (hR : R.OfCode) {callee : Value} {args : List Value} {job : Job}
    (hglobals : t.globals.In R) (hcallee : callee.In R) (hargs : ∀ v ∈ args, v.In R)
    (h : jobOf t callee args = .ok job) : job.In R := by
  unfold jobOf at h
  split at h
  · cases h
    exact ⟨(Value.in_native _).mp hcallee, hargs⟩
  · next f =>
    split at h
    · cases h
    · next harity =>
      cases h
      exact in_of_child hR hglobals ((hR.function f).mp ((Value.in_function f).mp hcallee)) hargs
        (Decidable.not_not.mp harity).symm
  · next receiver f =>
    obtain ⟨hreceiver, hf⟩ := (Value.in_bound receiver f).mp hcallee
    split at h
    · cases h
    · next harity =>
      cases h
      refine in_of_child hR hglobals ((hR.method f).mp hf) (fun v hv => ?_) ?_
      · rcases List.mem_cons.mp hv with rfl | hv
        · exact (Value.in_inst _).mpr hreceiver
        · exact hargs v hv
      · rw [List.length_cons, Decidable.not_not.mp harity]
        rfl
  · cases h

theorem spawn_effect (hR : R.OfCode) {n : Nat}
    (hs : Stands R L ((σ.push .any).pushes n) ls vs t) (hw : w.In R)
    (h : InstrAt t.image.chunk t.ip .spawn n)
    (hnext : Flow R L.program L.image (fun _ _ => False) (t.ip + 2) (σ.push .any)) :
    Effect R host L ((σ.push .any).pushes n) ls t w (instruction host ⟨t, w⟩) := by
  obtain ⟨callee, args, vs, rfl, hstack, rfl, hcallee, hargs, htemps⟩ := hs.exists_call
  rw [instruction_spawn host h hstack]
  cases hjob : jobOf { t with ip := t.ip + 2, stack := L.stack ls vs } callee args with
  | error e => exact .fail (not_internal_of_jobOf hjob) (hs.carries.move _ _) rfl rfl hw
  | ok job =>
    have hin : job.In R := in_of_jobOf hR (by exact hs.carries.globals) hcallee hargs hjob
    refine .pushed hs (h.1.ne nofun) (hs.carries.of_eq rfl rfl rfl rfl hs.carries.globals) rfl rfl
      ⟨hw.heap, fun task htask => ?_⟩ hnext ⟨rfl, rfl, rfl⟩ (by simp) htemps Value.in_null
    rcases List.mem_append.mp htask with htask | htask
    · exact hw.pending task htask
    · cases List.mem_singleton.mp htask
      exact hin

/-! ## All instructions -/

/-- What the next instruction of compiled code can do. -/
theorem effect (hR : R.OfCode) (hinert : host.InertIn R) (hload : host.LoadsFrom R.program)
    (hs : Stands R L σ ls vs t) (hw : w.In R) :
    Effect R host L σ ls t w (instruction host ⟨t, w⟩) := by
  have hmove := hs.site.flow.point.move
  have himage := hs.carries.image
  cases hmove with
  | constant h hk hnext => exact constant_effect hs hw (himage ▸ h) (himage ▸ hk) hnext
  | methodConstant h hf hnext =>
    exact constant_effect (k := .method) hs hw (himage ▸ h) ⟨_, rfl, himage ▸ hf⟩ hnext
  | getGlobal h hnext => exact getGlobal_effect hs hw (himage ▸ h) hnext
  | setGlobal h hnext => exact setGlobal_effect hs hw (himage ▸ h) hnext
  | getLocal h hslot hnext => exact getLocal_effect hs hw (himage ▸ h) hslot hnext
  | setLocal h hslot hnext => exact setLocal_effect hs hw (himage ▸ h) hslot hnext
  | binary h hnext => exact binary_effect hs hw (himage ▸ h) hnext
  | unary h hnext => exact unary_effect hs hw (himage ▸ h) hnext
  | print h hnext => exact print_effect hs hw (himage ▸ h) hnext
  | pop h hnext => exact pop_effect hs hw (himage ▸ h) hnext
  | unbind h hnext => exact unbind_effect hs hw (himage ▸ h) hnext
  | jump h hnext hback => exact jump_effect hs hw (himage ▸ h) hnext hback
  | jumpIfFalse h hnext htarget hforth =>
    exact jumpIfFalse_effect hs hw (himage ▸ h) hnext htarget hforth
  | ret h hend => exact ret_effect hs (himage ▸ h) hend
  | buildList h hnext => exact buildList_effect hs hw (himage ▸ h) hnext
  | buildMap h hnext => exact buildMap_effect hs hw (himage ▸ h) hnext
  | importUnit h hnext => exact importUnit_effect hR hload hs hw (himage ▸ h) hnext
  | classDef h hobjects hnext => exact classDef_effect hobjects hs hw (himage ▸ h) hnext
  | method h hnext => exact method_effect hs hw (himage ▸ h) hnext
  | getProperty h hnext => exact getProperty_effect hs hw (himage ▸ h) hnext
  | setProperty h hnext => exact setProperty_effect hs hw (himage ▸ h) hnext
  | call h hnext => exact call_effect hR hinert hs hw (himage ▸ h) hnext
  | spawn h hnext => exact spawn_effect hR hs hw (himage ▸ h) hnext
  | tryEnter h ha hnext => exact tryEnter_effect hs (himage ▸ h) ha hnext
  | tryExit h hnext => exact tryExit_effect hs (himage ▸ h) hnext

end

end DotScript.Machine
