import DotScript.Proofs.Machine.Effect
import DotScript.Proofs.Arrays

/-!
# Activations on top of each other

A running thread is a tower of activations: at the ground one that nothing is below, and each other
one entered by a call or an import of the activation below it. A handler that an activation holds
was armed in the body of one of its own `try` statements that it is still in, or was passed on by
its caller.

* `Held`: the handlers that an activation may hold;
* `Tower`: the activations of a thread, each with all that it needs to go on;
* `Tower.leave`, `Tower.close`, `Tower.raise`: what is on top after a return, the end of an import,
  and a failure.

What is known of the handlers of an activation is a parameter, `Q`.
-/

namespace DotScript.Machine

open DotScript.Bytecode DotScript.Compile DotScript.Syntax

/-! ## Live activations -/

/-- An activation is live on a thread: neither its frames nor its imports have gone. -/
structure Level.LiveIn (L : Level) (t : Thread) : Prop where
  frames : L.frames.toList <+: t.frames.toList
  windows : L.windows <:+ t.windows

/-- A handler is saved in a frame or an import below an activation. -/
def Level.Saves (L : Level) (h : Handler) : Prop :=
  (∃ f ∈ L.frames, f.handler = some h) ∨ ∃ w ∈ L.windows, w.handler = some h

/-- How many activations are below. -/
def Level.height (L : Level) : Nat := L.frames.size + L.windows.length

/-- An activation and what it stands upon: `L` is below `L'` or the same. -/
structure Level.Under (L L' : Level) : Prop where
  frames : L.frames.toList <+: L'.frames.toList
  windows : L.windows <:+ L'.windows

theorem Level.Under.trans {L L' L'' : Level} (h : L.Under L') (h' : L'.Under L'') : L.Under L'' :=
  ⟨h.frames.trans h'.frames, h.windows.trans h'.windows⟩

theorem Level.Under.liveIn {L L' : Level} {t : Thread} (h : L.Under L') (ht : L'.LiveIn t) :
    L.LiveIn t :=
  ⟨h.frames.trans ht.frames, h.windows.trans ht.windows⟩

theorem Level.Tops.liveIn {L : Level} {t : Thread} (h : L.Tops t) : L.LiveIn t where
  frames := h.frames ▸ List.prefix_refl _
  windows := h.windows ▸ List.suffix_refl _

/-! ## Handlers -/

/-- The handlers that an activation may hold in the bodies `ts`: none, that of the innermost body,
or that of the caller. -/
inductive Held (Q : Level → Try → List Value → Prop) (L : Level) (inherited : Option Handler)
    (ls : List Value) : List Try → Option Handler → Prop
  | none {ts} : Held Q L inherited ls ts none
  | own {τ ts} (h : Q L τ (ls.take τ.names.length)) :
    Held Q L inherited ls (τ :: ts) (some (L.handler τ))
  | inherited {ts} : Held Q L inherited ls ts inherited

/-! ## Towers -/

/-- An activation upon others, the one below it first, and the handler it has inherited. -/
inductive Tower (R : Realm) (Q : Level → Try → List Value → Prop) :
    Level → List Level → Option Handler → Prop
  | ground {image p b} : Tower R Q (.ground image p b) [] none
  | call {L Ls inherited a σ ls vs handler result f image p} (below : Tower R Q L Ls inherited)
    (wait : ∀ v, v.In R → AtSite R L a σ ls (v :: vs)) (held : Held Q L inherited ls σ.tries handler)
    (result_in : ∀ v, result = some v → v.In R) :
    Tower R Q
      ⟨(L.stack ls vs).push f, L.frames.push ⟨L.image, a, L.lower.size, handler, result⟩, L.windows,
        image, p, false⟩
      (L :: Ls) handler
  | module {L Ls inherited a σ ls vs handler path image p} (below : Tower R Q L Ls inherited)
    (wait : AtSite R L a σ ls vs) (held : Held Q L inherited ls σ.tries handler) :
    Tower R Q
      ⟨L.stack ls vs, L.frames,
        ⟨path, L.frames.size, (L.stack ls vs).size, L.image, a, L.lower.size, handler⟩ :: L.windows,
        image, p, true⟩
      (L :: Ls) none

section
variable {R : Realm} {Q Q' : Level → Try → List Value → Prop} {L L' : Level} {Ls : List Level}
  {inherited : Option Handler}

/-- What is known of the innermost body may change. -/
theorem Held.map {ls ls' : List Value} {ts : List Try} {handler : Option Handler}
    (h : Held Q L inherited ls ts handler)
    (hQ : ∀ τ outer, ts = τ :: outer → handler = some (L.handler τ) →
      Q L τ (ls.take τ.names.length) → Q' L τ (ls'.take τ.names.length)) :
    Held Q' L inherited ls' ts handler := by
  cases h with
  | none => exact .none
  | own h => exact .own (hQ _ _ rfl rfl h)
  | inherited => exact .inherited

namespace Tower

/-- The activations of a tower are under the one on top. -/
theorem under (h : Tower R Q L Ls inherited) : ∀ L' ∈ Ls, L'.Under L := by
  induction h with
  | ground => nofun
  | @call L Ls inherited a σ ls vs handler result f image p below wait held hresult ih =>
    have hstep : L.Under ⟨(L.stack ls vs).push f, L.frames.push ⟨L.image, a, L.lower.size, handler,
        result⟩, L.windows, image, p, false⟩ := ⟨by simp, List.suffix_refl _⟩
    intro L' hL'
    rcases List.mem_cons.mp hL' with rfl | hL'
    · exact hstep
    · exact (ih L' hL').trans hstep
  | @module L Ls inherited a σ ls vs handler path image p below wait held ih =>
    have hstep : L.Under ⟨L.stack ls vs, L.frames, ⟨path, L.frames.size, (L.stack ls vs).size,
        L.image, a, L.lower.size, handler⟩ :: L.windows, image, p, true⟩ :=
      ⟨List.prefix_refl _, List.suffix_cons ..⟩
    intro L' hL'
    rcases List.mem_cons.mp hL' with rfl | hL'
    · exact hstep
    · exact (ih L' hL').trans hstep

theorem height_lt (h : Tower R Q L Ls inherited) : ∀ L' ∈ Ls, L'.height < L.height := by
  induction h with
  | ground => nofun
  | call below wait held hresult ih | module below wait held ih =>
    intro L' hL'
    simp only [Level.height, Array.size_push, List.length_cons] at ih ⊢
    rcases List.mem_cons.mp hL' with rfl | hL'
    · omega
    · have := ih L' hL'
      omega

/-- The imports in progress began at frames that are still there. -/
theorem floor_le (h : Tower R Q L Ls inherited) {w : Window} {outer : List Window}
    (hw : L.windows = w :: outer) : w.depth ≤ L.frames.size := by
  induction h with
  | ground => cases hw
  | call below wait held hresult ih =>
    have := ih hw
    simp only [Array.size_push]
    omega
  | module =>
    cases hw
    exact Nat.le_refl _

/-- What is known of saved handlers may change. -/
theorem map (h : Tower R Q L Ls inherited)
    (hQ : ∀ L' ∈ Ls, ∀ τ vs, Q L' τ vs → L.Saves (L'.handler τ) → Q' L' τ vs) :
    Tower R Q' L Ls inherited := by
  induction h with
  | ground => exact .ground
  | @call L Ls inherited a σ ls vs handler result f image p below wait held hresult ih =>
    have hbelow : Tower R Q' L Ls inherited := ih fun L' hL' τ vs' h hs =>
      hQ L' (List.mem_cons_of_mem _ hL') τ vs' h
        (hs.imp_left fun ⟨f, hf, heq⟩ => ⟨f, Array.mem_push_of_mem _ hf, heq⟩)
    refine .call hbelow wait (held.map fun τ outer hτ hhandler h => ?_) hresult
    exact hQ L List.mem_cons_self τ _ h (.inl ⟨_, Array.mem_push_self, hhandler⟩)
  | @module L Ls inherited a σ ls vs handler path image p below wait held ih =>
    have hbelow : Tower R Q' L Ls inherited := ih fun L' hL' τ vs' h hs =>
      hQ L' (List.mem_cons_of_mem _ hL') τ vs' h
        (hs.imp_right fun ⟨w, hw, heq⟩ => ⟨w, List.mem_cons_of_mem _ hw, heq⟩)
    refine .module hbelow wait (held.map fun τ outer hτ hhandler h => ?_)
    exact hQ L List.mem_cons_self τ _ h (.inr ⟨_, List.mem_cons_self, hhandler⟩)

end Tower

end

/-! ## Returns -/

/-- What a return from the activation on top of a tower leads to: the run or the module is over, or
the value is pushed for the caller. -/
inductive Returned (R : Realm) (Q : Level → Try → List Value → Prop) (host : Host) (L : Level)
    (Ls : List Level) (t : Thread) (w : World) (v : Value) : Result (Option Value) → Prop
  | ground (hLs : Ls = []) (hwindows : L.windows = []) :
    Returned R Q host L Ls t w v (.ok (some v) ⟨t, w⟩)
  | module {window outer} (hwindows : L.windows = window :: outer) :
    Returned R Q host L Ls t w v (.ok (some v) ⟨t, w⟩)
  | caller {L' Ls' inherited σ ls vs v' t'} (hLs : Ls = L' :: Ls')
    (hwindows : L.windows = L'.windows) (below : Tower R Q L' Ls' inherited)
    (wait : ∀ v, v.In R → AtSite R L' t'.ip σ ls (v :: vs))
    (held : Held Q L' inherited ls σ.tries t'.handler) (hv : v'.In R) (hcarries : L'.Carries R t')
    (hstack : t'.stack = L'.stack ls vs)
    (hframes : ∃ handler result,
      L.frames = L'.frames.push ⟨L'.image, t'.ip, L'.lower.size, handler, result⟩) :
    Returned R Q host L Ls t w v (pushed host v' t' w)

section
variable {R : Realm} {Q Q' : Level → Try → List Value → Prop} {L L' : Level} {Ls : List Level}
  {inherited : Option Handler} {a : Nat} {σ : Site} {ls vs : List Value} {t : Thread}

theorem prefix_stack_locals : (L.stack ls []).toList <+: (L.stack ls vs).toList := by
  simp [Level.stack]

theorem prefix_stack : L.lower.toList <+: (L.stack ls vs).toList := by
  simp [Level.stack]

namespace Tower

theorem leave (host : Host) (h : Tower R Q L Ls inherited) {w : World} {v : Value}
    (hc : L.Carries R t) (hst : t.stack = L.stack ls []) (hv : v.In R) :
    Returned R Q host L Ls t w v (doReturn host v ⟨t, w⟩) := by
  have hlower : L.lower.toList <+: t.stack.toList := hst ▸ prefix_stack
  cases h with
  | @ground image p b =>
    have hle : t.frames.size ≤ t.floor := by
      rw [hc.tops.frames]
      exact Nat.zero_le _
    rw [doReturn_of_le host v hle]
    exact .ground rfl rfl
  | @call L₀ Ls₀ inh a σ ls₀ vs₀ handler result f image p below wait held hresult =>
    have hle : t.floor ≤ L₀.frames.size := by
      unfold Thread.floor
      rw [hc.tops.windows]
      cases hw : L₀.windows with
      | nil => exact Nat.zero_le _
      | cons w outer => exact below.floor_le hw
    have hstack : t.stack.take (t.base - 1) = L₀.stack ls₀ vs₀ := by
      rw [hc.base, Array.size_push, Nat.add_sub_cancel]
      exact prefix_take_size ((prefix_push _ f).trans hlower)
    rw [doReturn_of_push host v hc.tops.frames hle]
    refine .caller rfl rfl below wait held ?_ ⟨⟨rfl, hc.tops.windows⟩, rfl, rfl, hc.globals⟩ hstack
      ⟨_, _, rfl⟩
    cases result with
    | none => exact hv
    | some r => exact hresult r rfl
  | @module L₀ Ls₀ inh a σ ls₀ vs₀ handler path image p below wait held =>
    have hle : t.frames.size ≤ t.floor := by
      refine Nat.le_of_eq ?_
      rw [Thread.floor, hc.tops.windows, hc.tops.frames]
    rw [doReturn_of_le host v hle]
    exact .module rfl

/-! ## The end of an import -/

/-- The importer goes on behind its import. -/
theorem close (h : Tower R Q L Ls inherited) {w : Window} {outer : List Window}
    (hw : L.windows = w :: outer) (hframes : L.frames.toList <+: t.frames.toList)
    (hstack : L.lower.toList <+: t.stack.toList) (hglobals : t.globals.In R) :
    ∃ L' Ls' inherited' σ ls vs, (L' :: Ls') <:+ Ls ∧ L'.windows = outer ∧
      Tower R Q L' Ls' inherited' ∧ Stands R L' σ ls vs (t.closeWindow w outer) ∧
      Held Q L' inherited' ls σ.tries w.handler := by
  induction h with
  | ground => cases hw
  | @call L Ls inh a σ ls vs handler result f image p below wait held hresult ih =>
    have hframes' : L.frames.toList <+: t.frames.toList := (prefix_push ..).trans hframes
    have hstack' : L.lower.toList <+: t.stack.toList :=
      (prefix_stack.trans (prefix_push _ f)).trans hstack
    obtain ⟨L', Ls', inh', σ', ls', vs', hsuffix, h⟩ := ih hw hframes' hstack'
    exact ⟨L', Ls', inh', σ', ls', vs', hsuffix.trans (List.suffix_cons ..), h⟩
  | @module L Ls inh a σ ls vs handler path image p below wait held =>
    cases hw
    refine ⟨L, Ls, inh, σ, ls, vs, List.suffix_refl _, rfl, below, ⟨⟨⟨?_, rfl⟩, rfl, rfl,
      hglobals⟩, ?_, wait⟩, held⟩
    · exact prefix_take_size hframes
    · exact prefix_take_size hstack

/-! ## Failures -/

/-- In the body of a `try` statement whose handler is in force. -/
theorem catch_own {τ : Try} {outer : List Try} (e : RuntimeError) (hsite : AtSite R L a σ ls vs)
    (hτ : σ.tries = τ :: outer)
    (hframes : L.frames.toList <+: t.frames.toList)
    (hstack : (L.stack ls []).toList <+: t.stack.toList) (hwindows : t.windows = L.windows)
    (hglobals : t.globals.In R) :
    (ls.take τ.names.length).length = τ.names.length ∧
      Stands R L ⟨L.top, τ.names.length + 1, [], outer⟩
        (ls.take τ.names.length ++ [.str e.message]) [] (t.enterHandler (L.handler τ) e) := by
  obtain ⟨-, -, hlocals, hflow, -⟩ := hsite.flow.point.guarded τ outer hτ
  have hle : τ.names.length ≤ ls.length := hsite.locals ▸ hlocals
  have hlength : (ls.take τ.names.length).length = τ.names.length := by
    rw [List.length_take, Nat.min_eq_left hle]
  have hcut : t.stack.take (L.lower.size + τ.names.length) =
      L.stack (ls.take τ.names.length) [] := by
    rw [prefix_take hstack (by rw [Level.size_stack]; omega), Level.take_stack hle]
  refine ⟨hlength, ⟨⟨prefix_take_size hframes, hwindows⟩, rfl, rfl, hglobals⟩, ?_, ?_⟩
  · rw [Level.stack_unbind, Level.stack_cons, ← hcut]
    rfl
  · refine ⟨hsite.compiled, hsite.top ▸ hflow, rfl, ?_, fun v hv => ?_, trivial⟩
    · rw [List.length_append, hlength, List.length_singleton]
    · rcases List.mem_append.mp hv with hv | hv
      · exact hsite.localsIn v (List.mem_of_mem_take hv)
      · cases List.mem_singleton.mp hv
        exact Value.in_str _

/-- The handler in force leads to an activation that is still there. -/
theorem find_handler (e : RuntimeError) {handler : Handler} (h : Tower R Q L Ls inherited)
    (hsite : AtSite R L a σ ls vs) (hheld : Held Q L inherited ls σ.tries (some handler))
    (hframes : L.frames.toList <+: t.frames.toList)
    (hstack : (L.stack ls []).toList <+: t.stack.toList) (hwindows : t.windows = L.windows)
    (hglobals : t.globals.In R) :
    ∃ L' Ls' inherited' τ outer vs', (L' :: Ls') <:+ (L :: Ls) ∧ L'.windows = L.windows ∧
      Tower R Q L' Ls' inherited' ∧ Q L' τ vs' ∧ vs'.length = τ.names.length ∧
      handler = L'.handler τ ∧ Stands R L' ⟨L'.top, τ.names.length + 1, [], outer⟩
        (vs' ++ [.str e.message]) [] (t.enterHandler handler e) := by
  -- An inherited handler is held by the activation below, so the induction is on the tower.
  have hown : ∀ {L Ls inherited a σ ls vs}, Tower R Q L Ls inherited → AtSite R L a σ ls vs →
      ∀ ts, σ.tries = ts → Held Q L inherited ls ts (some handler) →
      L.frames.toList <+: t.frames.toList → (L.stack ls []).toList <+: t.stack.toList →
      t.windows = L.windows → some handler = inherited ∨
      ∃ L' Ls' inherited' τ outer vs', (L' :: Ls') <:+ (L :: Ls) ∧ L'.windows = L.windows ∧
        Tower R Q L' Ls' inherited' ∧ Q L' τ vs' ∧ vs'.length = τ.names.length ∧
        handler = L'.handler τ ∧ Stands R L' ⟨L'.top, τ.names.length + 1, [], outer⟩
          (vs' ++ [.str e.message]) [] (t.enterHandler handler e) := by
    intro L Ls inherited a σ ls vs h hsite ts hts hheld hframes hstack hwindows
    cases hheld with
    | inherited => exact .inl rfl
    | @own τ outer hQ =>
      obtain ⟨hlength, hstands⟩ := catch_own e hsite hts hframes hstack hwindows hglobals
      exact .inr ⟨L, Ls, inherited, τ, outer, ls.take τ.names.length, List.suffix_refl _, rfl, h, hQ,
        hlength, rfl, hstands⟩
  induction h generalizing a σ ls vs with
  | ground =>
    rcases hown .ground hsite _ rfl hheld hframes hstack hwindows with h | h
    · cases h
    · exact h
  | @call L Ls inh a₀ σ₀ ls₀ vs₀ handler₀ result f image p below wait held hresult ih =>
    rcases hown (.call below wait held hresult) hsite _ rfl hheld hframes hstack hwindows with
      rfl | h
    · have hframes' : L.frames.toList <+: t.frames.toList := (prefix_push ..).trans hframes
      have hstack' : (L.stack ls₀ []).toList <+: t.stack.toList :=
        prefix_stack_locals.trans ((prefix_push _ f).trans (prefix_stack.trans hstack))
      obtain ⟨L', Ls', inh', τ, outer, vs', hsuffix, h⟩ :=
        ih (wait .null Value.in_null) held hframes' hstack' hwindows
      exact ⟨L', Ls', inh', τ, outer, vs', hsuffix.trans (List.suffix_cons ..), h⟩
    · exact h
  | @module L Ls inh a₀ σ₀ ls₀ vs₀ handler₀ path image p below wait held =>
    rcases hown (.module below wait held) hsite _ rfl hheld hframes hstack hwindows with h | h
    · cases h
    · exact h

end Tower

/-- The failure as it arrives: an import that it has left is a failure of the import. -/
def arrived : List Window → RuntimeError → RuntimeError
  | [], e => e
  | w :: ws, e => arrived ws (.importFailed w.path e.message)

/-- A failure has been caught: the activation whose handler was in force is on top, with the locals
around its `try` statement and the message of the failure. -/
inductive Caught (R : Realm) (Q : Level → Try → List Value → Prop) (Ls : List Level)
    (windows : List Window) (e : RuntimeError) (t : Thread) : Prop
  | mk {L Ls' inherited τ outer vs closed} (suffix : (L :: Ls') <:+ Ls)
    (tower : Tower R Q L Ls' inherited) (known : Q L τ vs) (length : vs.length = τ.names.length)
    (windows_eq : windows = closed ++ L.windows)
    (stands : Stands R L ⟨L.top, τ.names.length + 1, [], outer⟩
      (vs ++ [.str (arrived closed e).message]) [] t)
    (ip : t.ip = τ.target) (handler : t.handler = none)

theorem Tower.caught (h : Tower R Q L Ls inherited) (hsite : AtSite R L a σ ls vs)
    (hheld : Held Q L inherited ls σ.tries t.handler) (hframes : L.frames.toList <+: t.frames.toList)
    (hstack : (L.stack ls []).toList <+: t.stack.toList) (hwindows : t.windows = L.windows)
    (hglobals : t.globals.In R) (e : RuntimeError) {handler : Handler}
    (hhandler : t.handler = some handler) :
    Caught R Q (L :: Ls) t.windows e (t.enterHandler handler e) := by
  rw [hhandler] at hheld
  obtain ⟨L', Ls', inh', τ, outer, vs', hsuffix, hsame, htower, hQ, hlength, rfl, hstands⟩ :=
    h.find_handler e hsite hheld hframes hstack hwindows hglobals
  have hclosed : t.windows = [] ++ L'.windows := by rw [hsame, ← hwindows, List.nil_append]
  exact .mk hsuffix htower hQ hlength hclosed hstands rfl rfl

theorem Caught.mono {Ls' : List Level} {windows : List Window} {e : RuntimeError}
    (h : Caught R Q Ls' windows e t) (hsuffix : Ls' <:+ Ls) : Caught R Q Ls windows e t := by
  obtain ⟨hsuffix', htower, hknown, hlength, hwindows, hstands, hip, hhandler⟩ := h
  exact .mk (hsuffix'.trans hsuffix) htower hknown hlength hwindows hstands hip hhandler

/-- A failure is caught by an activation of the tower, or it ends the run. -/
theorem Tower.raise (h : Tower R Q L Ls inherited) (hsite : AtSite R L a σ ls vs)
    (hheld : Held Q L inherited ls σ.tries t.handler) (hframes : L.frames.toList <+: t.frames.toList)
    (hstack : (L.stack ls []).toList <+: t.stack.toList) (hwindows : t.windows = L.windows)
    (hglobals : t.globals.In R) (e : RuntimeError) :
    (∀ t', t.raise t.windows e = .ok t' → Caught R Q (L :: Ls) t.windows e t') ∧
      ∀ e' t', t.raise t.windows e = .error (e', t') → t'.windows = [] ∧ t'.globals.In R := by
  generalize hws : t.windows = ws
  induction ws generalizing L Ls inherited a σ ls vs t e with
  | nil =>
    cases hhandler : t.handler with
    | none =>
      simp only [Thread.raise, hhandler]
      refine ⟨nofun, fun e' t' h => ?_⟩
      cases h
      exact ⟨hws, hglobals⟩
    | some handler =>
      simp only [Thread.raise, hhandler]
      refine ⟨fun t' h' => ?_, nofun⟩
      cases h'
      exact hws ▸ h.caught hsite hheld hframes hstack hwindows hglobals e hhandler
  | cons w ws ih =>
    cases hhandler : t.handler with
    | some handler =>
      simp only [Thread.raise, hhandler]
      refine ⟨fun t' h' => ?_, nofun⟩
      cases h'
      exact hws ▸ h.caught hsite hheld hframes hstack hwindows hglobals e hhandler
    | none =>
      simp only [Thread.raise, hhandler]
      obtain ⟨L', Ls', inh', σ', ls', vs', hsuffix, houter, htower, hstands, hheld'⟩ :=
        h.close (hwindows.symm.trans hws) hframes (prefix_stack.trans hstack) hglobals
      have hframes' : L'.frames.toList <+: (t.closeWindow w ws).frames.toList :=
        hstands.carries.tops.frames ▸ List.prefix_refl _
      have hstack' : (L'.stack ls' []).toList <+: (t.closeWindow w ws).stack.toList :=
        hstands.stack ▸ prefix_stack_locals
      obtain ⟨hok, herror⟩ := ih htower hstands.site hheld' hframes' hstack' houter.symm hglobals
        (.importFailed w.path e.message) rfl
      refine ⟨fun t' h' => ?_, herror⟩
      obtain ⟨hsuffix', htower', hQ, hlength, hclosed, hstands', hip, hnone⟩ := hok t' h'
      have hclosed' := congrArg (w :: ·) hclosed
      rw [← List.cons_append] at hclosed'
      exact .mk (hsuffix'.trans (hsuffix.trans (List.suffix_cons ..))) htower' hQ hlength hclosed'
        hstands' hip hnone

end

end DotScript.Machine
