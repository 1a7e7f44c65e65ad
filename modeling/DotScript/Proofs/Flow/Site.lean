import DotScript.Machine.Step
import DotScript.Proofs.Compile.Occurrence
import DotScript.Proofs.Machine.Realm

/-!
# What is known at each instruction

A `Site` says what stands above the base when control comes to an address: how many locals, what
kind of temporaries, and in which bodies of `try` statements of the same activation the address
lies. `Point` holds of an instruction that finds on the stack what it takes and leaves what the
addresses behind it expect. `Flow` holds of a site from which only points are reached; the code may
jump back, so it is a greatest fixed point, relative to addresses assumed to be fine.
-/

namespace DotScript.Machine

open DotScript.Bytecode DotScript.Compile DotScript.Syntax

/-! ## Functions with compiled code -/

/-- A chunk is what one of some programs compiles to. -/
structure CompiledFrom (programs : Program → Prop) (p : Program) (c : Chunk) : Prop where
  program : programs p
  compiled : ∃ name, compile p name = .ok c

/-- A function is one that one of some programs declares, and its code is that of the
declaration. -/
def IsCompiled (programs : Program → Prop) (isMethod : Bool) (f : Function) : Prop :=
  ∃ p x decl, CompiledFrom programs p f.image.chunk ∧ Occurs p x (.function isMethod decl) ∧
    f.name = decl.name.name ∧ f.arity = decl.params.length ∧ f.entry = x.address + 2

/-- A realm whose functions and methods are those of its programs, and which has classes if a
program declares one. -/
structure Realm.OfCode (R : Realm) : Prop where
  function : ∀ f, R.function f ↔ IsCompiled R.program false f
  method : ∀ f, R.method f ↔ IsCompiled R.program true f
  objects : ∀ {p x name ms span}, R.program p → Occurs p x (.stmt (.classDecl name ms span)) →
    R.objects

/-! ## Sites -/

/-- What kind of value a temporary is. -/
inductive Kind
  | any
  /-- A class whose methods are being added. -/
  | cls
  /-- A function about to become a method. -/
  | method

/-- A `try` statement, the locals around it, and the address of its code. -/
structure Try where
  names : List String
  body : Block
  errorVar : Ident
  handler : Block
  span : Text.Span
  enter : Nat

namespace Try

/-- The statement. -/
def stmt (τ : Try) : Stmt := .tryCatch τ.body τ.errorVar τ.handler τ.span

/-- Where the body ends. -/
def exit (τ : Try) : Nat := τ.enter + 2 + τ.body.width

/-- Where the code of the handler begins. -/
def target (τ : Try) : Nat := τ.enter + 2 + τ.body.width + 3

end Try

/-- What is known when control comes to an address. -/
structure Site where
  /-- Whether it is code of the program itself and not of a function. -/
  top : Bool
  locals : Nat
  /-- The temporaries, the newest first. -/
  temps : List Kind
  /-- The `try` statements of the same activation whose bodies these are, the innermost first. -/
  tries : List Try

namespace Site

def push (σ : Site) (k : Kind) : Site := { σ with temps := k :: σ.temps }

def pushes (σ : Site) (n : Nat) : Site := { σ with temps := List.replicate n .any ++ σ.temps }

/-- Where a failure in the body of `τ` arrives; the message is one more local. -/
def caught (σ : Site) (τ : Try) (outer : List Try) : Site := ⟨σ.top, τ.names.length + 1, [], outer⟩

end Site

section
variable (R : Realm) (p : Program) (i : Image) (K : Nat → Site → Prop)

/-- The addresses from `lo` to `hi` lie in the body of the innermost `try`, and its handler is
fine. -/
def Guarded (lo hi : Nat) (σ : Site) : Prop :=
  ∀ τ outer, σ.tries = τ :: outer →
    τ.enter + 2 ≤ lo ∧ hi ≤ τ.exit ∧ τ.names.length ≤ σ.locals ∧ K τ.target (σ.caught τ outer) ∧
      ∃ k, Occurs p ⟨σ.top, k, τ.names, τ.enter⟩ (.stmt τ.stmt)

/-- Where a program ends: at a return with that many handlers around it, or behind its last
statement. -/
inductive Ends (a handlers : Nat) : Prop
  | ret {ns b value span} (h : Occurs p ⟨true, handlers, ns, b⟩ (.stmt (.ret value span)))
    (ha : a = b + optionalWidth value)
  | last (ha : a = stmtsWidth p.stmts + 2) (h : handlers = 0)

/-- A `while` statement stands in a program. -/
def Loops (p : Program) : Prop := ∃ x cond body span, Occurs p x (.stmt (.whileLoop cond body span))

/-- An instruction finds what it takes at a site, and `K` holds wherever it leads. Only loops jump
back. -/
inductive Move (a : Nat) : Site → Prop
  | constant {σ : Site} {k} (h : ConstAt i.chunk a .constant k) (hk : (constantValue i k).In R)
    (hnext : K (a + 2) (σ.push .any)) : Move a σ
  | methodConstant {σ : Site} {f} (h : ConstAt i.chunk a .constant (.function f))
    (hf : R.method ⟨f.name, f.arity, f.entry, i⟩) (hnext : K (a + 2) (σ.push .method)) : Move a σ
  | getGlobal {σ : Site} {name} (h : ConstAt i.chunk a .getGlobal (.str name))
    (hnext : K (a + 2) (σ.push .any)) : Move a σ
  | setGlobal {σ : Site} {name} (h : ConstAt i.chunk a .setGlobal (.str name))
    (hnext : K (a + 2) (σ.push .any)) : Move a (σ.push .any)
  | getLocal {σ : Site} {slot} (h : InstrAt i.chunk a .getLocal slot) (hslot : slot < σ.locals)
    (hnext : K (a + 2) (σ.push .any)) : Move a σ
  | setLocal {σ : Site} {slot} (h : InstrAt i.chunk a .setLocal slot) (hslot : slot < σ.locals)
    (hnext : K (a + 2) (σ.push .any)) : Move a (σ.push .any)
  | binary {σ : Site} {op : BinaryOp} (h : OpAt i.chunk a (binaryOpcode op))
    (hnext : K (a + 1) (σ.push .any)) : Move a ((σ.push .any).push .any)
  | unary {σ : Site} {op : UnaryOp} (h : OpAt i.chunk a (unaryOpcode op))
    (hnext : K (a + 1) (σ.push .any)) : Move a (σ.push .any)
  | print {σ : Site} (h : OpAt i.chunk a .print) (hnext : K (a + 1) σ) : Move a (σ.push .any)
  | pop {σ : Site} {k} (h : OpAt i.chunk a .pop) (hnext : K (a + 1) σ) : Move a (σ.push k)
  /-- The newest local goes out of scope. -/
  | unbind {b n ts} (h : OpAt i.chunk a .pop) (hnext : K (a + 1) ⟨b, n, [], ts⟩) :
    Move a ⟨b, n + 1, [], ts⟩
  | jump {σ : Site} {target} (h : JumpAt i.chunk a .jump target) (hnext : K target σ)
    (hback : Loops p ∨ a < target) : Move a σ
  | jumpIfFalse {σ : Site} {target} (h : JumpAt i.chunk a .jumpIfFalse target) (hnext : K (a + 2) σ)
    (htarget : K target σ) (hforth : a < target) : Move a (σ.push .any)
  | ret {b n ts} (h : OpAt i.chunk a .ret) (hend : b = true → Ends p a n)
    (hbody : b = false → a < stmtsWidth p.stmts) : Move a ⟨b, n, [.any], ts⟩
  | buildList {σ : Site} {n} (h : InstrAt i.chunk a .buildList n) (hnext : K (a + 2) (σ.push .any)) :
    Move a (σ.pushes n)
  | buildMap {σ : Site} {n} (h : InstrAt i.chunk a .buildMap n) (hnext : K (a + 2) (σ.push .any)) :
    Move a (σ.pushes (n * 2))
  | importUnit {σ : Site} (h : OpAt i.chunk a .importUnit) (hnext : K (a + 1) σ) : Move a (σ.push .any)
  | classDef {σ : Site} {name} (h : ConstAt i.chunk a .classDef (.str name)) (hobjects : R.objects)
    (hnext : K (a + 2) (σ.push .cls)) : Move a σ
  | method {σ : Site} {name} (h : ConstAt i.chunk a .method (.str name))
    (hnext : K (a + 2) (σ.push .cls)) : Move a ((σ.push .cls).push .method)
  | getProperty {σ : Site} {name} (h : ConstAt i.chunk a .getProperty (.str name))
    (hnext : K (a + 2) (σ.push .any)) : Move a (σ.push .any)
  | setProperty {σ : Site} {name} (h : ConstAt i.chunk a .setProperty (.str name))
    (hnext : K (a + 2) (σ.push .any)) : Move a ((σ.push .any).push .any)
  | call {σ : Site} {n} (h : InstrAt i.chunk a .call n) (hnext : K (a + 2) (σ.push .any)) :
    Move a ((σ.push .any).pushes n)
  | spawn {σ : Site} {n} (h : InstrAt i.chunk a .spawn n) (hnext : K (a + 2) (σ.push .any)) :
    Move a ((σ.push .any).pushes n)
  | tryEnter {b ts} {τ : Try} (h : JumpAt i.chunk a .tryEnter τ.target) (ha : a = τ.enter)
    (hnext : K (a + 2) ⟨b, τ.names.length, [], τ :: ts⟩) : Move a ⟨b, τ.names.length, [], ts⟩
  | tryExit {b n τ ts} (h : OpAt i.chunk a .tryExit) (hnext : K (a + 1) ⟨b, n, [], ts⟩) :
    Move a ⟨b, n, [], τ :: ts⟩

/-- An instruction that is fine at a site. -/
structure Point (a : Nat) (σ : Site) : Prop where
  guarded : Guarded p K a a σ
  move : Move R p i K a σ

/-- Only points are reached from a site, apart from those that `K` assumes. -/
def Flow (a : Nat) (σ : Site) : Prop :=
  ∃ P : Nat → Site → Prop, P a σ ∧
    ∀ b ρ, P b ρ → Point R p i (fun b ρ => P b ρ ∨ K b ρ) b ρ

/-- A site is assumed to be fine, or only points are reached from it. -/
def Fine (a : Nat) (σ : Site) : Prop := K a σ ∨ Flow R p i K a σ

end

section
variable {R : Realm} {p : Program} {i : Image} {K K' : Nat → Site → Prop} {a lo hi : Nat} {σ : Site}

theorem Guarded.mono (h : Guarded p K lo hi σ) (hK : ∀ b ρ, K b ρ → K' b ρ) :
    Guarded p K' lo hi σ := by
  intro τ outer hτ
  obtain ⟨hlo, hhi, hlocals, htarget, hocc⟩ := h τ outer hτ
  exact ⟨hlo, hhi, hlocals, hK _ _ htarget, hocc⟩

theorem Move.mono (h : Move R p i K a σ) (hK : ∀ b ρ, K b ρ → K' b ρ) : Move R p i K' a σ := by
  cases h with
  | constant h hk hnext => exact .constant h hk (hK _ _ hnext)
  | methodConstant h hf hnext => exact .methodConstant h hf (hK _ _ hnext)
  | getGlobal h hnext => exact .getGlobal h (hK _ _ hnext)
  | setGlobal h hnext => exact .setGlobal h (hK _ _ hnext)
  | getLocal h hslot hnext => exact .getLocal h hslot (hK _ _ hnext)
  | setLocal h hslot hnext => exact .setLocal h hslot (hK _ _ hnext)
  | binary h hnext => exact .binary h (hK _ _ hnext)
  | unary h hnext => exact .unary h (hK _ _ hnext)
  | print h hnext => exact .print h (hK _ _ hnext)
  | pop h hnext => exact .pop h (hK _ _ hnext)
  | unbind h hnext => exact .unbind h (hK _ _ hnext)
  | jump h hnext hback => exact .jump h (hK _ _ hnext) hback
  | jumpIfFalse h hnext htarget hforth =>
    exact .jumpIfFalse h (hK _ _ hnext) (hK _ _ htarget) hforth
  | ret h hend hbody => exact .ret h hend hbody
  | buildList h hnext => exact .buildList h (hK _ _ hnext)
  | buildMap h hnext => exact .buildMap h (hK _ _ hnext)
  | importUnit h hnext => exact .importUnit h (hK _ _ hnext)
  | classDef h hobjects hnext => exact .classDef h hobjects (hK _ _ hnext)
  | method h hnext => exact .method h (hK _ _ hnext)
  | getProperty h hnext => exact .getProperty h (hK _ _ hnext)
  | setProperty h hnext => exact .setProperty h (hK _ _ hnext)
  | call h hnext => exact .call h (hK _ _ hnext)
  | spawn h hnext => exact .spawn h (hK _ _ hnext)
  | tryEnter h ha hnext => exact .tryEnter h ha (hK _ _ hnext)
  | tryExit h hnext => exact .tryExit h (hK _ _ hnext)

/-- A move is that of an instruction. -/
theorem Move.exists_opAt (h : Move R p i K a σ) : ∃ op, OpAt i.chunk a op := by
  cases h with
  | constant h | methodConstant h | getGlobal h | setGlobal h | classDef h | method h
  | getProperty h | setProperty h => exact ⟨_, h.opAt⟩
  | getLocal h | setLocal h | jump h | jumpIfFalse h | buildList h | buildMap h | call h | spawn h
  | tryEnter h => exact ⟨_, h.1⟩
  | binary h | unary h | print h | pop h | unbind h | ret h | importUnit h | tryExit h => exact ⟨_, h⟩

theorem Point.mono (h : Point R p i K a σ) (hK : ∀ b ρ, K b ρ → K' b ρ) : Point R p i K' a σ :=
  ⟨h.guarded.mono hK, h.move.mono hK⟩

namespace Flow

theorem mono (h : Flow R p i K a σ) (hK : ∀ b ρ, K b ρ → K' b ρ) : Flow R p i K' a σ := by
  obtain ⟨P, hP, hclosed⟩ := h
  exact ⟨P, hP, fun b ρ hb => (hclosed b ρ hb).mono fun b ρ => Or.imp_right (hK b ρ)⟩

/-- An instruction followed by fine sites. -/
theorem of_point (h : Point R p i (Fine R p i K) a σ) : Flow R p i K a σ := by
  refine ⟨fun b ρ => (b = a ∧ ρ = σ) ∨ Flow R p i K b ρ, .inl ⟨rfl, rfl⟩, ?_⟩
  rintro b ρ (⟨rfl, rfl⟩ | ⟨P, hP, hclosed⟩)
  · exact h.mono fun b ρ hb => hb.elim .inr fun hb => .inl (.inr hb)
  · exact (hclosed b ρ hP).mono fun b ρ hb =>
      hb.elim (fun hb => .inl (.inr ⟨P, hb, hclosed⟩)) .inr

/-- Where no sites are assumed, an instruction is followed by sites of the same kind. -/
theorem point (h : Flow R p i (fun _ _ => False) a σ) :
    Point R p i (Flow R p i fun _ _ => False) a σ := by
  obtain ⟨P, hP, hclosed⟩ := h
  exact (hclosed a σ hP).mono fun b ρ hb => hb.elim (fun hb => ⟨P, hb, hclosed⟩) False.elim

/-- A site may be assumed for the code that comes back to it. -/
theorem of_cycle (h : Flow R p i (fun b ρ => K b ρ ∨ (b = a ∧ ρ = σ)) a σ) : Flow R p i K a σ := by
  obtain ⟨P, hP, hclosed⟩ := h
  refine ⟨P, hP, fun b ρ hb => (hclosed b ρ hb).mono ?_⟩
  rintro b ρ (hb | hb | ⟨rfl, rfl⟩)
  · exact .inl hb
  · exact .inr hb
  · exact .inl hP

end Flow

namespace Fine

theorem mono (h : Fine R p i K a σ) (hK : ∀ b ρ, K b ρ → K' b ρ) : Fine R p i K' a σ :=
  h.imp (hK a σ) fun h => h.mono hK

end Fine

/-- A part of a guarded range. -/
theorem Guarded.sub {lo' hi' : Nat} (h : Guarded p K lo hi σ) (hlo : lo ≤ lo') (hhi : hi' ≤ hi) :
    Guarded p K lo' hi' σ := by
  intro τ outer hτ
  obtain ⟨h₁, h₂, h₃, h₄, h₅⟩ := h τ outer hτ
  exact ⟨by omega, by omega, h₃, h₄, h₅⟩

/-- Temporaries are of no account. -/
theorem Guarded.push (h : Guarded p K lo hi σ) (k : Kind) : Guarded p K lo hi (σ.push k) := h

theorem Guarded.pushes (h : Guarded p K lo hi σ) (n : Nat) : Guarded p K lo hi (σ.pushes n) := h

end

end DotScript.Machine
