import DotScript.Proofs.Tails.Code

/-!
# Functions and their counterparts

The functions of two programs that are the same but for explicit returns, one by one in the order of
the text. They have the same names and parameters, different ones are told apart on both sides, and
their code goes in step.
-/

namespace DotScript.Machine

open DotScript.Bytecode DotScript.Syntax DotScript.Semantics
open DotScript.Compile hiding expr exprs pairs stmt stmts block program

/-- Functions with their counterparts in another program. -/
def counterparts (ds ds' : List Declared) : List (Function × Function) :=
  (ds.zip ds').map fun d => (d.1.function, d.2.function)

theorem mem_counterparts {ds ds' : List Declared} {p : Function × Function} :
    p ∈ counterparts ds ds' ↔ ∃ (k : Nat) (d d' : Declared),
      ds[k]? = some d ∧ ds'[k]? = some d' ∧ p = (d.function, d'.function) := by
  rw [counterparts, List.mem_map]
  constructor
  · rintro ⟨⟨d, d'⟩, hd, rfl⟩
    obtain ⟨k, hk⟩ := List.mem_iff_getElem?.mp hd
    obtain ⟨hk, hk'⟩ := List.getElem?_zip_eq_some.mp hk
    exact ⟨k, d, d', hk, hk', rfl⟩
  · rintro ⟨k, d, d', hd, hd', rfl⟩
    exact ⟨(d, d'), List.mem_of_getElem? (List.getElem?_zip_eq_some.mpr ⟨hd, hd'⟩), rfl⟩

theorem pairwise_zip {α β : Type} {R : α → α → Prop} {S : β → β → Prop} {xs : List α} {ys : List β}
    (hxs : xs.Pairwise R) (hys : ys.Pairwise S) :
    (xs.zip ys).Pairwise fun p q => R p.1 q.1 ∧ S p.2 q.2 := by
  induction hxs generalizing ys with
  | nil => exact .nil
  | @cons x xs hx _ ih =>
    cases hys with
    | nil => exact .nil
    | @cons y ys hy hys =>
      refine .cons (fun p hp => ?_) (ih hys)
      obtain ⟨hp₁, hp₂⟩ := List.of_mem_zip hp
      exact ⟨hx _ hp₁, hy _ hp₂⟩

section
variable {c c' : Chunk} {i j : Image} {lo hi lo' hi' : Nat} {ds ds' : List Declared}
  {decls decls' : List (Bool × FunctionDecl)} {G : Prototype → Prototype → Prop}
  {p : Function × Function}

/-- A declared function is that of its declaration. -/
theorem function_of_lists (h : Lists c i lo hi ds decls) {d : Declared} (hd : d ∈ ds) :
    d.function.image = i ∧ d.function.name = d.decl.name.name ∧
      d.function.arity = d.decl.params.length := by
  obtain ⟨k, hk⟩ := List.mem_iff_getElem?.mp hd
  obtain ⟨a, hdecl, -, -⟩ := (h.placed k d hk).code
  rw [hdecl]
  exact ⟨rfl, rfl, rfl⟩

theorem image_of_counterparts (h : Lists c i lo hi ds decls) (h' : Lists c' j lo' hi' ds' decls')
    (hp : p ∈ counterparts ds ds') : p.1.image = i ∧ p.2.image = j := by
  obtain ⟨k, d, d', hd, hd', rfl⟩ := mem_counterparts.mp hp
  exact ⟨(function_of_lists h (List.mem_of_getElem? hd)).1,
    (function_of_lists h' (List.mem_of_getElem? hd')).1⟩

/-- Functions are in the order of their addresses on both sides. -/
theorem pairwise_counterparts (h : Lists c i lo hi ds decls) (h' : Lists c' j lo' hi' ds' decls') :
    (counterparts ds ds').Pairwise fun p q => p.1.entry < q.1.entry ∧ p.2.entry < q.2.entry :=
  List.pairwise_map.mpr (pairwise_zip h.ordered h'.ordered)

theorem sameCode_eq_false_of_lt {f g : Function} (h : f.entry < g.entry) :
    f.sameCode g = false := by
  simp [Function.sameCode, Nat.ne_of_lt h]

theorem sameFunctions_of_counterparts (hlength : ds.length = ds'.length)
    (h : ∀ p ∈ counterparts ds ds', G (prototype p.1) (prototype p.2)) : SameFunctions G ds ds' := by
  refine List.forall₂_iff_zip.mpr ⟨hlength, fun {d d'} hd => ?_⟩
  exact h (d.function, d'.function) (List.mem_map.mpr ⟨(d, d'), hd, rfl⟩)

theorem functionDeclared_eq (image : Image) (a : Nat) (m : Bool) (decl : FunctionDecl) :
    functionDeclared image a m decl =
      declaredAt image m a decl :: valueDeclared image (a + 2) decl.body.stmts := by
  obtain ⟨name, params, ⟨body, bodySpan⟩, span⟩ := decl
  rw [functionDeclared]

/-- A part of the functions at the same place of the text. -/
theorem SameFunctions.of_prefix {es es' : List Declared} (h : SameFunctions G ds ds')
    (hes : es <+: ds) (hes' : es' <+: ds') (hlength : es.length = es'.length) :
    SameFunctions G es es' := by
  obtain ⟨rest, rfl⟩ := hes
  obtain ⟨rest', rfl⟩ := hes'
  exact (h.append hlength).1

variable (h : Lists c i lo hi ds decls) (h' : Lists c' j lo' hi' ds' decls')
  (hdecls : List.Forall₂ SameKind decls decls')
include h h' hdecls

theorem sameKind_of_counterparts {k : Nat} {d d' : Declared} (hd : ds[k]? = some d)
    (hd' : ds'[k]? = some d') : d.isMethod = d'.isMethod ∧ d.decl.Explicit d'.decl := by
  rw [← h.names, ← h'.names] at hdecls
  have hk := forall₂_iff_getElem?.mp hdecls k
  rw [List.getElem?_map, List.getElem?_map, hd, hd'] at hk
  cases hk with
  | some hk => exact hk

theorem header_of_counterparts (hp : p ∈ counterparts ds ds') :
    p.1.name = p.2.name ∧ p.1.arity = p.2.arity := by
  obtain ⟨k, d, d', hd, hd', rfl⟩ := mem_counterparts.mp hp
  obtain ⟨-, hname, harity⟩ := function_of_lists h (List.mem_of_getElem? hd)
  obtain ⟨-, hname', harity'⟩ := function_of_lists h' (List.mem_of_getElem? hd')
  obtain ⟨hnames, hparams⟩ := (sameKind_of_counterparts h h' hdecls hd hd').2.name_eq
  exact ⟨by rw [hname, hname', hnames], by rw [harity, harity', hparams]⟩

/-- The code of functions goes in step with that of their counterparts. -/
theorem inStep_of_counterparts (hG : SameFunctions G ds ds') (hp : p ∈ counterparts ds ds') :
    InStep G c c' (fun _ _ => False) p.1.entry p.2.entry := by
  obtain ⟨k, d, d', hd, hd', rfl⟩ := mem_counterparts.mp hp
  obtain ⟨hmethod, hdecl⟩ := sameKind_of_counterparts h h' hdecls hd hd'
  obtain ⟨a, hplace, hcode, hbody⟩ := (h.placed k d hd).code
  obtain ⟨b, hplace', hcode', hbody'⟩ := (h'.placed k d' hd').code
  rw [← hmethod] at hcode'
  have hlists : Lists c i a (a + d.decl.width) _ _ := function_lists d.isMethod d.decl hcode
  have hlists' : Lists c' j b (b + d'.decl.width) _ _ := function_lists d.isMethod d'.decl hcode'
  have hlength := length_eq_of_lists hlists hlists' (hdecl.declarations d.isMethod)
  rw [functionDeclared_eq, functionDeclared_eq] at hlength
  have hrest : SameFunctions G (ds.drop (k + 1)) (ds'.drop (k + 1)) := List.forall₂_drop (k + 1) hG
  have hinStep := function_inStep hdecl hcode hcode'
    (hrest.of_prefix hbody hbody' (Nat.succ.inj hlength))
  rwa [hplace, hplace']

end

end DotScript.Machine
