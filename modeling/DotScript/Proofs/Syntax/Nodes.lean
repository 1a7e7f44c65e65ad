import DotScript.Proofs.Syntax.Lossless

/-!
# The nodes of a program

Everything of a program that has a span is a `Node`; its children are the nodes it is made of, in the
order in which they stand in the text. `Sound` says how the spans of a node and of its children
relate, `Row` how nodes stand one behind the other between two offsets. A node is made of a row by
`Row.node` and taken apart into one by `Row.of_sound`, so that rows are all that the parser has to
keep account of.
-/

namespace DotScript.Syntax

open DotScript.Text

inductive Node
  | program (p : Program)
  | block (b : Block)
  | decl (d : FunctionDecl)
  | stmt (s : Stmt)
  | expr (e : Expr)
  | ident (id : Ident)

namespace Node

def span : Node → Span
  | program p => p.span
  | block b => b.span
  | decl d => d.span
  | stmt s => s.span
  | expr e => e.span
  | ident id => id.span

/-- The key and the value of a map entry. -/
def ofEntry (x : Expr × Expr) : List Node := [expr x.1, expr x.2]

/-- The nodes that a node is made of, in the order of the text. -/
def children : Node → List Node
  | program p => p.stmts.map stmt
  | block b => b.stmts.map stmt
  | decl d => ident d.name :: (d.params.map ident ++ [block d.body])
  | stmt (.expr e) => [expr e]
  | stmt (.print value _) => [expr value]
  | stmt (.function d) => [decl d]
  | stmt (.classDecl name methods _) => ident name :: methods.map decl
  | stmt (.block body) => [block body]
  | stmt (.ifElse cond thenBlock elseBlock _) =>
    expr cond :: block thenBlock :: elseBlock.toList.map block
  | stmt (.whileLoop cond body _) => [expr cond, block body]
  | stmt (.ret value _) => value.toList.map expr
  | stmt (.importUnit path _) => [expr path]
  | stmt (.tryCatch body errorVar handler _) => [block body, ident errorVar, block handler]
  | expr (.var id) => [ident id]
  | expr (.assign target value _) => [expr target, expr value]
  | expr (.set object name value _) => [expr object, ident name, expr value]
  | expr (.get object name _) => [expr object, ident name]
  | expr (.binary _ left right _) => [expr left, expr right]
  | expr (.unary _ operand _) => [expr operand]
  | expr (.call callee args _) => expr callee :: args.map expr
  | expr (.list elems _) => elems.map expr
  | expr (.map entries _) => entries.flatMap ofEntry
  | expr (.spawn call _) => [expr call]
  | _ => []

/-- The node itself, its children, their children and so on. -/
inductive Holds : Node → Node → Prop
  | self (n : Node) : Holds n n
  | child {n m k : Node} (hm : m ∈ n.children) (h : Holds m k) : Holds n k

end Node

/-! ## Spans of nodes -/

/-- A character of a text begins at the offset, or the text ends there. -/
def Edge (text : String) (pos : Nat) : Prop :=
  ∃ before after, text.toList = before ++ after ∧ byteLength before = pos

/-- A span is a part of a text that cuts no character. -/
structure Placed (text : String) (s : Span) : Prop where
  ordered : s.start ≤ s.stop
  within : s.stop.toNat ≤ text.utf8ByteSize
  start : Edge text s.start.toNat
  stop : Edge text s.stop.toNat

/-- How the spans of a node and of its children relate. -/
structure Node.Sound (text : String) (n : Node) : Prop where
  placed : Placed text n.span
  /-- The children lie in the span of the node. -/
  covers : ∀ m ∈ n.children, n.span.start ≤ m.span.start ∧ m.span.stop ≤ n.span.stop
  /-- The children have no byte in common, and stand in the order of the text. -/
  apart : n.children.Pairwise fun m k => m.span.stop ≤ k.span.start
  /-- The text at a name is the name. -/
  named : ∀ id, n = .ident id → ∀ file, Source.slice ⟨file, text⟩ id.span = id.name

variable {text : String}

theorem edge_of_between {cs : List Char} {start stop : Nat} {part : List Char}
    (hcs : cs = text.toList) (h : Between cs start stop part) : Edge text start ∧ Edge text stop := by
  obtain ⟨before, after, htext, hstart, hstop⟩ := h
  rw [hcs] at htext
  refine ⟨⟨before, part ++ after, htext, hstart⟩, before ++ part, after, ?_, ?_⟩
  · rw [htext, List.append_assoc]
  · rw [byteLength_append, hstop]

theorem Edge.le {pos : Nat} (h : Edge text pos) : pos ≤ text.utf8ByteSize := by
  obtain ⟨before, after, htext, rfl⟩ := h
  rw [← byteLength_toList, htext, byteLength_append]
  exact Nat.le_add_right ..

theorem Placed.of_edges {s : Span} (hstart : Edge text s.start.toNat)
    (hstop : Edge text s.stop.toNat) (hle : s.start.toNat ≤ s.stop.toNat) : Placed text s :=
  ⟨UInt32.le_iff_toNat_le.mpr hle, hstop.le, hstart, hstop⟩

theorem Placed.le {s : Span} (h : Placed text s) : s.start.toNat ≤ s.stop.toNat :=
  UInt32.le_iff_toNat_le.mp h.ordered

theorem dropBytes_append (before cs : List Char) :
    dropBytes (byteLength before) (before ++ cs) = some cs := by
  induction before with
  | nil => cases cs <;> rfl
  | cons c before ih =>
    obtain ⟨n, hn⟩ : ∃ n, byteLength (c :: before) = n + 1 :=
      Nat.exists_eq_succ_of_ne_zero (byteLength_pos (List.cons_ne_nil c before)).ne'
    have hle : c.utf8Size ≤ n + 1 := hn ▸ Nat.le_add_right ..
    have hrest : n + 1 - c.utf8Size = byteLength before := by
      rw [← hn, byteLength, Nat.add_sub_cancel_left]
    rw [hn, List.cons_append, dropBytes, if_pos hle, hrest, ih]

theorem takeBytes_append (part cs : List Char) :
    takeBytes (byteLength part) (part ++ cs) = some part := by
  induction part with
  | nil => cases cs <;> rfl
  | cons c part ih =>
    obtain ⟨n, hn⟩ : ∃ n, byteLength (c :: part) = n + 1 :=
      Nat.exists_eq_succ_of_ne_zero (byteLength_pos (List.cons_ne_nil c part)).ne'
    have hle : c.utf8Size ≤ n + 1 := hn ▸ Nat.le_add_right ..
    have hrest : n + 1 - c.utf8Size = byteLength part := by
      rw [← hn, byteLength, Nat.add_sub_cancel_left]
    rw [hn, List.cons_append, takeBytes, if_pos hle, hrest, ih, Option.map_some]

/-- What stands between the offsets of a span is its text. -/
theorem slice_of_between {s : Span} {part : List Char}
    (h : Between text.toList s.start.toNat s.stop.toNat part) (file : String) :
    Source.slice ⟨file, text⟩ s = String.ofList part := by
  obtain ⟨hstart, hstop⟩ := edge_of_between rfl h
  obtain ⟨before, after, htext, hbefore, hpart⟩ := h
  have hlength : s.stop.toNat - s.start.toNat = byteLength part := by omega
  have horder : ¬ s.stop.toNat < s.start.toNat := by omega
  have hdrop : dropBytes s.start.toNat text.toList = some (part ++ after) := by
    rw [← hbefore, htext, dropBytes_append]
  have htake : takeBytes (s.stop.toNat - s.start.toNat) (part ++ after) = some part := by
    rw [hlength, takeBytes_append]
  simp only [Source.slice, Nat.min_eq_left hstart.le, Nat.min_eq_left hstop.le, if_neg horder,
    hdrop, Option.bind_some, htake]

/-! ## Rows -/

/-- All nodes that a node holds are sound. -/
def Node.AllSound (text : String) (n : Node) : Prop := ∀ m, n.Holds m → m.Sound text

/-- Nodes stand one behind the other between two offsets. -/
structure Row (text : String) (lo : Nat) (ns : List Node) (hi : Nat) : Prop where
  le : lo ≤ hi
  sound : ∀ n ∈ ns, n.AllSound text
  bounds : ∀ n ∈ ns, lo ≤ n.span.start.toNat ∧ n.span.stop.toNat ≤ hi
  apart : ns.Pairwise fun m k => m.span.stop ≤ k.span.start

namespace Row

variable {lo hi lo' hi' : Nat} {ns ms : List Node}

theorem nil (h : lo ≤ hi) : Row text lo [] hi :=
  ⟨h, fun _ h => absurd h List.not_mem_nil, fun _ h => absurd h List.not_mem_nil, .nil⟩

theorem mono (h : Row text lo ns hi) (hlo : lo' ≤ lo) (hhi : hi ≤ hi') : Row text lo' ns hi' where
  le := by
    have := h.le
    omega
  sound := h.sound
  bounds n hn := by
    have := h.bounds n hn
    omega
  apart := h.apart

theorem append (h : Row text lo ns hi) (h' : Row text lo' ms hi') (hle : hi ≤ lo') :
    Row text lo (ns ++ ms) hi' where
  le := by
    have := h.le
    have := h'.le
    omega
  sound n hn := (List.mem_append.mp hn).elim (h.sound n) (h'.sound n)
  bounds n hn := by
    have := h.le
    have := h'.le
    rcases List.mem_append.mp hn with hn | hn
    · have := h.bounds n hn
      omega
    · have := h'.bounds n hn
      omega
  apart := by
    refine List.pairwise_append.mpr ⟨h.apart, h'.apart, fun m hm k hk => ?_⟩
    have hm := (h.bounds m hm).2
    have hk := (h'.bounds k hk).1
    exact UInt32.le_iff_toNat_le.mpr (by omega)

/-- A row ends where its last node does. -/
theorem upto_last {n : Node} (h : Row text lo (ns ++ [n]) hi) :
    Row text lo (ns ++ [n]) n.span.stop.toNat where
  le := by
    have hn : n ∈ ns ++ [n] := List.mem_append_right _ (List.mem_singleton_self n)
    exact (h.bounds n hn).1.trans (h.sound n hn n (.self n)).placed.le
  sound := h.sound
  bounds m hm := by
    refine ⟨(h.bounds m hm).1, ?_⟩
    have hn : n ∈ ns ++ [n] := List.mem_append_right _ (List.mem_singleton_self n)
    rcases List.mem_append.mp hm with hm | hm
    · have happart := (List.pairwise_append.mp h.apart).2.2 m hm n (List.mem_singleton_self n)
      exact (UInt32.le_iff_toNat_le.mp happart).trans (h.sound n hn n (.self n)).placed.le
    · obtain rfl := List.mem_singleton.mp hm
      exact Nat.le_refl _
  apart := h.apart

section
variable {n : Node} (h : Row text lo [n] hi)
include h

theorem allSound : n.AllSound text := h.sound n (List.mem_singleton_self n)

theorem placed : Placed text n.span := (h.allSound n (.self n)).placed

theorem lo_le : lo ≤ n.span.start.toNat := (h.bounds n (List.mem_singleton_self n)).1

theorem le_hi : n.span.stop.toNat ≤ hi := (h.bounds n (List.mem_singleton_self n)).2

theorem span_le : n.span.start.toNat ≤ n.span.stop.toNat := h.placed.le

/-- A node alone reaches no further than its span. -/
theorem narrow : Row text n.span.start.toNat [n] n.span.stop.toNat where
  le := h.span_le
  sound := h.sound
  bounds m hm := by
    obtain rfl := List.mem_singleton.mp hm
    exact ⟨Nat.le_refl _, Nat.le_refl _⟩
  apart := h.apart

/-- The children of a node stand one behind the other in its span. -/
theorem of_sound : Row text n.span.start.toNat n.children n.span.stop.toNat where
  le := h.span_le
  sound m hm k hk := h.allSound k (.child hm hk)
  bounds m hm := by
    obtain ⟨hstart, hstop⟩ := (h.allSound n (.self n)).covers m hm
    exact ⟨UInt32.le_iff_toNat_le.mp hstart, UInt32.le_iff_toNat_le.mp hstop⟩
  apart := (h.allSound n (.self n)).apart

end

section
variable (n : Node)

/-- A node that is made of a row of children. -/
theorem node (h : Row text n.span.start.toNat n.children n.span.stop.toNat)
    (hplaced : Placed text n.span)
    (hnamed : ∀ id, n = .ident id → ∀ file, Source.slice ⟨file, text⟩ id.span = id.name) :
    Row text n.span.start.toNat [n] n.span.stop.toNat where
  le := h.le
  sound m hm k hk := by
    obtain rfl := List.mem_singleton.mp hm
    cases hk with
    | self =>
      refine ⟨hplaced, fun k hk => ?_, h.apart, hnamed⟩
      obtain ⟨hlo, hhi⟩ := h.bounds k hk
      exact ⟨UInt32.le_iff_toNat_le.mpr hlo, UInt32.le_iff_toNat_le.mpr hhi⟩
    | child hm hk => exact h.sound _ hm _ hk
  bounds m hm := by
    obtain rfl := List.mem_singleton.mp hm
    exact ⟨Nat.le_refl _, Nat.le_refl _⟩
  apart := List.pairwise_singleton ..

variable {a b : Span} (hspan : n.span = a.cover b) (hname : ∀ id, n ≠ .ident id)
include hspan hname

/-- A node whose span covers two spans, of which the second does not begin before the first. -/
theorem covered (h : Row text a.start.toNat n.children (max a.stop.toNat b.stop.toNat))
    (ha : Placed text a) (hb : Placed text b) (hstart : a.start.toNat ≤ b.start.toNat) :
    Row text a.start.toNat [n] (max a.stop.toNat b.stop.toNat) ∧ n.span.start = a.start := by
  obtain ⟨stop, hcover, hstop, hedge⟩ : ∃ stop, n.span = ⟨a.start, stop⟩ ∧
      stop.toNat = max a.stop.toNat b.stop.toNat ∧ Edge text stop.toNat := by
    rw [hspan, Span.cover, if_pos (UInt32.le_iff_toNat_le.mpr hstart)]
    by_cases hle : a.stop ≤ b.stop
    · exact ⟨b.stop, by rw [if_pos hle],
        (Nat.max_eq_right (UInt32.le_iff_toNat_le.mp hle)).symm, hb.stop⟩
    · have hle' : b.stop.toNat ≤ a.stop.toNat :=
        Nat.le_of_not_le fun h => hle (UInt32.le_iff_toNat_le.mpr h)
      exact ⟨a.stop, by rw [if_neg hle], (Nat.max_eq_left hle').symm, ha.stop⟩
  rw [← hstop] at h ⊢
  have hrow : Row text n.span.start.toNat n.children n.span.stop.toNat := by
    rwa [hcover]
  have hplaced : Placed text n.span := by
    rw [hcover]
    exact .of_edges ha.start hedge h.le
  have hnode := node n hrow hplaced fun id hid => absurd hid (hname id)
  rw [hcover] at hnode ⊢
  exact ⟨hnode, rfl⟩

/-- A node that runs from one span to the end of another one behind it. -/
theorem joined (h : Row text a.start.toNat n.children b.stop.toNat) (ha : Placed text a)
    (hb : Placed text b) (hle : a.stop.toNat ≤ b.start.toNat) :
    Row text a.start.toNat [n] b.stop.toNat := by
  have hmax : max a.stop.toNat b.stop.toNat = b.stop.toNat :=
    Nat.max_eq_right (hle.trans hb.le)
  have hrow : Row text a.start.toNat n.children (max a.stop.toNat b.stop.toNat) := by
    rwa [hmax]
  have hcovered := covered n hspan hname hrow ha hb (ha.le.trans hle)
  rw [hmax] at hcovered
  exact hcovered.1

end

end Row

end DotScript.Syntax
