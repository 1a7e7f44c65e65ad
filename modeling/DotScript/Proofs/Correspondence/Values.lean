import Mathlib.Data.List.Forall2
import DotScript.Proofs.Machine.Realm

/-!
# Values that correspond

Two machines that run different code for the same functions hold values that are alike but for the
functions in them. Nothing a program can do with a value but call a function tells them apart: they
have the same text and type, count as the same keys, and comparing them comes out the same.

* `Value.Like F v v'`: the functions in `v` and `v'` are related by `F`, all else is equal;
* `Table.Related R t t'`: tables with the same keys and values related by `R`;
* `ResultLike R r r'`: the same failure, or results related by `R`.
-/

namespace DotScript

open DotScript.Machine

mutual

/-- Values that are equal but for the functions in them, which are related by `F`. -/
inductive Value.Like (F : Function → Function → Prop) : Value → Value → Prop
  | null : Value.Like F .null .null
  | bool (b : Bool) : Value.Like F (.bool b) (.bool b)
  | number (n : Number) : Value.Like F (.number n) (.number n)
  | str (s : String) : Value.Like F (.str s) (.str s)
  | list {vs vs'} (h : ItemsLike F vs vs') : Value.Like F (.list vs) (.list vs')
  | map {es es'} (h : EntriesLike F es es') : Value.Like F (.map ⟨es⟩) (.map ⟨es'⟩)
  | function {f g} (h : F f g) : Value.Like F (.function f) (.function g)
  | bound (i : InstanceRef) {f g} (h : F f g) : Value.Like F (.bound i f) (.bound i g)
  | classRef (c : ClassRef) : Value.Like F (.classRef c) (.classRef c)
  | inst (i : InstanceRef) : Value.Like F (.inst i) (.inst i)
  | native (n : Native) : Value.Like F (.native n) (.native n)

inductive ItemsLike (F : Function → Function → Prop) : List Value → List Value → Prop
  | nil : ItemsLike F [] []
  | cons {v v' vs vs'} (h : Value.Like F v v') (hs : ItemsLike F vs vs') :
    ItemsLike F (v :: vs) (v' :: vs')

inductive EntriesLike (F : Function → Function → Prop) :
    List (MapKey × Value) → List (MapKey × Value) → Prop
  | nil : EntriesLike F [] []
  | cons (k : MapKey) {v v' es es'} (h : Value.Like F v v') (hs : EntriesLike F es es') :
    EntriesLike F ((k, v) :: es) ((k, v') :: es')

end

/-- Functions that differ in their code at most. -/
structure Interchangeable (F : Function → Function → Prop) : Prop where
  name : ∀ {f g}, F f g → f.name = g.name
  arity : ∀ {f g}, F f g → f.arity = g.arity
  /-- Related functions are the same code as other related ones on one side if they are so on the
  other. -/
  sameCode : ∀ {f g f' g'}, F f g → F f' g' → f.sameCode f' = g.sameCode g'

/-- Related options are both missing or both there. -/
theorem rel_cases {α β : Type} {R : α → β → Prop} {o : Option α} {o' : Option β}
    (h : Option.Rel R o o') :
    (o = none ∧ o' = none) ∨ ∃ x y, o = some x ∧ o' = some y ∧ R x y := by
  cases h with
  | none => exact .inl ⟨rfl, rfl⟩
  | some h => exact .inr ⟨_, _, rfl, rfl, h⟩

section
variable {F G : Function → Function → Prop} {v v' u u' : Value} {vs vs' : List Value}

theorem itemsLike_iff : ItemsLike F vs vs' ↔ List.Forall₂ (Value.Like F) vs vs' := by
  constructor
  · intro h
    induction vs generalizing vs' with
    | nil =>
      cases h
      exact .nil
    | cons v vs ih =>
      obtain ⟨⟩ | ⟨hv, hvs⟩ := h
      exact .cons hv (ih hvs)
  · intro h
    induction h with
    | nil => exact .nil
    | cons hv _ ih => exact .cons hv ih

/-! ## Tables -/

/-- Tables with the same keys in the same order, and values that are related. -/
def Table.Related {κ α β : Type} (R : α → β → Prop) (t : Table κ α) (t' : Table κ β) : Prop :=
  List.Forall₂ (fun e e' => e.1 = e'.1 ∧ R e.2 e'.2) t.entries t'.entries

section
variable {κ α β : Type} [DecidableEq κ] {R : α → β → Prop}

omit [DecidableEq κ] in
theorem Table.Related.empty : Table.Related R ({} : Table κ α) {} := .nil

theorem find?_related {es : List (κ × α)} {es' : List (κ × β)}
    (h : List.Forall₂ (fun e e' => e.1 = e'.1 ∧ R e.2 e'.2) es es') (k : κ) :
    Option.Rel R (Table.find? k es) (Table.find? k es') := by
  induction h with
  | nil => exact .none
  | @cons e e' es es' he _ ih =>
    obtain ⟨k, v⟩ := e
    obtain ⟨k', v'⟩ := e'
    obtain ⟨rfl, hv⟩ := he
    simp only [Table.find?]
    split
    · exact .some hv
    · exact ih

theorem put_related {es : List (κ × α)} {es' : List (κ × β)}
    (h : List.Forall₂ (fun e e' => e.1 = e'.1 ∧ R e.2 e'.2) es es') (k : κ) {v : α} {v' : β}
    (hv : R v v') :
    List.Forall₂ (fun e e' => e.1 = e'.1 ∧ R e.2 e'.2) (Table.put k v es) (Table.put k v' es') := by
  induction h with
  | nil => exact .cons ⟨rfl, hv⟩ .nil
  | @cons e e' es es' he hes ih =>
    obtain ⟨k', u⟩ := e
    obtain ⟨k'', u'⟩ := e'
    obtain ⟨rfl, hu⟩ := he
    simp only [Table.put]
    split
    · exact .cons ⟨rfl, hv⟩ hes
    · exact .cons ⟨rfl, hu⟩ ih

theorem Table.Related.get? {t : Table κ α} {t' : Table κ β} (h : t.Related R t') (k : κ) :
    Option.Rel R (t.get? k) (t'.get? k) :=
  find?_related h k

theorem Table.Related.insert {t : Table κ α} {t' : Table κ β} (h : t.Related R t') (k : κ) {v : α}
    {v' : β} (hv : R v v') : (t.insert k v).Related R (t'.insert k v') :=
  put_related h k hv

omit [DecidableEq κ] in
theorem Table.Related.refl {S : α → α → Prop} (t : Table κ α) (h : ∀ e ∈ t.entries, S e.2 e.2) :
    t.Related S t :=
  List.forall₂_same.mpr fun e he => ⟨rfl, h e he⟩

omit [DecidableEq κ] in
theorem Table.Related.eq_of_eq {S : α → α → Prop} {t t' : Table κ α} (h : t.Related S t')
    (hS : ∀ x y, S x y → x = y) : t = t' := by
  have hentries : t.entries = t'.entries := by
    rw [← List.forall₂_eq_eq_eq]
    exact List.Forall₂.imp (fun e e' he => Prod.ext he.1 (hS _ _ he.2)) h
  cases t
  cases t'
  exact congrArg _ hentries

omit [DecidableEq κ] in
theorem Table.Related.size {t : Table κ α} {t' : Table κ β} (h : t.Related R t') :
    t.size = t'.size :=
  h.length_eq

end

theorem entriesLike_iff {es es' : List (MapKey × Value)} :
    EntriesLike F es es' ↔ (⟨es⟩ : Table MapKey Value).Related (Value.Like F) ⟨es'⟩ := by
  constructor
  · intro h
    induction es generalizing es' with
    | nil =>
      cases h
      exact .nil
    | cons e es ih =>
      cases h with
      | cons k hv hes => exact .cons ⟨rfl, hv⟩ (ih hes)
  · intro h
    induction es generalizing es' with
    | nil =>
      cases h
      exact .nil
    | cons e es ih =>
      obtain ⟨k, v⟩ := e
      cases h with
      | @cons _ e' _ _ he hes =>
        obtain ⟨k', v'⟩ := e'
        obtain ⟨rfl, hv⟩ := he
        exact .cons k hv (ih hes)

/-! ## What can be seen of a value -/

theorem Value.Like.typeName_eq (h : v.Like F v') : v.typeName = v'.typeName := by
  cases h <;> rfl

theorem Value.Like.isFalsey_eq (h : v.Like F v') : v.isFalsey = v'.isFalsey := by
  cases h <;> rfl

theorem Value.Like.toKey?_eq (h : v.Like F v') : v.toKey? = v'.toKey? := by
  cases h <;> rfl

mutual

theorem Value.Like.text_eq (hF : Interchangeable F) : {v v' : Value} → v.Like F v' →
    v.text = v'.text
  | _, _, .null | _, _, .bool _ | _, _, .number _ | _, _, .str _ | _, _, .classRef _
  | _, _, .inst _ | _, _, .native _ => rfl
  | _, _, .list h => by simp only [Value.text, textItems_eq_of_like hF h]
  | _, _, .map h => by simp only [Value.text, textEntries_eq_of_like hF h]
  | _, _, .function h => by simp only [Value.text, hF.name h]
  | _, _, .bound _ h => by simp only [Value.text, hF.name h]

theorem textItems_eq_of_like (hF : Interchangeable F) : {vs vs' : List Value} → ItemsLike F vs vs' →
    Value.textItems vs = Value.textItems vs'
  | _, _, .nil => rfl
  | _, _, .cons h .nil => by simp only [Value.textItems, h.text_eq hF]
  | _, _, .cons h (.cons h' hs) => by
    simp only [Value.textItems, h.text_eq hF, textItems_eq_of_like hF (.cons h' hs)]

theorem textEntries_eq_of_like (hF : Interchangeable F) : {es es' : List (MapKey × Value)} →
    EntriesLike F es es' → Value.textEntries es = Value.textEntries es'
  | _, _, .nil => rfl
  | _, _, .cons _ h .nil => by simp only [Value.textEntries, h.text_eq hF]
  | _, _, .cons _ h (.cons k h' hs) => by
    simp only [Value.textEntries, h.text_eq hF, textEntries_eq_of_like hF (.cons k h' hs)]

end

mutual

theorem Value.Like.eq_eq (hF : Interchangeable F) : {v v' u u' : Value} → v.Like F v' →
    u.Like F u' → v.eq u = v'.eq u'
  | _, _, _, _, .null, h' | _, _, _, _, .bool _, h' | _, _, _, _, .number _, h'
  | _, _, _, _, .str _, h' | _, _, _, _, .classRef _, h' | _, _, _, _, .inst _, h'
  | _, _, _, _, .native _, h' => by cases h' <;> rfl
  | _, _, _, _, .list h, h' => by
    cases h' with
    | list h' => simp only [Value.eq, eqItems_eq_of_like hF h h']
    | _ => rfl
  | _, _, _, _, .map h, h' => by
    cases h' with
    | map h' =>
      have ht := entriesLike_iff.mp h'
      have hlength := (entriesLike_iff.mp h).length_eq
      simp only at hlength
      simp only [Value.eq, hlength, ht.size, eqEntries_eq_of_like hF h ht]
    | _ => rfl
  | _, _, _, _, .function h, h' => by
    cases h' with
    | function h' => simp only [Value.eq, hF.sameCode h h']
    | _ => rfl
  | _, _, _, _, .bound _ h, h' => by
    cases h' with
    | bound _ h' => simp only [Value.eq, hF.sameCode h h']
    | _ => rfl

theorem eqItems_eq_of_like (hF : Interchangeable F) : {vs vs' us us' : List Value} →
    ItemsLike F vs vs' → ItemsLike F us us' → Value.eqItems vs us = Value.eqItems vs' us'
  | _, _, _, _, .nil, .nil | _, _, _, _, .nil, .cons _ _ | _, _, _, _, .cons _ _, .nil => rfl
  | _, _, _, _, .cons h hs, .cons h' hs' => by
    simp only [Value.eqItems, h.eq_eq hF h', eqItems_eq_of_like hF hs hs']

theorem eqEntries_eq_of_like (hF : Interchangeable F) : {es es' : List (MapKey × Value)} →
    {t t' : Table MapKey Value} → EntriesLike F es es' → t.Related (Value.Like F) t' →
    Value.eqEntries es t = Value.eqEntries es' t'
  | _, _, _, _, .nil, _ => rfl
  | _, _, t, t', .cons k h hs, ht => by
    simp only [Value.eqEntries, eqEntries_eq_of_like hF hs ht]
    obtain ⟨ho, ho'⟩ | ⟨v, v', ho, ho', hv⟩ := rel_cases (ht.get? k)
    · simp only [ho, ho']
    · simp only [ho, ho', h.eq_eq hF hv]

end

/-! ## Operations on values -/

/-- The same failure, or results that are related. -/
def ResultLike {ε α β : Type} (R : α → β → Prop) : Except ε α → Except ε β → Prop
  | .ok a, .ok b => R a b
  | .error e, .error e' => e = e'
  | _, _ => False

theorem ResultLike.cases {ε α β : Type} {R : α → β → Prop} {r : Except ε α} {r' : Except ε β}
    (h : ResultLike R r r') :
    (∃ e, r = .error e ∧ r' = .error e) ∨ ∃ v v', r = .ok v ∧ r' = .ok v' ∧ R v v' := by
  cases r <;> cases r'
  · cases h
    exact .inl ⟨_, rfl, rfl⟩
  · cases h
  · cases h
  · exact .inr ⟨_, _, rfl, rfl, h⟩

theorem addValues_like (hF : Interchangeable F) (h : v.Like F v') (h' : u.Like F u') :
    ResultLike (Value.Like F) (addValues v u) (addValues v' u') := by
  have htype := h.typeName_eq
  have htype' := h'.typeName_eq
  have htext := h.text_eq hF
  have htext' := h'.text_eq hF
  cases h <;> cases h' <;> simp only [addValues, ResultLike, htext, htext', htype, htype'] <;>
    constructor

theorem onNumbers_like (verb : String) {f : Number → Number → Value}
    (hf : ∀ x y, (f x y).Like F (f x y)) (h : v.Like F v') (h' : u.Like F u') :
    ResultLike (Value.Like F) (onNumbers verb f v u) (onNumbers verb f v' u') := by
  have htype := h.typeName_eq
  have htype' := h'.typeName_eq
  cases h <;> cases h' <;> simp only [onNumbers, ResultLike, htype, htype']
  exact hf _ _

theorem buildMap_like {t t' : Table MapKey Value} : {vs vs' : List Value} → ItemsLike F vs vs' →
    t.Related (Value.Like F) t' →
    ResultLike (Table.Related (Value.Like F)) (buildMap vs t) (buildMap vs' t')
  | _, _, .nil, ht => ht
  | _, _, .cons hk hs, ht => by
    cases hs with
    | nil => exact ht
    | cons hv hs =>
      have htype := hk.typeName_eq
      simp only [buildMap, ← hk.toKey?_eq]
      split
      · exact buildMap_like hs (ht.insert _ hv)
      · exact congrArg _ htype

/-! ## Related functions -/

mutual

theorem Value.Like.mono (hFG : ∀ f g, F f g → G f g) : {v v' : Value} → v.Like F v' → v.Like G v'
  | _, _, .null => .null
  | _, _, .bool b => .bool b
  | _, _, .number n => .number n
  | _, _, .str s => .str s
  | _, _, .list h => .list (h.mono hFG)
  | _, _, .map h => .map (h.mono hFG)
  | _, _, .function h => .function (hFG _ _ h)
  | _, _, .bound i h => .bound i (hFG _ _ h)
  | _, _, .classRef c => .classRef c
  | _, _, .inst i => .inst i
  | _, _, .native n => .native n

theorem ItemsLike.mono (hFG : ∀ f g, F f g → G f g) : {vs vs' : List Value} →
    ItemsLike F vs vs' → ItemsLike G vs vs'
  | _, _, .nil => .nil
  | _, _, .cons h hs => .cons (h.mono hFG) (hs.mono hFG)

theorem EntriesLike.mono (hFG : ∀ f g, F f g → G f g) : {es es' : List (MapKey × Value)} →
    EntriesLike F es es' → EntriesLike G es es'
  | _, _, .nil => .nil
  | _, _, .cons k h hs => .cons k (h.mono hFG) (hs.mono hFG)

end

mutual

/-- A value is like itself if the functions it refers to are. -/
theorem Value.Like.of_in {R : Realm} (hfunction : ∀ f, R.function f → F f f)
    (hmethod : ∀ f, R.method f → F f f) : (v : Value) → v.In R → v.Like F v
  | .null, _ => .null
  | .bool b, _ => .bool b
  | .number n, _ => .number n
  | .str s, _ => .str s
  | .list vs, h => .list (ItemsLike.of_in hfunction hmethod vs (Value.in_list.mp h))
  | .map ⟨es⟩, h => .map (EntriesLike.of_in hfunction hmethod es (Value.in_map.mp h))
  | .function f, h => .function (hfunction f h.admits)
  | .bound i f, h => .bound i (hmethod f h.admits.2)
  | .classRef c, _ => .classRef c
  | .inst i, _ => .inst i
  | .native n, _ => .native n

theorem ItemsLike.of_in {R : Realm} (hfunction : ∀ f, R.function f → F f f)
    (hmethod : ∀ f, R.method f → F f f) : (vs : List Value) → (∀ v ∈ vs, v.In R) →
    ItemsLike F vs vs
  | [], _ => .nil
  | v :: vs, h =>
    .cons (Value.Like.of_in hfunction hmethod v (h v (.head vs)))
      (ItemsLike.of_in hfunction hmethod vs fun u hu => h u (.tail v hu))

theorem EntriesLike.of_in {R : Realm} (hfunction : ∀ f, R.function f → F f f)
    (hmethod : ∀ f, R.method f → F f f) : (es : List (MapKey × Value)) →
    (∀ e ∈ es, e.2.In R) → EntriesLike F es es
  | [], _ => .nil
  | (k, v) :: es, h =>
    .cons k (Value.Like.of_in hfunction hmethod v (h _ (.head es)))
      (EntriesLike.of_in hfunction hmethod es fun e he => h e (.tail _ he))

end

theorem Value.Like.refl (hF : ∀ f, F f f) (v : Value) : v.Like F v := by
  let R : Realm := ⟨fun _ => True, fun _ => True, fun _ => True, fun _ => True, True, 0, 0⟩
  refine .of_in (R := R) (fun f _ => hF f) (fun f _ => hF f) v fun x _ => ?_
  cases x with
  | bound i f => exact ⟨⟨Nat.zero_le _, trivial, Nat.zero_le _⟩, trivial⟩
  | classRef c => exact ⟨trivial, Nat.zero_le _⟩
  | inst i => exact ⟨Nat.zero_le _, trivial, Nat.zero_le _⟩
  | _ => trivial

mutual

/-- If functions correspond to themselves only, so do values. -/
theorem Value.Like.eq_of_eq (hF : ∀ f g, F f g → f = g) : {v v' : Value} → v.Like F v' → v = v'
  | _, _, .null | _, _, .bool _ | _, _, .number _ | _, _, .str _ | _, _, .classRef _
  | _, _, .inst _ | _, _, .native _ => rfl
  | _, _, .list h => by rw [h.eq_of_eq hF]
  | _, _, .map h => by rw [h.eq_of_eq hF]
  | _, _, .function h => by rw [hF _ _ h]
  | _, _, .bound _ h => by rw [hF _ _ h]

theorem ItemsLike.eq_of_eq (hF : ∀ f g, F f g → f = g) : {vs vs' : List Value} →
    ItemsLike F vs vs' → vs = vs'
  | _, _, .nil => rfl
  | _, _, .cons h hs => by rw [h.eq_of_eq hF, hs.eq_of_eq hF]

theorem EntriesLike.eq_of_eq (hF : ∀ f g, F f g → f = g) : {es es' : List (MapKey × Value)} →
    EntriesLike F es es' → es = es'
  | _, _, .nil => rfl
  | _, _, .cons _ h hs => by rw [h.eq_of_eq hF, hs.eq_of_eq hF]

end

end

end DotScript
