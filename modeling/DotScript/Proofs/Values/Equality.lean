import DotScript.Proofs.Number.Equality
import DotScript.Proofs.Values.Keyed
import Mathlib.Data.List.Perm.Subperm

/-!
# Equality of values

What it takes for two values to be equal is one inversion, `Value.eq_iff`, with one case for each kind
of value. Equality is symmetric and transitive, and a value equals itself unless it holds a
not-a-number. Maps are compared from one side only; that the other side does not matter is because
equally many different keys that are all found are all there are.
-/

namespace DotScript

namespace Function

variable {f g h : Function}

theorem sameCode_iff : f.sameCode g = true ↔ f.image.id = g.image.id ∧ f.entry = g.entry := by
  rw [sameCode, Bool.and_eq_true, beq_iff_eq, beq_iff_eq]

theorem sameCode_self (f : Function) : f.sameCode f = true := sameCode_iff.mpr ⟨rfl, rfl⟩

theorem sameCode_symm (h : f.sameCode g = true) : g.sameCode f = true :=
  sameCode_iff.mpr ⟨(sameCode_iff.mp h).1.symm, (sameCode_iff.mp h).2.symm⟩

theorem sameCode_trans {k : Function} (h : f.sameCode g = true) (h' : g.sameCode k = true) :
    f.sameCode k = true :=
  sameCode_iff.mpr ⟨(sameCode_iff.mp h).1.trans (sameCode_iff.mp h').1,
    (sameCode_iff.mp h).2.trans (sameCode_iff.mp h').2⟩

end Function

namespace Value

/-! ## Inversion -/

/-- What it takes for two values to be equal, kind by kind. -/
inductive Alike : Value → Value → Prop
  | null : Alike null null
  | bool (b : Bool) : Alike (bool b) (bool b)
  | number {x y : Number} (h : x.eq y = true) : Alike (number x) (number y)
  | str (s : String) : Alike (str s) (str s)
  | list {as bs : List Value} (h : List.Forall₂ (fun a b => a.eq b = true) as bs) :
    Alike (list as) (list bs)
  | map {s t : Table MapKey Value} (hsize : s.size = t.size)
    (h : ∀ e ∈ s.entries, ∃ w, t.get? e.1 = some w ∧ e.2.eq w = true) : Alike (map s) (map t)
  | function {f g : Function} (h : f.sameCode g = true) : Alike (function f) (function g)
  | bound {i j : InstanceRef} {f g : Function} (hid : i.id = j.id) (h : f.sameCode g = true) :
    Alike (bound i f) (bound j g)
  | classRef {c d : ClassRef} (h : c.id = d.id) : Alike (classRef c) (classRef d)
  | inst {i j : InstanceRef} (h : i.id = j.id) : Alike (inst i) (inst j)
  | native {m n : Native} (h : m.name = n.name) : Alike (native m) (native n)

theorem eqItems_iff (as bs : List Value) :
    eqItems as bs = true ↔ List.Forall₂ (fun a b => a.eq b = true) as bs := by
  induction as generalizing bs with
  | nil => cases bs <;> simp [eqItems]
  | cons a as ih => cases bs <;> simp [eqItems, ih]

theorem eqEntries_iff (es : List (MapKey × Value)) (t : Table MapKey Value) :
    eqEntries es t = true ↔ ∀ e ∈ es, ∃ w, t.get? e.1 = some w ∧ e.2.eq w = true := by
  induction es with
  | nil => exact iff_of_true rfl fun _ h => absurd h List.not_mem_nil
  | cons e es ih =>
    rw [eqEntries, Bool.and_eq_true, ih, List.forall_mem_cons]
    cases t.get? e.1 <;> simp

theorem eq_iff (a b : Value) : a.eq b = true ↔ Alike a b := by
  constructor
  · intro h
    fun_cases Value.eq a b with
    | case1 => exact .null
    | case2 a b => exact beq_iff_eq.mp h ▸ .bool a
    | case3 a b => exact .number h
    | case4 a b => exact beq_iff_eq.mp h ▸ .str a
    | case5 as bs => exact .list ((eqItems_iff as bs).mp h)
    | case6 es t =>
      obtain ⟨hsize, hentries⟩ := Bool.and_eq_true_iff.mp h
      exact .map (beq_iff_eq.mp hsize) ((eqEntries_iff es t).mp hentries)
    | case7 f g => exact .function h
    | case8 i f j g =>
      obtain ⟨hid, hcode⟩ := Bool.and_eq_true_iff.mp h
      exact .bound (beq_iff_eq.mp hid) hcode
    | case9 c d => exact .classRef (beq_iff_eq.mp h)
    | case10 i j => exact .inst (beq_iff_eq.mp h)
    | case11 m n => exact .native (beq_iff_eq.mp h)
    | case12 =>
      rw [Value.eq] at h
      · cases h
      all_goals assumption
  · rintro (_ | b | h | s | h | ⟨hsize, h⟩ | h | ⟨hid, h⟩ | h | h | h)
    · rfl
    · exact beq_self_eq_true b
    · exact h
    · exact beq_self_eq_true s
    · exact (eqItems_iff _ _).mpr h
    · exact Bool.and_eq_true_iff.mpr ⟨beq_iff_eq.mpr hsize, (eqEntries_iff _ _).mpr h⟩
    · exact h
    · exact Bool.and_eq_true_iff.mpr ⟨beq_iff_eq.mpr hid, h⟩
    · exact beq_iff_eq.mpr h
    · exact beq_iff_eq.mpr h
    · exact beq_iff_eq.mpr h

/-! ## Maps -/

theorem eq_map_iff {s t : Table MapKey Value} : (map s).eq (map t) = true ↔
    s.size = t.size ∧ ∀ e ∈ s.entries, ∃ w, t.get? e.1 = some w ∧ e.2.eq w = true := by
  rw [eq_iff]
  constructor
  · rintro (_ | _ | _ | _ | _ | ⟨hsize, h⟩)
    exact ⟨hsize, h⟩
  · exact fun h => .map h.1 h.2

/-- Equal maps have the same keys: as many that differ, and all that the one has. -/
theorem mem_keys_of_eq {s t : Table MapKey Value} (hs : s.Distinct) (h : (map s).eq (map t) = true)
    (k : MapKey) : k ∈ s.keys ↔ k ∈ t.keys := by
  obtain ⟨hsize, hentries⟩ := eq_map_iff.mp h
  have hsubset : s.keys ⊆ t.keys := by
    intro k hk
    obtain ⟨e, he, rfl⟩ := List.mem_map.mp hk
    obtain ⟨w, hw, -⟩ := hentries e he
    exact Table.exists_get?_iff.mp ⟨w, hw⟩
  have hlength : t.keys.length ≤ s.keys.length := by
    rw [Table.keys, Table.keys, List.length_map, List.length_map]
    exact Nat.le_of_eq hsize.symm
  exact ((hs.subperm hsubset).perm_of_length_le hlength).mem_iff

/-- Two maps are equal iff they have the same keys, with equal values under each of them. -/
theorem eq_map_iff_keys {s t : Table MapKey Value} (hs : s.Distinct) (ht : t.Distinct) :
    (map s).eq (map t) = true ↔ (∀ k, k ∈ s.keys ↔ k ∈ t.keys) ∧
      ∀ k v w, (k, v) ∈ s.entries → (k, w) ∈ t.entries → v.eq w = true := by
  constructor
  · intro h
    refine ⟨mem_keys_of_eq hs h, fun k v w hv hw => ?_⟩
    obtain ⟨w', hw', hvw⟩ := (eq_map_iff.mp h).2 (k, v) hv
    rw [(Table.get?_eq_some_iff ht).mpr hw] at hw'
    exact Option.some.inj hw' ▸ hvw
  · rintro ⟨hkeys, hvalues⟩
    refine eq_map_iff.mpr ⟨?_, fun e he => ?_⟩
    · have hlength := ((List.perm_ext_iff_of_nodup hs ht).mpr hkeys).length_eq
      rwa [Table.keys, Table.keys, List.length_map, List.length_map] at hlength
    · obtain ⟨w, hw⟩ := Table.exists_get?_iff.mpr ((hkeys e.1).mp (List.mem_map_of_mem he))
      exact ⟨w, hw, hvalues e.1 e.2 w he (Table.mem_of_find? hw)⟩

/-! ## The laws -/

theorem flip_of_mem {α : Type} {R : α → α → Prop} {as bs : List α} (h : List.Forall₂ R as bs)
    (hR : ∀ a ∈ as, ∀ b ∈ bs, R a b → R b a) : List.Forall₂ R bs as := by
  induction h with
  | nil => exact .nil
  | @cons a b as bs hab h ih =>
    refine .cons (hR a List.mem_cons_self b List.mem_cons_self hab) (ih fun a ha b hb => ?_)
    exact hR a (List.mem_cons_of_mem _ ha) b (List.mem_cons_of_mem _ hb)

theorem comp_of_mem {α : Type} {R : α → α → Prop} {as bs cs : List α} (h : List.Forall₂ R as bs)
    (h' : List.Forall₂ R bs cs) (hR : ∀ a ∈ as, ∀ b c, R a b → R b c → R a c) :
    List.Forall₂ R as cs := by
  induction h generalizing cs with
  | nil => exact h'
  | @cons a b as bs hab h ih =>
    cases h' with
    | @cons b c bs cs hbc h' =>
      refine .cons (hR a List.mem_cons_self b c hab hbc) (ih h' fun a ha => ?_)
      exact hR a (List.mem_cons_of_mem _ ha)

theorem eq_symm (a : Value) : ∀ b, a.Keyed → b.Keyed → a.eq b = true → b.eq a = true := by
  induction a using byParts with
  | atom a ha =>
    intro b _ _ h
    rw [eq_iff] at h ⊢
    cases h with
    | null => exact .null
    | bool b => exact .bool b
    | number h => exact .number (Number.eq_symm h)
    | str s => exact .str s
    | list | map => cases ha
    | function h => exact .function (Function.sameCode_symm h)
    | bound hid h => exact .bound hid.symm (Function.sameCode_symm h)
    | classRef h => exact .classRef h.symm
    | inst h => exact .inst h.symm
    | native h => exact .native h.symm
  | list as ih =>
    intro b ha hb h
    rw [eq_iff] at h ⊢
    cases h with
    | list h =>
      exact .list (flip_of_mem h fun a hmem b hmem' =>
        ih a hmem b (keyed_list.mp ha a hmem) (keyed_list.mp hb b hmem'))
  | map s ih =>
    intro b ha hb h
    obtain ⟨t, rfl⟩ : ∃ t, b = map t := by
      cases (eq_iff _ _).mp h with
      | map => exact ⟨_, rfl⟩
    obtain ⟨hs, hvs⟩ := keyed_map.mp ha
    obtain ⟨ht, hvt⟩ := keyed_map.mp hb
    obtain ⟨hkeys, hvalues⟩ := (eq_map_iff_keys hs ht).mp h
    refine (eq_map_iff_keys ht hs).mpr ⟨fun k => (hkeys k).symm, fun k w v hw hv => ?_⟩
    exact ih (k, v) hv w (hvs (k, v) hv) (hvt (k, w) hw) (hvalues k v w hv hw)

theorem eq_trans (a : Value) : ∀ b c, a.eq b = true → b.eq c = true → a.eq c = true := by
  induction a using byParts with
  | atom a ha =>
    intro b c h h'
    rw [eq_iff] at h h' ⊢
    cases h with
    | null => exact h'
    | bool b => exact h'
    | str s => exact h'
    | list | map => cases ha
    | number h =>
      cases h' with
      | number h' => exact .number (Number.eq_trans h h')
    | function h =>
      cases h' with
      | function h' => exact .function (Function.sameCode_trans h h')
    | bound hid h =>
      cases h' with
      | bound hid' h' => exact .bound (hid.trans hid') (Function.sameCode_trans h h')
    | classRef h =>
      cases h' with
      | classRef h' => exact .classRef (h.trans h')
    | inst h =>
      cases h' with
      | inst h' => exact .inst (h.trans h')
    | native h =>
      cases h' with
      | native h' => exact .native (h.trans h')
  | list as ih =>
    intro b c h h'
    rw [eq_iff] at h h' ⊢
    cases h with
    | list h =>
      cases h' with
      | list h' => exact .list (comp_of_mem h h' ih)
  | map s ih =>
    intro b c h h'
    rw [eq_iff] at h h' ⊢
    cases h with
    | map hsize h =>
      cases h' with
      | map hsize' h' =>
        refine .map (hsize.trans hsize') fun e he => ?_
        obtain ⟨w, hw, hew⟩ := h e he
        obtain ⟨x, hx, hwx⟩ := h' _ (Table.mem_of_find? hw)
        exact ⟨x, hx, ih e he w x hew hwx⟩

/-- A value equals itself iff no part of it is a not-a-number. -/
theorem eq_self_iff (a : Value) (ha : a.Keyed) :
    a.eq a = true ↔ ¬ ∃ n, Part (.number n) a ∧ n.isNaN = true := by
  induction a using byParts with
  | atom a hatom =>
    rw [eq_iff]
    constructor
    · rintro h ⟨n, hn, hnan⟩
      obtain rfl := (part_atom hatom).mp hn
      cases h with
      | number h => exact Bool.noConfusion (((Number.eq_self_iff n).mp h).symm.trans hnan)
    · intro h
      cases a with
      | null => exact .null
      | bool b => exact .bool b
      | number n =>
        refine .number ((Number.eq_self_iff n).mpr (Bool.eq_false_iff.mpr fun hnan => ?_))
        exact h ⟨n, .self _, hnan⟩
      | str s => exact .str s
      | list | map => cases hatom
      | function f => exact .function f.sameCode_self
      | bound i f => exact .bound rfl f.sameCode_self
      | classRef c => exact .classRef rfl
      | inst i => exact .inst rfl
      | native m => exact .native rfl
  | list items ih =>
    have hitems : (list items).eq (list items) = true ↔ ∀ v ∈ items, v.eq v = true := by
      rw [Value.eq, eqItems_iff, List.forall₂_same]
    rw [hitems]
    simp only [part_list, reduceCtorEq, false_or]
    constructor
    · rintro h ⟨n, ⟨v, hv, hn⟩, hnan⟩
      exact (ih v hv (keyed_list.mp ha v hv)).mp (h v hv) ⟨n, hn, hnan⟩
    · intro h v hv
      refine (ih v hv (keyed_list.mp ha v hv)).mpr ?_
      rintro ⟨n, hn, hnan⟩
      exact h ⟨n, ⟨v, hv, hn⟩, hnan⟩
  | map t ih =>
    obtain ⟨ht, hvalues⟩ := keyed_map.mp ha
    have hentries : (map t).eq (map t) = true ↔ ∀ e ∈ t.entries, e.2.eq e.2 = true := by
      refine eq_map_iff.trans ⟨fun h e he => ?_, fun h => ⟨rfl, fun e he => ?_⟩⟩
      · obtain ⟨w, hw, hew⟩ := h.2 e he
        rw [(Table.get?_eq_some_iff ht).mpr he] at hw
        exact Option.some.inj hw ▸ hew
      · exact ⟨e.2, (Table.get?_eq_some_iff ht).mpr he, h e he⟩
    rw [hentries]
    simp only [part_map, reduceCtorEq, false_or]
    constructor
    · rintro h ⟨n, ⟨e, he, hn⟩, hnan⟩
      exact (ih e he (hvalues e he)).mp (h e he) ⟨n, hn, hnan⟩
    · intro h e he
      refine (ih e he (hvalues e he)).mpr ?_
      rintro ⟨n, hn, hnan⟩
      exact h ⟨n, ⟨e, he, hn⟩, hnan⟩

/-- Equality is a partial equivalence, which a value is outside of iff a not-a-number is among its
parts, and the order of entries plays no part in it. All values of a session are keyed, by
`Session.runSource_keyed`. -/
theorem eq_laws {a b : Value} (ha : a.Keyed) (hb : b.Keyed) (c : Value) :
    (a.eq b = true → b.eq a = true) ∧
    (a.eq b = true → b.eq c = true → a.eq c = true) ∧
    (a.eq a = true ↔ ¬ ∃ n, Part (.number n) a ∧ n.isNaN = true) ∧
    ∀ s t, a = map s → b = map t → (a.eq b = true ↔ (∀ k, k ∈ s.keys ↔ k ∈ t.keys) ∧
      ∀ k v w, (k, v) ∈ s.entries → (k, w) ∈ t.entries → v.eq w = true) := by
  refine ⟨eq_symm a b ha hb, eq_trans a b c, eq_self_iff a ha, ?_⟩
  rintro s t rfl rfl
  exact eq_map_iff_keys (keyed_map.mp ha).1 (keyed_map.mp hb).1

/-- Two maps with the same entries stored in opposite orders, and zeros of both signs in them. -/
theorem eq_laws_reordered :
    let zero : Value := number .zero
    let negZero : Value := number Number.zero.neg
    let a := map ⟨[(.str "x", list [zero]), (.number .zero, null)]⟩
    let b := map ⟨[(.number .zero, null), (.str "x", list [negZero])]⟩
    a.Keyed ∧ b.Keyed ∧ a.eq b = true ∧ b.eq a = true ∧ a.eq a = true ∧ b.eq b = true := by
  intro zero negZero a b
  have hkeyed : ∀ x y : MapKey, ∀ v w : Value, x ≠ y → v.Keyed → w.Keyed →
      (map ⟨[(x, v), (y, w)]⟩).Keyed := by
    intro x y v w hne hv hw
    refine keyed_map.mpr ⟨?_, ?_⟩
    · simpa [Table.Distinct, Table.keys] using hne
    · simpa using ⟨hv, hw⟩
  have hitem : ∀ n : Number, (list [number n]).Keyed := by
    intro n
    exact keyed_list.mpr (List.forall_mem_singleton.mpr (keyed_atom rfl))
  have ha : a.Keyed := hkeyed _ _ _ _ (by decide) (hitem _) (keyed_atom rfl)
  have hb : b.Keyed := hkeyed _ _ _ _ (by decide) (keyed_atom rfl) (hitem _)
  have hab : a.eq b = true := rfl
  have hba : b.eq a = true := (eq_laws ha hb a).1 hab
  exact ⟨ha, hb, hab, hba, (eq_laws ha hb a).2.1 hab hba, (eq_laws hb ha b).2.1 hba hab⟩

end Value

end DotScript
