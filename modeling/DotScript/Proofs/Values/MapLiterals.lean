import DotScript.Proofs.Machine.Instruction
import DotScript.Proofs.Values.Equality

/-!
# Map literals

A map literal pops its keys and values and stores them one after another. Which pairs share an entry
depends on the keys as they are stored, and these fold what the language takes for equal: two keys are
stored alike iff they are equal, or the same not-a-number, `Value.sameKey_iff`.

* `Value.SameKey`: two values are one key;
* `IsLiteral`: what the map made of some pairs holds;
* `isLiteral_ofList`: a table of the pairs is made like this;
* `buildMap_of_hashable`, `buildMap_of_unhashable`: what the instruction makes of the pairs.
-/

namespace DotScript

/-! ## Keys -/

namespace Value

variable {a b : Value} {k l : MapKey}

/-- Whether a value can be a key of a map. -/
def isHashable : Value → Bool
  | null | bool _ | number _ | str _ => true
  | _ => false

theorem toKey?_eq_none (h : a.isHashable = false) : a.toKey? = none := by
  cases a <;> first | rfl | cases h

theorem exists_toKey? (h : a.isHashable = true) : ∃ k, a.toKey? = some k := by
  cases a <;> first | exact ⟨_, rfl⟩ | cases h

/-- Two values are one key: they are equal, or the same not-a-number. -/
inductive SameKey : Value → Value → Prop
  | equal {a b : Value} (h : a.eq b = true) : SameKey a b
  | nan {n : Number} (h : n.isNaN = true) : SameKey (number n) (number n)

theorem sameKey_number {x y : Number} :
    SameKey (number x) (number y) ↔ x = y ∨ x.isZero = true ∧ y.isZero = true := by
  constructor
  · rintro (h | h)
    · exact (Number.eq_iff.mp h).2.2
    · exact .inl rfl
  · rintro (rfl | ⟨hx, hy⟩)
    · cases hnan : x.isNaN with
      | true => exact .nan hnan
      | false => exact .equal (Number.eq_iff.mpr ⟨hnan, hnan, .inl rfl⟩)
    · exact .equal (Number.eq_iff.mpr
        ⟨Number.isNaN_of_isZero hx, Number.isNaN_of_isZero hy, .inr ⟨hx, hy⟩⟩)

/-- Keys are stored alike iff they are one. -/
theorem sameKey_iff (ha : a.toKey? = some k) (hb : b.toKey? = some l) : SameKey a b ↔ k = l := by
  constructor
  · rintro (h | h)
    · cases (eq_iff a b).mp h with
      | null | bool | str => exact Option.some.inj (ha.symm.trans hb)
      | number h =>
        cases ha
        cases hb
        exact congrArg MapKey.number (Number.unsigned_inj.mpr (Number.eq_iff.mp h).2.2)
      | _ => cases ha
    · exact Option.some.inj (ha.symm.trans hb)
  · rintro rfl
    cases a with
    | number x =>
      cases b with
      | number y =>
        have hkey : MapKey.ofNumber x = MapKey.ofNumber y := Option.some.inj (ha.trans hb.symm)
        exact sameKey_number.mpr (Number.unsigned_inj.mp (MapKey.number.inj hkey))
      | _ => cases ha.trans hb.symm
    | null | bool | str =>
      refine .equal ((eq_iff _ _).mpr ?_)
      cases b <;> cases ha.trans hb.symm
      constructor
    | _ => cases ha

/-- A key is equal to the value that it was made of, unless that is a not-a-number. -/
theorem eq_toValue (h : a.toKey? = some k) (hnan : ∀ n, a = number n → n.isNaN = false) :
    k.toValue.eq a = true := by
  cases a with
  | null =>
    cases h
    rfl
  | bool b =>
    cases h
    exact beq_self_eq_true b
  | number n =>
    cases h
    exact Number.unsigned_eq (hnan n rfl)
  | str s =>
    cases h
    exact beq_self_eq_true s
  | _ => cases h

end Value

namespace Machine

open DotScript.Bytecode DotScript.Compile

/-! ## Pairs -/

variable {pairs : List (Value × Value)}

/-- The keys and values of pairs, as they follow each other on the stack. -/
def flatPairs (pairs : List (Value × Value)) : List Value := pairs.flatMap fun p => [p.1, p.2]

/-- The pairs with their keys as they are stored. -/
def storedPairs (pairs : List (Value × Value)) : List (MapKey × Value) :=
  pairs.filterMap fun p => p.1.toKey?.map (·, p.2)

theorem length_flatPairs (pairs : List (Value × Value)) :
    (flatPairs pairs).length = pairs.length * 2 := by
  induction pairs with
  | nil => rfl
  | cons p pairs ih =>
    rw [flatPairs, List.flatMap_cons, List.length_append, ← flatPairs, ih, List.length_cons]
    simp only [List.length_cons, List.length_nil]
    omega

theorem map_fst_storedPairs (pairs : List (Value × Value)) :
    (storedPairs pairs).map (·.1) = pairs.filterMap fun p => p.1.toKey? := by
  rw [storedPairs, List.map_filterMap]
  congr 1
  funext p
  cases p.1.toKey? <;> rfl

theorem buildMap_of_hashable (h : ∀ p ∈ pairs, p.1.isHashable = true) (t : Table MapKey Value) :
    buildMap (flatPairs pairs) t =
      .ok ((storedPairs pairs).foldl (fun t e => t.insert e.1 e.2) t) := by
  induction pairs generalizing t with
  | nil => rfl
  | cons p pairs ih =>
    obtain ⟨hp, hpairs⟩ := List.forall_mem_cons.mp h
    obtain ⟨k, hk⟩ := Value.exists_toKey? hp
    have hstored : storedPairs (p :: pairs) = (k, p.2) :: storedPairs pairs := by
      rw [storedPairs, List.filterMap_cons, hk]
      rfl
    rw [hstored, List.foldl_cons, ← ih hpairs]
    simp only [flatPairs, List.flatMap_cons, List.cons_append, List.nil_append, buildMap, hk]

/-- The first key that cannot be one is named by its kind. -/
theorem buildMap_of_unhashable {before after : List (Value × Value)} {p : Value × Value}
    (h : ∀ q ∈ before, q.1.isHashable = true) (hp : p.1.isHashable = false)
    (t : Table MapKey Value) :
    buildMap (flatPairs (before ++ p :: after)) t = .error (.unhashableKey p.1.typeName) := by
  induction before generalizing t with
  | nil =>
    have hk := Value.toKey?_eq_none hp
    simp only [flatPairs, List.nil_append, List.flatMap_cons, List.cons_append, buildMap, hk]
  | cons q before ih =>
    obtain ⟨hq, hbefore⟩ := List.forall_mem_cons.mp h
    obtain ⟨k, hk⟩ := Value.exists_toKey? hq
    rw [← ih hbefore (t.insert k q.2)]
    simp only [flatPairs, List.cons_append, List.nil_append, List.flatMap_cons, buildMap, hk]

/-! ## What a literal holds -/

/-- What the map of some pairs holds. -/
structure IsLiteral (pairs : List (Value × Value)) (m : Table MapKey Value) : Prop where
  distinct : m.Distinct
  /-- The entries come in the order in which their keys first come. -/
  order : m.keys = (pairs.filterMap fun p => p.1.toKey?).eraseDups
  /-- Pairs have one entry iff their keys are one. -/
  shared : ∀ p ∈ pairs, ∀ q ∈ pairs,
    (∃ e ∈ m.entries, p.1.toKey? = some e.1 ∧ q.1.toKey? = some e.1) ↔ p.1.SameKey q.1
  /-- An entry has the value of the last of its pairs. -/
  latest : ∀ before p after, pairs = before ++ p :: after → (∀ q ∈ after, ¬ p.1.SameKey q.1) →
    ∃ k, p.1.toKey? = some k ∧ (k, p.2) ∈ m.entries
  /-- A key is equal to the value that it was made of, unless that is a not-a-number. -/
  restored : ∀ p ∈ pairs, ∃ k ∈ m.keys, p.1.toKey? = some k ∧
    ((∀ n, p.1 = .number n → n.isNaN = false) → k.toValue.eq p.1 = true)

theorem isLiteral_ofList (h : ∀ p ∈ pairs, p.1.isHashable = true) :
    IsLiteral pairs (.ofList (storedPairs pairs)) := by
  have horder : (Table.ofList (storedPairs pairs)).keys =
      (pairs.filterMap fun p => p.1.toKey?).eraseDups := by
    rw [Table.keys_ofList, map_fst_storedPairs]
  have hkey : ∀ p ∈ pairs, ∃ k ∈ (Table.ofList (storedPairs pairs)).keys,
      p.1.toKey? = some k := by
    intro p hp
    obtain ⟨k, hk⟩ := Value.exists_toKey? (h p hp)
    refine ⟨k, ?_, hk⟩
    rw [horder, List.mem_eraseDups]
    exact List.mem_filterMap.mpr ⟨p, hp, hk⟩
  refine ⟨Table.distinct_ofList _, horder, ?_, ?_, ?_⟩
  · intro p hp q hq
    obtain ⟨k, hmem, hk⟩ := hkey p hp
    obtain ⟨l, -, hl⟩ := hkey q hq
    rw [Value.sameKey_iff hk hl, hk, hl]
    constructor
    · rintro ⟨e, -, hke, hle⟩
      exact Option.some.inj (hke.trans hle.symm)
    · rintro rfl
      obtain ⟨e, he, rfl⟩ := List.mem_map.mp hmem
      exact ⟨e, he, rfl, rfl⟩
  · rintro before p after rfl hafter
    obtain ⟨k, -, hk⟩ := hkey p (List.mem_append_right _ List.mem_cons_self)
    refine ⟨k, hk, Table.mem_of_find? ?_⟩
    have hstored : storedPairs (before ++ p :: after) =
        storedPairs before ++ (k, p.2) :: storedPairs after := by
      rw [storedPairs, List.filterMap_append, List.filterMap_cons, hk]
      rfl
    rw [hstored]
    refine Table.get?_ofList_last ?_
    rw [map_fst_storedPairs]
    intro hmem
    obtain ⟨q, hq, hkq⟩ := List.mem_filterMap.mp hmem
    exact hafter q hq ((Value.sameKey_iff hk hkq).mpr rfl)
  · intro p hp
    obtain ⟨k, hmem, hk⟩ := hkey p hp
    exact ⟨k, hmem, hk, Value.eq_toValue hk⟩

/-! ## The instruction -/

/-- The instruction of a map literal, with its pairs on top of the stack: the first key that cannot
be one makes it fail; otherwise the map takes the place of the pairs, if the stack has one. -/
theorem instruction_mapLiteral (host : Host) {t : Thread} {w : World} {st : Array Value}
    (h : InstrAt t.image.chunk t.ip .buildMap pairs.length)
    (hst : t.stack = st ++ (flatPairs pairs).toArray) :
    (∀ before p after, pairs = before ++ p :: after → (∀ q ∈ before, q.1.isHashable = true) →
      p.1.isHashable = false →
      instruction host ⟨t, w⟩ = .error (.unhashableKey p.1.typeName)
        ⟨{ t with ip := t.ip + 2, stack := st }, w⟩) ∧
    ((∀ p ∈ pairs, p.1.isHashable = true) →
      (st.size < host.limits.stack → ∃ m, IsLiteral pairs m ∧
        instruction host ⟨t, w⟩ = .ok none
          ⟨{ t with ip := t.ip + 2, stack := st.push (.map m) }, w⟩) ∧
      (host.limits.stack ≤ st.size →
        instruction host ⟨t, w⟩ = .error .stackOverflow
          ⟨{ t with ip := t.ip + 2, stack := st }, w⟩)) := by
  rw [instruction_buildMap host h (length_flatPairs pairs) hst]
  refine ⟨?_, fun hhashable => ?_⟩
  · rintro before p after rfl hbefore hp
    rw [buildMap_of_unhashable hbefore hp]
    rfl
  · rw [buildMap_of_hashable hhashable]
    refine ⟨fun hsize => ⟨_, isLiteral_ofList hhashable, ?_⟩, fun hsize => ?_⟩
    · exact if_neg (Nat.not_le.mpr hsize)
    · exact if_pos hsize

/-- Zeros of both signs are one key, with the place of the first one and the value of the last. -/
theorem instruction_mapLiteral_zeros :
    let host : Host := { call := fun _ _ w => (.ok .null, w) }
    let pairs : List (Value × Value) :=
      [(.number .zero, .str "a"), (.str "x", .null), (.number Number.zero.neg, .str "b")]
    let t : Thread :=
      { stack := #[.bool true] ++ (flatPairs pairs).toArray
        image := ⟨⟨[], 0⟩, { name := "main", code := #[Opcode.buildMap.encode, 3] }⟩ }
    ∃ m, IsLiteral pairs m ∧ instruction host ⟨t, {}⟩ =
      .ok none ⟨{ t with ip := 2, stack := #[.bool true, .map m] }, {}⟩ := by
  intro host pairs t
  have hinstr : InstrAt t.image.chunk t.ip .buildMap pairs.length := ⟨rfl, 3, rfl, rfl⟩
  have hroom : (#[Value.bool true]).size < host.limits.stack := by decide
  exact ((instruction_mapLiteral host hinstr rfl).2 (by decide)).1 hroom

/-- A literal without pairs fails where the stack is full. -/
theorem not_forall_isLiteral :
    ¬ ∀ (host : Host) (t : Thread) (w : World) (st : Array Value) (pairs : List (Value × Value)),
      InstrAt t.image.chunk t.ip .buildMap pairs.length →
      t.stack = st ++ (flatPairs pairs).toArray → (∀ p ∈ pairs, p.1.isHashable = true) →
      ∃ m, IsLiteral pairs m ∧ instruction host ⟨t, w⟩ =
        .ok none ⟨{ t with ip := t.ip + 2, stack := st.push (.map m) }, w⟩ := by
  intro h
  have hinstr : InstrAt { name := "main", code := #[Opcode.buildMap.encode, 0] } 0 .buildMap 0 :=
    ⟨rfl, 0, rfl, rfl⟩
  have hstack : (#[.null] : Array Value) = #[.null] ++ (flatPairs []).toArray := rfl
  obtain ⟨m, -, hm⟩ := h { limits := { stack := 1 }, call := fun _ _ w => (.ok .null, w) }
    { stack := #[.null]
      image := ⟨⟨[], 0⟩, { name := "main", code := #[Opcode.buildMap.encode, 0] }⟩ }
    {} #[.null] [] hinstr hstack nofun
  rw [instruction_buildMap _ hinstr rfl hstack] at hm
  cases hm

end Machine

end DotScript
