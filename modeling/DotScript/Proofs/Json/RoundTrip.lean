import DotScript.Natives.Call
import DotScript.Proofs.Json.Documents
import DotScript.Proofs.Json.Reading
import DotScript.Proofs.Json.Writing
import DotScript.Proofs.Number.Integral
import DotScript.Proofs.Values.Equality
import Mathlib.Tactic.NormNum

/-!
# Values through JSON

What JSON can say of a value it says exactly, but for the sign of zero: writing a value and reading the
text gives the value back with zero for the negative zero, `Value.unsigned`. This rests on what reads and
writes JSON only as far as the standard tells; the reader and the writer of this library are an instance.

* `Value.Portable d v`: JSON can say `v`, in which lists and maps nest at most `d` deep;
* `exact_ofValue`: the document of such a value is kept exactly;
* `toValue_ofValue`: it stands for the value;
* `Outside.own_writesStandard`, `Outside.own_readsStandard`: the instance.

Main statement: `jsonParse_jsonStringify`.
-/

namespace DotScript

namespace Value

/-- The values that JSON can say, by how deep lists and maps nest in them. -/
inductive Portable : Nat → Value → Prop
  | null {d : Nat} : Portable d null
  | bool {d : Nat} (b : Bool) : Portable d (bool b)
  | number {d : Nat} {n : Number} (h : n.Integral) : Portable d (number n)
  | str {d : Nat} (s : String) : Portable d (str s)
  | list {d : Nat} {items : List Value} (h : ∀ v ∈ items, Portable d v) : Portable (d + 1) (list items)
  | map {d : Nat} {t : Table MapKey Value} (hdistinct : t.Distinct)
    (hkeys : ∀ k ∈ t.keys, ∃ s, k = .str s) (h : ∀ e ∈ t.entries, Portable d e.2) :
    Portable (d + 1) (map t)

mutual

/-- The value with zero for every negative zero in it, keys apart. -/
def unsigned : Value → Value
  | number n => number n.unsigned
  | list items => list (unsignedItems items)
  | map ⟨entries⟩ => map ⟨unsignedEntries entries⟩
  | v => v

def unsignedItems : List Value → List Value
  | [] => []
  | v :: vs => v.unsigned :: unsignedItems vs

def unsignedEntries : List (MapKey × Value) → List (MapKey × Value)
  | [] => []
  | (k, v) :: es => (k, v.unsigned) :: unsignedEntries es

end

theorem unsignedItems_eq_map (vs : List Value) : unsignedItems vs = vs.map unsigned := by
  induction vs with
  | nil => rfl
  | cons v vs ih => rw [unsignedItems, ih, List.map_cons]

theorem unsignedEntries_eq_map (es : List (MapKey × Value)) :
    unsignedEntries es = es.map fun e => (e.1, e.2.unsigned) := by
  induction es with
  | nil => rfl
  | cons e es ih => rw [unsignedEntries, ih, List.map_cons]

/-- Without negative zeros there is nothing to replace. -/
theorem unsigned_eq_self (v : Value)
    (h : ∀ n, Part (.number n) v → n.isZero = true → n = .zero) : v.unsigned = v := by
  induction v using byParts with
  | atom v hv =>
    cases v with
    | number n =>
      rw [unsigned, Number.unsigned]
      split
      · next hzero => rw [h n (.self _) hzero]
      · rfl
    | list | map => cases hv
    | _ => rfl
  | list items ih =>
    have hitems : items.map unsigned = items.map id :=
      List.map_congr_left fun v hv => ih v hv fun n hn => h n (.item hv hn)
    rw [unsigned, unsignedItems_eq_map, hitems, List.map_id]
  | map t ih =>
    obtain ⟨entries⟩ := t
    have hentries : (entries.map fun e => (e.1, e.2.unsigned)) = entries.map id :=
      List.map_congr_left fun e he =>
        Prod.ext rfl (ih e he fun n hn => h n (.entry he hn))
    rw [unsigned, unsignedEntries_eq_map, hentries, List.map_id]

/-- The sign of zero makes no difference to equality. -/
theorem Portable.unsigned_eq {d : Nat} {v : Value} (h : v.Portable d) :
    v.unsigned.eq v = true := by
  induction h with
  | null => rfl
  | bool b => exact beq_self_eq_true b
  | number h => exact Number.unsigned_eq (Number.isNaN_of_isFinite h.1)
  | str s => exact beq_self_eq_true s
  | @list d items _ ih =>
    rw [Value.unsigned, unsignedItems_eq_map, eq_iff]
    refine .list ?_
    rw [List.forall₂_map_left_iff, List.forall₂_same]
    exact ih
  | @map d t hdistinct _ _ ih =>
    obtain ⟨entries⟩ := t
    rw [Value.unsigned, unsignedEntries_eq_map, eq_map_iff]
    refine ⟨List.length_map _, List.forall_mem_map.mpr fun e he => ⟨e.2, ?_, ih e he⟩⟩
    exact (Table.get?_eq_some_iff hdistinct).mpr he

end Value

namespace Json

open Value

/-! ## Documents of values -/

theorem distinct_texts {t : Table MapKey Value} (hdistinct : t.Distinct)
    (hkeys : ∀ k ∈ t.keys, ∃ s, k = .str s) :
    (⟨t.entries.map fun e => (e.1.text, ofValue e.2)⟩ : Table String Json).Distinct := by
  have hfst : ((t.entries.map fun e => (e.1.text, ofValue e.2)).map (·.1)) =
      t.keys.map MapKey.text := by
    rw [Table.keys, List.map_map, List.map_map]
    rfl
  rw [Table.Distinct, Table.keys, hfst]
  refine hdistinct.map_on fun k hk l hl heq => ?_
  obtain ⟨s, rfl⟩ := hkeys k hk
  obtain ⟨s', rfl⟩ := hkeys l hl
  exact congrArg MapKey.str heq

/-- Keys that are strings are fields as they stand. -/
theorem ofValue_map {t : Table MapKey Value} (hdistinct : t.Distinct)
    (hkeys : ∀ k ∈ t.keys, ∃ s, k = .str s) :
    ofValue (.map t) = object ⟨t.entries.map fun e => (e.1.text, ofValue e.2)⟩ := by
  obtain ⟨entries⟩ := t
  rw [ofValue, ofEntries_eq_map]
  exact congrArg (fun es => object ⟨es⟩) (Table.entries_ofList (distinct_texts hdistinct hkeys))

/-- The document of a value that JSON can say stands for it but for the sign of zero. -/
theorem toValue_ofValue {d : Nat} {v : Value} (h : v.Portable d) : (ofValue v).toValue = v.unsigned := by
  induction h with
  | null | bool | str => rfl
  | number h =>
    obtain ⟨i, hwhole, -, hi⟩ := h.exists_whole
    rw [ofValue, ofNumber, hwhole, toValue, hi, Value.unsigned]
  | @list d items _ ih =>
    rw [ofValue, toValue, ofItems_eq_map, toValues_eq_map, List.map_map, Value.unsigned,
      unsignedItems_eq_map]
    exact congrArg Value.list (List.map_congr_left ih)
  | @map d t hdistinct hkeys _ ih =>
    have hentries : (t.entries.map fun e => (MapKey.str e.1.text, (ofValue e.2).toValue)) =
        t.entries.map fun e => (e.1, e.2.unsigned) := by
      refine List.map_congr_left fun e he => Prod.ext ?_ (ih e he)
      obtain ⟨s, hs⟩ := hkeys e.1 (List.mem_map_of_mem he)
      rw [hs]
      rfl
    have hnodup : ((t.entries.map fun e => (e.1, e.2.unsigned)).map (·.1)).Nodup := by
      rw [List.map_map]
      exact hdistinct
    obtain ⟨entries⟩ := t
    rw [ofValue_map hdistinct hkeys, toValue, toEntries_eq_map, List.map_map, Value.unsigned,
      unsignedEntries_eq_map]
    have htable : Table.ofList (entries.map fun e => (MapKey.str e.1.text, (ofValue e.2).toValue)) =
        ⟨entries.map fun e => (e.1, e.2.unsigned)⟩ :=
      (congrArg Table.ofList hentries).trans (congrArg Table.mk (Table.entries_ofList hnodup))
    exact congrArg Value.map htable

theorem exact_ofValue {d : Nat} {v : Value} (h : v.Portable d) : (ofValue v).Exact d := by
  induction h with
  | null => exact .null
  | bool b => exact .bool b
  | number h =>
    obtain ⟨i, hwhole, hlt, -⟩ := h.exists_whole
    rw [ofValue, ofNumber, hwhole]
    exact .int (by omega) (by omega)
  | str s => exact .str s
  | @list d items _ ih =>
    rw [ofValue, ofItems_eq_map]
    exact .array (List.forall_mem_map.mpr ih)
  | @map d t hdistinct hkeys _ ih =>
    rw [ofValue_map hdistinct hkeys]
    exact .object (distinct_texts hdistinct hkeys) (List.forall_mem_map.mpr ih)

end Json

namespace Natives

open DotScript.Machine

variable {o : Outside}

/-- With a reader and a writer for standard JSON, a value that JSON can say, nested less than 128 deep, is
written, and its text is read as the value with zero for the negative zero. -/
theorem jsonParse_jsonStringify (hwrites : o.WritesStandard) (hreads : o.ReadsStandard) {v : Value}
    {d : Nat} (h : v.Portable d) (hd : d < 128) (w w' : World) :
    ∃ text, call .jsonStringify [v] w o = (.ok (.str text), w) ∧
      call .jsonParse [.str text] w' o = (.ok v.unsigned, w') ∧ v.unsigned.eq v = true ∧
      ((∀ n, Value.Part (.number n) v → n.isZero = true → n = .zero) →
        v.unsigned.text = v.text) := by
  obtain ⟨text, hwrite, hspelled⟩ := hwrites d _ (Json.exact_ofValue h)
  have hread : o.readJson text = .ok (Json.ofValue v) :=
    hreads d _ text (Json.exact_ofValue h) hd hspelled
  refine ⟨text, ?_, ?_, h.unsigned_eq, fun hzero => ?_⟩
  · show pureResult w (stringifyJson o v) = _
    rw [stringifyJson, hwrite]
    rfl
  · have hparse : parseJson o text = .ok v.unsigned := by
      rw [parseJson, hread, ← Json.toValue_ofValue h]
      rfl
    show pureResult w' (parseJson o _) = _
    rw [hparse]
    rfl
  · rw [Value.unsigned_eq_self v hzero]

theorem Outside.own_writesStandard : Outside.own.WritesStandard :=
  fun _ j h => ⟨j.render, rfl, Json.spelledBy_render h⟩

theorem Outside.own_readsStandard : Outside.own.ReadsStandard := by
  intro d j text h hd htext
  show (Json.read text).mapError Json.ReadError.message = _
  rw [Json.read_of_spelledBy h hd htext]
  rfl

/-- A list with a map in it, with characters that are escaped, and zeros and integers of both signs. -/
theorem jsonParse_jsonStringify_nested :
    let three : Number := ⟨0xC008000000000000⟩
    let v : Value := .list [.map ⟨[(.str "a\"b\\c\n\x01", .number three), (.str "", .list [])]⟩,
      .number Number.zero.neg, .bool true, .null, .str "\t/é"]
    v.Portable 3 ∧ ∃ text, call .jsonStringify [v] {} .own = (.ok (.str text), {}) ∧
      call .jsonParse [.str text] {} .own = (.ok v.unsigned, {}) ∧ v.unsigned.eq v = true := by
  intro three v
  have hthree : three.Integral := by
    refine ⟨by decide, 3, by decide, ?_⟩
    have hparts : three.toBinary = ⟨6755399441055744, -51, 2⟩ := by decide
    rw [hparts, Number.Binary.value]
    norm_num
  have hzero : Number.zero.neg.Integral := by
    refine ⟨by decide, 0, by decide, ?_⟩
    rw [show Number.zero.neg.toBinary = ⟨0, -1074, 2⟩ from rfl, Number.Binary.value]
    norm_num
  have hmap : (Value.map ⟨[(.str "a\"b\\c\n\x01", .number three), (.str "", .list [])]⟩).Portable 2 := by
    refine .map (by simp [Table.Distinct, Table.keys]) (by simp [Table.keys]) ?_
    simpa using ⟨.number hthree, .list (List.forall_mem_nil _)⟩
  have hv : v.Portable 3 := by
    refine .list ?_
    simpa [v] using ⟨hmap, .number hzero, .bool true, .null, .str "\t/é"⟩
  obtain ⟨text, hwrite, hread, heq, -⟩ := jsonParse_jsonStringify Outside.own_writesStandard
    Outside.own_readsStandard hv (by decide) {} {}
  exact ⟨hv, text, hwrite, hread, heq⟩

end Natives

end DotScript
