import DotScript.Json.Writer
import DotScript.Proofs.Json.Standard

/-!
# The writer keeps to the standard

The writer of this library writes exact documents as standard texts, without white space. Main
statement: `spelledBy_render`.
-/

namespace DotScript.Json

theorem blank_nil : Blank [] := List.forall_mem_nil _

/-! ## Strings -/

theorem hexValue?_digitChar : ∀ n < 32,
    hexValue? '0' '0' (Nat.digitChar (n / 16)) (Nat.digitChar (n % 16)) = some n := by decide

theorem spellsChar_escapeChar (c : Char) : SpellsChar c (escapeChar c) := by
  unfold escapeChar
  iterate 7
    split
    · next h =>
      obtain rfl := eq_of_beq h
      exact .short (by decide)
  split
  · next h => exact .code (hexValue?_digitChar c.toNat h)
  · next hquote hescape _ _ _ _ _ hcontrol =>
    exact .plain (Nat.le_of_not_lt hcontrol) (mt beq_iff_eq.mpr hquote) (mt beq_iff_eq.mpr hescape)

theorem spellsChars_flatMap (cs : List Char) : SpellsChars cs (cs.flatMap escapeChar) := by
  induction cs with
  | nil => exact .nil
  | cons c cs ih =>
    rw [List.flatMap_cons]
    exact .cons (spellsChar_escapeChar c) ih

/-! ## Arrays and objects -/

/-- Items behind an item, up to the closing bracket. -/
def moreItems (js : List Json) : List Char := (js.flatMap fun j => ',' :: j.write) ++ [']']

theorem moreItems_cons (j : Json) (js : List Json) :
    moreItems (j :: js) = ',' :: (j.write ++ moreItems js) := by
  rw [moreItems, List.flatMap_cons, List.cons_append, List.cons_append, List.append_assoc]
  rfl

theorem write_array (j : Json) (js : List Json) :
    (array (j :: js)).write = '[' :: (j.write ++ moreItems js) := by
  have hclose : ∀ j, writeItems (j :: js) ++ [']'] = j.write ++ moreItems js := by
    induction js with
    | nil =>
      intro j
      rw [writeItems]
      rfl
    | cons j' js ih =>
      intro j
      rw [writeItems, List.append_assoc, List.cons_append, ih, moreItems_cons]
      exact nofun
  rw [← hclose]
  rfl

/-- A key with its document. -/
def fieldText (f : String × Json) : List Char := stringText f.1 ++ ':' :: f.2.write

/-- Fields behind a field, up to the closing brace. -/
def moreFields (fs : List (String × Json)) : List Char :=
  (fs.flatMap fun f => ',' :: fieldText f) ++ ['\x7d']

theorem moreFields_cons (f : String × Json) (fs : List (String × Json)) :
    moreFields (f :: fs) = ',' :: (fieldText f ++ moreFields fs) := by
  rw [moreFields, List.flatMap_cons, List.cons_append, List.cons_append, List.append_assoc]
  rfl

theorem write_object (f : String × Json) (fs : List (String × Json)) :
    (object ⟨f :: fs⟩).write = '\x7b' :: (fieldText f ++ moreFields fs) := by
  have hclose : ∀ f, writeFields (f :: fs) ++ ['\x7d'] = fieldText f ++ moreFields fs := by
    induction fs with
    | nil =>
      intro f
      rw [writeFields]
      rfl
    | cons f' fs ih =>
      intro f
      rw [writeFields, List.append_assoc, List.cons_append, ih, moreFields_cons]
      · rfl
      · exact nofun
  rw [← hclose]
  rfl

theorem spellsField_fieldText {f : String × Json} (h : Spells f.2 f.2.write) :
    SpellsField f (fieldText f) := by
  have := SpellsField.mk (spellsChars_flatMap f.1.toList) blank_nil blank_nil h
  simpa only [fieldText, stringText, List.nil_append, List.cons_append, List.append_assoc] using this

theorem spellsItems_moreItems {js : List Json} (h : ∀ j ∈ js, Spells j j.write) :
    SpellsItems js (moreItems js) := by
  induction js with
  | nil => exact .close blank_nil
  | cons j js ih =>
    obtain ⟨hj, hjs⟩ := List.forall_mem_cons.mp h
    rw [moreItems_cons]
    exact (SpellsItems.more blank_nil blank_nil hj (ih hjs) :)

theorem spellsFields_moreFields {fs : List (String × Json)} (h : ∀ f ∈ fs, Spells f.2 f.2.write) :
    SpellsFields fs (moreFields fs) := by
  induction fs with
  | nil => exact .close blank_nil
  | cons f fs ih =>
    obtain ⟨hf, hfs⟩ := List.forall_mem_cons.mp h
    rw [moreFields_cons]
    exact (SpellsFields.more blank_nil blank_nil (spellsField_fieldText hf) (ih hfs) :)

/-! ## Documents -/

theorem spells_write {d : Nat} {j : Json} (h : j.Exact d) : Spells j j.write := by
  induction h with
  | null => exact .null
  | bool b => exact .bool b
  | int hmin hmax => exact .int _
  | str s => exact .str (spellsChars_flatMap s.toList)
  | @array d items _ ih =>
    cases items with
    | nil => exact .emptyArray blank_nil
    | cons j js =>
      obtain ⟨hj, hjs⟩ := List.forall_mem_cons.mp ih
      rw [write_array]
      exact (Spells.array blank_nil hj (spellsItems_moreItems hjs) :)
  | @object d fields _ _ ih =>
    obtain ⟨_ | ⟨f, fs⟩⟩ := fields
    · exact .emptyObject blank_nil
    · obtain ⟨hf, hfs⟩ := List.forall_mem_cons.mp ih
      rw [write_object]
      exact (Spells.object blank_nil (spellsField_fieldText hf) (spellsFields_moreFields hfs) :)

/-- The text of an exact document stands for it. -/
theorem spelledBy_render {d : Nat} {j : Json} (h : j.Exact d) : j.SpelledBy j.render := by
  refine ⟨[], j.write, [], blank_nil, spells_write h, blank_nil, ?_⟩
  rw [render, String.toList_ofList, List.append_nil, List.nil_append]

end DotScript.Json
