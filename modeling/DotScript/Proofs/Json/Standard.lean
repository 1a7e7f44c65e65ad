import DotScript.Natives.Outside
import DotScript.Proofs.Values.Tables

/-!
# Standard JSON texts

Which texts the standard has stand for which documents, for documents without fractions. White space may
stand around every token, and a character of a string may be written as it is or by an escape. What reads
or writes JSON in the standard way can be relied on to keep to these texts.

* `Spells`, `SpelledBy`: a text stands for a document;
* `Exact`: the documents that are kept exactly, by how deep they nest;
* `Outside.WritesStandard`, `Outside.ReadsStandard`: what is relied on.
-/

namespace DotScript

namespace Json

/-- White space only. -/
def Blank (text : List Char) : Prop := ∀ c ∈ text, isSpace c = true

/-- The escapes of a backslash and one more character, with what they stand for. -/
def shortEscapes : List (Char × Char) :=
  [('"', '"'), ('\\', '\\'), ('/', '/'), ('b', '\x08'), ('f', '\x0c'), ('n', '\n'), ('r', '\r'),
    ('t', '\t')]

/-- The ways to write a character of a string. A character beyond 16 bits is written by code as two
surrogates. -/
inductive SpellsChar : Char → List Char → Prop
  | plain {c} (control : 32 ≤ c.toNat) (quote : c ≠ '"') (escape : c ≠ '\\') : SpellsChar c [c]
  | short {e c} (h : (e, c) ∈ shortEscapes) : SpellsChar c ['\\', e]
  | code {a b d e c} (h : hexValue? a b d e = some c.toNat) : SpellsChar c ['\\', 'u', a, b, d, e]
  | pair {a b d e a' b' d' e' c high low} (hhigh : high < 0x400) (hlow : low < 0x400)
    (h : hexValue? a b d e = some (0xD800 + high)) (h' : hexValue? a' b' d' e' = some (0xDC00 + low))
    (hc : c.toNat = 0x10000 + high * 0x400 + low) :
    SpellsChar c ['\\', 'u', a, b, d, e, '\\', 'u', a', b', d', e']

/-- The ways to write the characters of a string. -/
inductive SpellsChars : List Char → List Char → Prop
  | nil : SpellsChars [] []
  | cons {c t cs ts} (h : SpellsChar c t) (hs : SpellsChars cs ts) : SpellsChars (c :: cs) (t ++ ts)

mutual

/-- A text stands for a document, from the first character to the last one. -/
inductive Spells : Json → List Char → Prop
  | null : Spells null "null".toList
  | bool (b : Bool) : Spells (bool b) (boolText b).toList
  | int (i : Int) : Spells (int i) (toString i).toList
  | str {s t} (h : SpellsChars s.toList t) : Spells (str s) ('"' :: (t ++ ['"']))
  | emptyArray {b} (hb : Blank b) : Spells (array []) ('[' :: (b ++ [']']))
  | array {b j t js ts} (hb : Blank b) (h : Spells j t) (hs : SpellsItems js ts) :
    Spells (array (j :: js)) ('[' :: (b ++ (t ++ ts)))
  | emptyObject {b} (hb : Blank b) : Spells (object ⟨[]⟩) ('\x7b' :: (b ++ ['\x7d']))
  | object {b f t fs ts} (hb : Blank b) (h : SpellsField f t) (hs : SpellsFields fs ts) :
    Spells (object ⟨f :: fs⟩) ('\x7b' :: (b ++ (t ++ ts)))

/-- What stands behind an item of an array: more items, and the closing bracket. -/
inductive SpellsItems : List Json → List Char → Prop
  | close {b} (hb : Blank b) : SpellsItems [] (b ++ [']'])
  | more {b b' j t js ts} (hb : Blank b) (hb' : Blank b') (h : Spells j t)
    (hs : SpellsItems js ts) : SpellsItems (j :: js) (b ++ ',' :: (b' ++ (t ++ ts)))

/-- A key and its document. -/
inductive SpellsField : String × Json → List Char → Prop
  | mk {k key b b' j t} (hk : SpellsChars k.toList key) (hb : Blank b) (hb' : Blank b')
    (h : Spells j t) : SpellsField (k, j) ('"' :: (key ++ '"' :: (b ++ ':' :: (b' ++ t))))

/-- What stands behind a field of an object: more fields, and the closing brace. -/
inductive SpellsFields : List (String × Json) → List Char → Prop
  | close {b} (hb : Blank b) : SpellsFields [] (b ++ ['\x7d'])
  | more {b b' f t fs ts} (hb : Blank b) (hb' : Blank b') (h : SpellsField f t)
    (hs : SpellsFields fs ts) : SpellsFields (f :: fs) (b ++ ',' :: (b' ++ (t ++ ts)))

end

/-- A whole text stands for a document. -/
def SpelledBy (j : Json) (text : String) : Prop :=
  ∃ before inner behind, Blank before ∧ Spells j inner ∧ Blank behind ∧
    text.toList = before ++ (inner ++ behind)

/-- Documents whose numbers are integers of 64 bits and whose objects have no key twice, by how deep
arrays and objects nest in them. -/
inductive Exact : Nat → Json → Prop
  | null {d} : Exact d null
  | bool {d} (b : Bool) : Exact d (bool b)
  | int {d i} (hmin : -0x8000000000000000 ≤ i) (hmax : i ≤ 0xFFFFFFFFFFFFFFFF) : Exact d (int i)
  | str {d} (s : String) : Exact d (str s)
  | array {d items} (h : ∀ j ∈ items, Exact d j) : Exact (d + 1) (array items)
  | object {d fields} (hdistinct : fields.Distinct) (h : ∀ f ∈ fields.entries, Exact d f.2) :
    Exact (d + 1) (object fields)

end Json

namespace Natives

/-- Exact documents are written, as some standard text of them. -/
def Outside.WritesStandard (o : Outside) : Prop :=
  ∀ d j, Json.Exact d j → ∃ text, o.writeJson j = .ok text ∧ j.SpelledBy text

/-- Every standard text of an exact document, nested less than 128 deep, is read as it: integers as they
are, and the fields of objects in their order. -/
def Outside.ReadsStandard (o : Outside) : Prop :=
  ∀ d j text, Json.Exact d j → d < 128 → j.SpelledBy text → o.readJson text = .ok j

end Natives

end DotScript
