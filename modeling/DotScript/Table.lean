/-!
# Tables

Finite maps that remember the order in which their keys first came in. Storing under a key that is
already there replaces the value and keeps the place.
-/

namespace DotScript

/-- A finite map with its entries in the order of first insertion. -/
structure Table (κ α : Type) where
  entries : List (κ × α) := []

namespace Table

variable {κ α : Type} [DecidableEq κ]

/-- The value stored under a key, in a list of entries. -/
def find? (k : κ) : List (κ × α) → Option α
  | [] => none
  | (k', v) :: es => if k' = k then some v else find? k es

/-- Replace the value of a key where it stands, or add the key at the end. -/
def put (k : κ) (v : α) : List (κ × α) → List (κ × α)
  | [] => [(k, v)]
  | (k', v') :: es => if k' = k then (k', v) :: es else (k', v') :: put k v es

def get? (t : Table κ α) (k : κ) : Option α := find? k t.entries

/-- Store a value under a key. -/
def insert (t : Table κ α) (k : κ) (v : α) : Table κ α := ⟨put k v t.entries⟩

def size (t : Table κ α) : Nat := t.entries.length

/-- The keys, in the order of first insertion. -/
def keys (t : Table κ α) : List κ := t.entries.map (·.1)

/-- A table of pairs, stored from left to right. -/
def ofList (es : List (κ × α)) : Table κ α := es.foldl (fun t e => t.insert e.1 e.2) {}

@[simp] theorem find?_put_self (k : κ) (v : α) (es : List (κ × α)) :
    find? k (put k v es) = some v := by
  induction es with
  | nil => simp [put, find?]
  | cons e es ih =>
    obtain ⟨k', v'⟩ := e
    by_cases h : k' = k <;> simp [put, find?, h, ih]

theorem find?_put_of_ne {k k' : κ} (h : k ≠ k') (v : α) (es : List (κ × α)) :
    find? k' (put k v es) = find? k' es := by
  induction es with
  | nil => simp [put, find?, h]
  | cons e es ih =>
    obtain ⟨k'', v'⟩ := e
    by_cases h' : k'' = k
    · subst h'
      simp [put, find?, h]
    · simp [put, find?, h', ih]

/-- Looking up after storing: the key stored under has the new value and every other key its old
one. -/
theorem get?_insert (t : Table κ α) (k k' : κ) (v : α) :
    (t.insert k v).get? k' = if k = k' then some v else t.get? k' := by
  by_cases h : k = k'
  · subst h
    simp [get?, insert]
  · simp [get?, insert, find?_put_of_ne h, h]

end Table

end DotScript
