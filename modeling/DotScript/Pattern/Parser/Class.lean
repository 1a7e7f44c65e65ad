import DotScript.Pattern.Parser.Escape

/-!
# Bracketed classes

Sets in brackets may hold other sets and be joined by operators, which all bind equally and less than
standing side by side. What is open is kept on a stack.
-/

namespace DotScript.Pattern.Parser

/-- What is open inside a bracketed class. -/
inductive ClassFrame
  /-- An open bracket with what stood before it, the last first. -/
  | bracket (before : List ClassTree) (negated : Bool) (region : Region)
  | op (kind : SetOp) (left : ClassTree)

/-- Sets side by side, the last first, read from a place on. -/
def sideBySide (place : Place) (items : List ClassTree) : ClassTree :=
  match items.reverse with
  | [] => .empty (.at place)
  | [t] => t
  | t :: ts => .union (t :: ts) ⟨t.region.start, (ts.getLastD t).region.stop⟩

/-- Apply the operator that waits for its right side, if there is one. -/
def closeOp (right : ClassTree) : List ClassFrame → ClassTree × List ClassFrame
  | .op kind left :: stack => (.op kind left right ⟨left.region.start, right.region.stop⟩, stack)
  | stack => (right, stack)

/-- The innermost open bracket is never closed. -/
def failUnclosed {α : Type} : List ClassFrame → Parse α
  | [] => failAtPlace .classUnclosed
  | .bracket _ _ region :: _ => fail .classUnclosed region
  | _ :: stack => failUnclosed stack

/-- The ASCII class with a name. -/
def asciiClass? (name : String) : Option AsciiClass :=
  match name with
  | "alnum" => some .alnum
  | "alpha" => some .alpha
  | "ascii" => some .ascii
  | "blank" => some .blank
  | "cntrl" => some .cntrl
  | "digit" => some .digit
  | "graph" => some .graph
  | "lower" => some .lower
  | "print" => some .print
  | "punct" => some .punct
  | "space" => some .space
  | "upper" => some .upper
  | "word" => some .word
  | "xdigit" => some .xdigit
  | _ => none

/-- An ASCII class by name at the front of a text, with the length of its text. -/
def asciiAt? (text : List Char) : Option (AsciiClass × Bool × Nat) :=
  match text with
  | '[' :: ':' :: cs =>
    let negated := cs.head? == some '^'
    let body := if negated then cs.drop 1 else cs
    let name := body.takeWhile (· != ':')
    match body.drop name.length with
    | ':' :: ']' :: _ =>
      (asciiClass? (.ofList name)).map fun k =>
        (k, negated, name.length + 4 + (if negated then 1 else 0))
    | _ => none
  | _ => none

/-- Go on by a number of characters. -/
def bumpMany : Nat → Parse Unit
  | 0 => return
  | n + 1 => do
    discard bump
    bumpMany n

/-- Dashes at the front of a class stand for themselves. The last read comes first. -/
def leadingDashes (start : Place) : Nat → List ClassTree → Parse (List ClassTree)
  | 0, items => return items
  | fuel + 1, items => do
    if ← isAt '-' then
      let dash : ClassTree := .literal { char := '-', region := ← currentRegion }
      if !(← bumpSpace) then fail .classUnclosed (.at start)
      leadingDashes start fuel (dash :: items)
    else return items

/-- Read an opening bracket, with the sign and the literals that only the front of a class may
have. -/
def openClass (before : List ClassTree) : Parse (ClassFrame × List ClassTree) := do
  let start ← here
  if !(← bumpSpace) then fail .classUnclosed (← since start)
  let negated ← isAt '^'
  if negated then
    if !(← bumpSpace) then fail .classUnclosed (← since start)
  let dashes ← leadingDashes start (← remaining) []
  let items ←
    if dashes.isEmpty && (← isAt ']') then
      let bracket : ClassTree := .literal { char := ']', region := ← currentRegion }
      if !(← bumpSpace) then fail .classUnclosed (← since start)
      pure [bracket]
    else pure dashes
  return (.bracket before negated (← since start), items)

/-- One character or class inside brackets. -/
def classPrimitive : Parse Primitive := do
  match ← current? with
  | some '\\' => escape
  | some c =>
    let region ← currentRegion
    discard bump
    return .literal { char := c, region }
  | none => failAtPlace .classUnclosed

/-- A character, a class or a range inside brackets. -/
def classRange (stack : List ClassFrame) : Parse ClassTree := do
  let first ← classPrimitive
  skipSpace
  if ← atEnd then failUnclosed stack
  let next ← nextSpaced?
  if !(← isAt '-') || next == some ']' || next == some '-' then first.inClass
  else
    if !(← bumpSpace) then failUnclosed stack
    let last ← classPrimitive
    let lo ← first.bound
    let hi ← last.bound
    if hi.char < lo.char then fail .classRange ⟨lo.region.start, hi.region.stop⟩
    return .range lo hi

/-- The set operator at the cursor, which is written with a doubled sign. -/
def setOp? : Parse (Option SetOp) := do
  match ← current?, ← next? with
  | some '&', some '&' => return some .intersection
  | some '-', some '-' => return some .difference
  | some '~', some '~' => return some .symmetricDifference
  | _, _ => return none

/-- Read the rest of a bracketed class. `items` are the sets side by side so far, the last first. -/
def classFrom : Nat → List ClassFrame → List ClassTree → Parse ClassTree
  | 0, stack, _ => failUnclosed stack
  | fuel + 1, stack, items => do
    skipSpace
    match ← current? with
    | none => failUnclosed stack
    | some '[' =>
      match asciiAt? (← get).rest with
      | some (kind, negated, size) =>
        let start ← here
        bumpMany size
        classFrom fuel stack (.ascii kind negated (← since start) :: items)
      | none =>
        let (frame, inner) ← openClass items
        classFrom fuel (frame :: stack) inner
    | some ']' =>
      let (set, stack) := closeOp (sideBySide (← here) items) stack
      match stack with
      | .bracket before negated region :: outer =>
        discard bump
        let closed : ClassTree := .bracketed negated set ⟨region.start, ← here⟩
        if outer.isEmpty then return closed
        else classFrom fuel outer (closed :: before)
      | _ => failUnclosed stack
    | some _ =>
      match ← setOp? with
      | some kind =>
        let (left, stack) := closeOp (sideBySide (← here) items) stack
        bumpMany 2
        classFrom fuel (.op kind left :: stack) []
      | none =>
        let item ← classRange stack
        classFrom fuel stack (item :: items)

/-- Read a bracketed class; the cursor is at the bracket. -/
def bracketedClass : Parse ClassTree := do
  let (frame, items) ← openClass []
  classFrom ((← remaining) + 1) [frame] items

end DotScript.Pattern.Parser
