import DotScript.Pattern.Parser.Class

/-!
# Groups, repetitions and whole patterns

Open groups and alternations are kept on a stack, so that the innermost open group can be named when
the pattern ends too early.
-/

namespace DotScript.Pattern.Parser

open DotScript.Text

/-! ## Flags -/

/-- The flag of a letter. -/
def flag? (c : Char) : Option Flag :=
  match c with
  | 'i' => some .caseless
  | 'm' => some .multiLine
  | 's' => some .dotAll
  | 'U' => some .swapGreed
  | 'u' => some .unicode
  | 'R' => some .crlf
  | 'x' => some .extended
  | _ => none

/-- Read flags up to a colon or a closing parenthesis, behind those already read, the last first. -/
def flagItems : Nat → List (FlagItem × Region) → Parse (List FlagItem)
  | 0, _ => failAtPlace .flagUnfinished
  | fuel + 1, read => do
    match ← current? with
    | none => failAtPlace .flagUnfinished
    | some c =>
      if c == ':' || c == ')' then
        match read with
        | (.negation, region) :: _ => fail .flagDangling region
        | _ => return (read.map (·.1)).reverse
      else
        let region ← currentRegion
        let item ←
          if c == '-' then pure FlagItem.negation
          else
            match flag? c with
            | some f => pure (.flag f)
            | none => fail .flagUnknown region
        match read.find? (fun e => e.1 == item) with
        | some (_, earlier) =>
          let fault := if c == '-' then Fault.flagRepeatedNegation else .flagDuplicate
          throw { fault, region, other? := some earlier }
        | none =>
          if !(← bump) then failAtPlace .flagUnfinished
          flagItems fuel ((item, region) :: read)

/-! ## Group names -/

/-- Characters of group names. -/
def isNameChar (first : Bool) (c : Char) : Bool :=
  if first then c == '_' || isAlphabetic c
  else c == '_' || c == '.' || c == '[' || c == ']' || isAlphanumeric c

/-- Read the characters of a name up to the closing angle bracket. -/
def nameChars : Nat → Bool → Parse (List Char)
  | 0, _ => failAtPlace .groupNameUnclosed
  | fuel + 1, first => do
    match ← current? with
    | none => failAtPlace .groupNameUnclosed
    | some '>' => return []
    | some c =>
      if !isNameChar first c then failHere .groupNameInvalid
      discard bump
      return c :: (← nameChars fuel false)

/-- Read the name of a group and remember it. -/
def groupName : Parse Unit := do
  let start ← here
  let name ← nameChars ((← remaining) + 1) true
  let region ← since start
  discard bump
  if name.isEmpty then fail .groupNameEmpty (.at start)
  let name := String.ofList name
  match (← get).names.lookup name with
  | some earlier => throw { fault := .groupNameDuplicate, region, other? := some earlier }
  | none => modify fun s => { s with names := (name, region) :: s.names }

/-! ## Groups -/

/-- What a parenthesis opens. -/
inductive Opening
  /-- Flags for the rest of the enclosing group. -/
  | flags (items : List FlagItem) (region : Region)
  | group (items : List FlagItem) (region : Region)

/-- Whether a look-around begins at the cursor; it is passed over. -/
def lookAroundAhead : Parse Bool := do
  if ← bumpIf "?=" then return true
  if ← bumpIf "?!" then return true
  if ← bumpIf "?<=" then return true
  bumpIf "?<!"

/-- Whether a named group begins at the cursor; what stands before the name is passed over. -/
def namedAhead : Parse Bool := do
  if ← bumpIf "?P<" then return true
  bumpIf "?<"

/-- Read an opening parenthesis with what belongs to it. -/
def opening : Parse Opening := do
  let paren ← currentRegion
  discard bump
  skipSpace
  if ← lookAroundAhead then fail .lookAround (← since paren.start)
  let inner ← here
  if ← namedAhead then
    groupName
    return .group [] paren
  else if ← bumpIf "?" then
    if ← atEnd then fail .groupUnclosed paren
    let items ← flagItems ((← remaining) + 1) []
    let closes ← isAt ')'
    discard bump
    if closes then
      if items.isEmpty then fail .repetitionMissing (.at inner)
      return .flags items (← since paren.start)
    else return .group items paren
  else return .group [] paren

/-! ## Repetitions -/

/-- The greatest count that can be written. -/
def maxCount : Nat := 0xFFFFFFFF

/-- Read a count, with white space around it. Reading goes on behind it even if it is wrong. -/
def count : Parse (Except SyntaxError Nat) := do
  skipBlanks
  let start ← here
  let digits ← takeSpaced Char.isDigit (← remaining)
  let region ← since start
  skipBlanks
  if digits.isEmpty then return .error { fault := .countEmpty, region }
  let n := Number.digitsValue digits
  return if n ≤ maxCount then .ok n else .error { fault := .decimalInvalid, region }

/-- The pattern before a repetition operator: the last one read, unless nothing can be repeated. -/
def repeated : List Tree → Parse (Tree × List Tree)
  | [] | .empty _ :: _ | .flags _ _ :: _ => failAtPlace .repetitionMissing
  | t :: parts => return (t, parts)

/-- Whether a question mark makes a repetition prefer fewer. -/
def lazyMark : Parse Bool := do
  if ← isAt '?' then
    discard bump
    return true
  else return false

/-- Read an operator of one character. -/
def uncounted (least : Nat) (most : Option Nat) (parts : List Tree) : Parse (List Tree) := do
  let (sub, parts) ← repeated parts
  discard bump
  let greedy := !(← lazyMark)
  return .repetition least most greedy sub ⟨sub.region.start, ← here⟩ :: parts

/-- Read the bounds of a counted repetition, up to the closing brace. -/
def countBounds (start : Place) : Parse (Nat × Option Nat) := do
  let least ← count
  if ← atEnd then fail .countUnclosed (← since start)
  if ← isAt ',' then
    if !(← bumpSpace) then fail .countUnclosed (← since start)
    if ← isAt '\x7d' then
      let n ← least
      return (n, none)
    else
      let n ← least
      let m ← (← count)
      return (n, some m)
  else
    let n ← least
    return (n, some n)

/-- Read a counted repetition. -/
def counted (parts : List Tree) : Parse (List Tree) := do
  let start ← here
  let (sub, parts) ← repeated parts
  if !(← bumpSpace) then fail .countUnclosed (← since start)
  let (least, most) ← countBounds start
  if !(← isAt '\x7d') then fail .countUnclosed (← since start)
  let more ← bumpSpace
  let greedy := !(more && (← lazyMark))
  if most.any (· < least) then fail .countRange (← since start)
  return .repetition least most greedy sub ⟨sub.region.start, ← here⟩ :: parts

/-! ## Patterns -/

/-- What is open around the part being read. -/
inductive Frame
  | group (items : List FlagItem) (region : Region) (parts : List Tree) (start : Place)
      (extended : Bool)
  /-- Alternatives, the last first. -/
  | alternation (alts : List Tree) (start : Place)

/-- Patterns one after the other, the last first. -/
def sequence (region : Region) (parts : List Tree) : Tree :=
  match parts with
  | [] => .empty region
  | [t] => t
  | _ => .concat parts.reverse region

/-- Close the alternation that is open, if there is one. -/
def closeAlternation (last : Tree) (stop : Place) : List Frame → Tree × List Frame
  | .alternation alts start :: stack => (.alternation (last :: alts).reverse ⟨start, stop⟩, stack)
  | stack => (last, stack)

/-- One character of a pattern that is no operator. -/
def primitive (c : Char) : Parse Primitive := do
  if c == '\\' then escape
  else
    let region ← currentRegion
    discard bump
    match c with
    | '.' => return .dot region
    | '^' => return .assertion .startLine region
    | '$' => return .assertion .endLine region
    | _ => return .literal { char := c, region }

/-- Turn extended mode on or off as flags say. -/
def applyExtended (items : List FlagItem) : Parse Unit :=
  match flagState? .extended true items with
  | some on => modify fun s => { s with extended := on }
  | none => return

/-- Read the rest of a pattern. `parts` are the patterns of the current sequence so far, the last
first, and `start` is where it began. -/
def patternFrom : Nat → List Frame → Place → List Tree → Parse Tree
  | 0, _, start, _ => fail .groupUnclosed (.at start)
  | fuel + 1, stack, start, parts => do
    skipSpace
    match ← current? with
    | none =>
      let (tree, stack) := closeAlternation (sequence ⟨start, ← here⟩ parts) (← here) stack
      match stack with
      | .group _ region _ _ _ :: _ => fail .groupUnclosed region
      | _ => return tree
    | some '(' =>
      match ← opening with
      | .flags items region =>
        applyExtended items
        patternFrom fuel stack start (.flags items region :: parts)
      | .group items region =>
        let extended := (← get).extended
        applyExtended items
        patternFrom fuel (.group items region parts start extended :: stack) (← here) []
    | some ')' =>
      let (inner, stack) := closeAlternation (sequence ⟨start, ← here⟩ parts) (← here) stack
      match stack with
      | .group items region before start extended :: stack =>
        modify fun s => { s with extended }
        discard bump
        let group : Tree := .group items inner ⟨region.start, ← here⟩
        patternFrom fuel stack start (group :: before)
      | _ => failHere .groupUnopened
    | some '|' =>
      let branch := sequence ⟨start, ← here⟩ parts
      discard bump
      match stack with
      | .alternation alts first :: stack =>
        patternFrom fuel (.alternation (branch :: alts) first :: stack) (← here) []
      | stack => patternFrom fuel (.alternation [branch] start :: stack) (← here) []
    | some '[' =>
      let set ← bracketedClass
      patternFrom fuel stack start (.cls set :: parts)
    | some '?' => patternFrom fuel stack start (← uncounted 0 (some 1) parts)
    | some '*' => patternFrom fuel stack start (← uncounted 0 none parts)
    | some '+' => patternFrom fuel stack start (← uncounted 1 none parts)
    | some '\x7b' => patternFrom fuel stack start (← counted parts)
    | some c =>
      let p ← primitive c
      patternFrom fuel stack start (p.tree :: parts)

/-- Groups, classes, sequences and repetitions may nest up to this depth. -/
def maxNesting : Nat := 250

def parse (pattern : String) : Except SyntaxError Tree := do
  let cs := pattern.toList
  let (tree, _) ← (patternFrom (cs.length + 1) [] {} []).run { rest := cs }
  match tree.tooDeep? maxNesting with
  | some region => .error { fault := .nestedTooDeep maxNesting, region }
  | none => .ok tree

end DotScript.Pattern.Parser
