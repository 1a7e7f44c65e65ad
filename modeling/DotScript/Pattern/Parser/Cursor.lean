import DotScript.Pattern.Tree

/-!
# Reading patterns, character by character

In extended mode white space and comments between the parts of a pattern are passed over.
-/

namespace DotScript.Pattern.Parser

open DotScript.Text

/-- Where reading stands, and what it has to remember. -/
structure State where
  rest : List Char
  place : Place := {}
  /-- Whether white space and comments are passed over. -/
  extended : Bool := false
  /-- The names of groups so far. -/
  names : List (String × Region) := []

/-- Computations that read a pattern. -/
abbrev Parse := StateT State (Except SyntaxError)

def fail {α : Type} (fault : Fault) (region : Region) : Parse α :=
  throw { fault, region }

def here : Parse Place := return (← get).place

def current? : Parse (Option Char) := return (← get).rest.head?

def atEnd : Parse Bool := return (← get).rest.isEmpty

def isAt (c : Char) : Parse Bool := return (← current?) == some c

/-- The region of the character at the current place. -/
def currentRegion : Parse Region := do
  let s ← get
  match s.rest with
  | [] => return .at s.place
  | c :: _ => return ⟨s.place, s.place.after c⟩

/-- The region from a place up to the current one. -/
def since (start : Place) : Parse Region := return ⟨start, ← here⟩

/-- Fail at the character at the current place. -/
def failHere {α : Type} (fault : Fault) : Parse α := do fail fault (← currentRegion)

/-- Fail at the current place. -/
def failAtPlace {α : Type} (fault : Fault) : Parse α := do fail fault (.at (← here))

/-- Go on to the next character; gives whether there is one. -/
def bump : Parse Bool := do
  let s ← get
  match s.rest with
  | [] => return false
  | c :: cs =>
    set { s with rest := cs, place := s.place.after c }
    return !cs.isEmpty

/-- What is left behind white space and comments. -/
def afterSpace (inComment : Bool) : List Char → Place → List Char × Place
  | [], p => ([], p)
  | c :: cs, p =>
    if inComment then afterSpace (c != '\n') cs (p.after c)
    else if isBlank c then afterSpace false cs (p.after c)
    else if c == '#' then afterSpace true cs (p.after c)
    else (c :: cs, p)

/-- Pass over white space and comments, in extended mode. -/
def skipSpace : Parse Unit :=
  modify fun s =>
    if s.extended then
      let (rest, place) := afterSpace false s.rest s.place
      { s with rest, place }
    else s

/-- Go on to the next character that counts; gives whether there is one. -/
def bumpSpace : Parse Bool := do
  if ← bump then
    skipSpace
    return !(← atEnd)
  else return false

/-- Pass over a word, if it stands at the current place. -/
def bumpIf (word : String) : Parse Bool := do
  if word.toList.isPrefixOf (← get).rest then
    for _ in word.toList do
      discard bump
    return true
  else return false

/-- Pass over white space, in every mode. -/
def skipBlanks : Parse Unit := do
  for c in (← get).rest do
    if isBlank c then discard bump else break

/-- The character behind the current one. -/
def next? : Parse (Option Char) := return (← get).rest[1]?

/-- The next character that counts behind the current one; only the mark of a comment is passed over,
not its text. -/
def nextCounting (inComment : Bool) : List Char → Option Char
  | [] => none
  | c :: cs =>
    if isBlank c then nextCounting inComment cs
    else if !inComment && c == '#' then nextCounting true cs
    else some c

/-- The next character behind the current one, without white space in extended mode. -/
def nextSpaced? : Parse (Option Char) := do
  let s ← get
  if s.extended then return nextCounting false s.rest.tail else next?

/-- The characters of a class from the current place on, at most `fuel` of them. -/
def takeSpaced (p : Char → Bool) : Nat → Parse (List Char)
  | 0 => return []
  | fuel + 1 => do
    match ← current? with
    | some c =>
      if p c then
        discard bumpSpace
        return c :: (← takeSpaced p fuel)
      else return []
    | none => return []

/-- The number of characters left, a bound for loops. -/
def remaining : Parse Nat := return (← get).rest.length

end DotScript.Pattern.Parser
