import DotScript.Pattern.Program
import DotScript.Pattern.Parser.Group

/-!
# Searching with patterns

A program is run over a text by following all its threads at once, in the order of preference. A
thread that accepts ends those behind it. Of all places the leftmost with a match is taken, and of
the matches there the preferred one.

* `Pattern.compile`: the pattern of a text;
* `Pattern.matchLength?`: the match at a place;
* `Pattern.allMatches`: all matches of a text from left to right, without overlap;
* `Pattern.pieces`: what lies between the matches.
-/

namespace DotScript

/-- A pattern ready for searching. -/
structure Pattern where
  program : Array Pattern.Instr

namespace Pattern

def compile (text : String) : Except PatternError Pattern := do
  let tree ← (Parser.parse text).mapError .unreadable
  let (node, _) ← (tree.node {}).mapError .unreadable
  if maxBytes < node.size * instrBytes then .error (.tooLarge maxBytes)
  else return ⟨node.program⟩

/-! ## Threads -/

/-- Follow threads, in the order of preference, to the instructions that take a character or accept.
Each address is visited once, for the first thread that comes to it. -/
def follow (p : Pattern) (prev next : Option Char) :
    Nat → List Nat → Array Bool → List Nat → List Nat × Array Bool
  | 0, _, seen, out => (out, seen)
  | _, [], seen, out => (out, seen)
  | fuel + 1, pc :: stack, seen, out =>
    if seen.getD pc true then follow p prev next fuel stack seen out
    else
      let seen := seen.setIfInBounds pc true
      match p.program[pc]? with
      | none => follow p prev next fuel stack seen out
      | some (.char _) | some .accept => follow p prev next fuel stack seen (pc :: out)
      | some (.look l) =>
        follow p prev next fuel (if l.holds prev next then (pc + 1) :: stack else stack) seen out
      | some (.split a b) => follow p prev next fuel (a :: b :: stack) seen out
      | some (.jump a) => follow p prev next fuel (a :: stack) seen out

/-- The threads at a place, from the addresses they come from. -/
def threads (p : Pattern) (prev next : Option Char) (sources : List Nat) : List Nat :=
  let size := p.program.size
  (p.follow prev next (sources.length + 2 * size + 1) sources (Array.replicate size false) []).1.reverse

/-- Where threads go with a character, and whether one accepts before the character; those behind an
accepting thread are dropped. -/
def advance (p : Pattern) (c : Char) : List Nat → List Nat × Bool
  | [] => ([], false)
  | pc :: pcs =>
    match p.program[pc]? with
    | some .accept => ([], true)
    | some (.char set) =>
      let (rest, accepted) := p.advance c pcs
      (if set c then (pc + 1) :: rest else rest, accepted)
    | _ => p.advance c pcs

def accepts (p : Pattern) (pcs : List Nat) : Bool :=
  pcs.any fun pc => match p.program[pc]? with
    | some .accept => true
    | _ => false

/-- Run threads over a text. Gives the length of the preferred match, counted on from `length`; `best`
is the one found so far. -/
def runThreads (p : Pattern) (prev : Option Char) (sources : List Nat) (length : Nat)
    (best : Option Nat) : List Char → Option Nat
  | [] => if p.accepts (p.threads prev none sources) then some length else best
  | c :: cs =>
    let here := p.threads prev (some c) sources
    let (next, accepted) := p.advance c here
    let best := if accepted then some length else best
    if next.isEmpty then best else p.runThreads (some c) next (length + 1) best cs

/-- The length of the match at the front of a text. -/
def matchLength? (p : Pattern) (prev : Option Char) (text : List Char) : Option Nat :=
  p.runThreads prev [0] 0 none text

/-! ## Matches -/

/-- The characters from `start` up to and not including `stop`. -/
structure Match where
  start : Nat
  stop : Nat
  deriving DecidableEq, Repr

def Match.isEmpty (m : Match) : Bool := m.start == m.stop

/-- The first match in a text that begins at place `start`. -/
def find (p : Pattern) (prev : Option Char) (start : Nat) : List Char → Option Match
  | [] => (p.matchLength? prev []).map fun n => ⟨start, start + n⟩
  | c :: cs =>
    match p.matchLength? prev (c :: cs) with
    | some n => some ⟨start, start + n⟩
    | none => p.find (some c) (start + 1) cs

/-- The first match in a text at or behind a place. -/
def findFrom (p : Pattern) (text : List Char) (start : Nat) : Option Match :=
  if text.length < start then none
  else p.find (if start = 0 then none else text[start - 1]?) start (text.drop start)

/-- The matches from a place on, at most `fuel`. An empty match right behind the one before does not
count. -/
def matchesFrom (p : Pattern) (text : List Char) : Nat → Nat → Option Nat → List Match
  | 0, _, _ => []
  | fuel + 1, start, last =>
    match p.findFrom text start with
    | none => []
    | some m =>
      let found := if m.isEmpty && last == some m.stop then p.findFrom text (start + 1) else some m
      match found with
      | none => []
      | some m => m :: p.matchesFrom text fuel m.stop (some m.stop)

def allMatches (p : Pattern) (text : List Char) : List Match :=
  p.matchesFrom text (text.length + 2) 0 none

/-- What lies before, between and behind matches; the text begins at place `start`. -/
def piecesFrom (start : Nat) (text : List Char) : List Match → List (List Char)
  | [] => [text]
  | m :: ms =>
    text.take (m.start - start) :: piecesFrom m.stop (text.drop (m.stop - start)) ms

/-- The pieces of a text between the matches of a pattern. -/
def pieces (p : Pattern) (text : List Char) : List (List Char) := piecesFrom 0 text (p.allMatches text)

end Pattern

end DotScript
