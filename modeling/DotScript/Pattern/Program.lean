import DotScript.Pattern.Node

/-!
# Pattern programs

A node as a list of instructions that are followed one after the other. A choice names the branch to
be preferred first. Repetitions are written out: a count becomes so many copies.
-/

namespace DotScript.Pattern

/-- Instructions of a pattern program. -/
inductive Instr
  | char (set : CharSet)
  | look (l : Look)
  /-- Go on at either address; the first is preferred. -/
  | split (first second : Nat)
  | jump (target : Nat)
  | accept

/-- The least number of characters that a node matches. -/
def Node.least : Node → Nat
  | .empty | .look _ => 0
  | .char _ => 1
  | .repetition n _ _ sub => n * sub.least
  | .alternation alts => leastOf alts
  | .concat parts => sumOf parts
where
  leastOf : List Node → Nat
    | [] => 0
    | [n] => n.least
    | n :: ns => min n.least (leastOf ns)
  sumOf : List Node → Nat
    | [] => 0
    | n :: ns => n.least + sumOf ns

/-- A choice between going on in a body and going on behind it. -/
def choice (greedy : Bool) (body behind : Nat) : Instr :=
  if greedy then .split body behind else .split behind body

/-- Code that begins at an address. -/
abbrev Code := Nat → List Instr

/-- Copies of a body, one behind the other. -/
def copies (body : Code) : Nat → Code
  | 0, _ => []
  | n + 1, a =>
    let first := body a
    first ++ copies body n (a + first.length)

/-- A body once or more often. -/
def plus (greedy : Bool) (body : Code) : Code := fun a =>
  let code := body a
  let stop := a + code.length
  code ++ [choice greedy a (stop + 1)]

/-- A body as often as wanted. A body that can match nothing is tried at least once before the
repetition may end, so that what it prefers comes first. -/
def star (greedy mayBeEmpty : Bool) (body : Code) : Code := fun a =>
  if mayBeEmpty then
    let code := plus greedy body (a + 1)
    choice greedy (a + 1) (a + 1 + code.length) :: code
  else
    let code := body (a + 1)
    choice greedy (a + 1) (a + code.length + 2) :: (code ++ [.jump a])

/-- Up to `n` copies of a body, each of which may be the last; `stop` is the address behind all. -/
def upTo (greedy : Bool) (body : Code) (stop : Nat) : Nat → Code
  | 0, _ => []
  | n + 1, a =>
    let code := body (a + 1)
    choice greedy (a + 1) stop :: (code ++ upTo greedy body stop n (a + 1 + code.length))

/-- A body between two counts. -/
def between (least : Nat) (most : Option Nat) (greedy mayBeEmpty : Bool) (body : Code) : Code :=
  fun a =>
    match least, most with
    | 0, none => star greedy mayBeEmpty body a
    | n + 1, none =>
      let front := copies body n a
      front ++ plus greedy body (a + front.length)
    | n, some m =>
      let front := copies body n a
      let rest := m - n
      let size := (body 0).length + 1
      let b := a + front.length
      front ++ upTo greedy body (b + rest * size) rest b

mutual

def Node.code : Node → Code
  | .empty => fun _ => []
  | .char set => fun _ => [.char set]
  | .look l => fun _ => [.look l]
  | .repetition least most greedy sub =>
    between least most greedy (sub.least == 0) sub.code
  | .alternation alts => alternativesCode alts
  | .concat parts => sequenceCode parts

def sequenceCode : List Node → Code
  | [] => fun _ => []
  | n :: ns => fun a =>
    let first := n.code a
    first ++ sequenceCode ns (a + first.length)

/-- The code of alternatives, the first preferred. -/
def alternativesCode : List Node → Code
  | [] => fun _ => []
  | [n] => n.code
  | n :: ns => fun a =>
    let first := n.code (a + 1)
    let other := a + first.length + 2
    let rest := alternativesCode ns other
    .split (a + 1) other :: (first ++ .jump (other + rest.length) :: rest)

end

mutual

def Node.size : Node → Nat
  | .empty => 0
  | .char _ | .look _ => 1
  | .repetition least most _ sub =>
    match most with
    | none => max least 1 * sub.size + 2
    | some m => m * sub.size + (m - least)
  | .alternation alts => sizes alts + 2 * (alts.length - 1)
  | .concat parts => sizes parts

def sizes : List Node → Nat
  | [] => 0
  | n :: ns => n.size + sizes ns

end

/-- The bytes an instruction takes. -/
def instrBytes : Nat := 32

/-- The bytes a program may take. -/
def maxBytes : Nat := 10485760

/-- The program of a node, which ends by accepting. -/
def Node.program (n : Node) : Array Instr := (n.code 0 ++ [Instr.accept]).toArray

end DotScript.Pattern
