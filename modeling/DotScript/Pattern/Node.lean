import DotScript.Pattern.Property
import DotScript.Text.Folding

/-!
# What patterns mean

Flags are worked into the parts they hold for: a node says on its own which texts it matches. A part
that could match half a character is refused.
-/

namespace DotScript.Pattern

open DotScript.Text

/-- Conditions on the characters before and behind a place. -/
inductive Look
  | start | stop
  | startLine | endLine
  /-- Line ends are also carriage returns, alone or with a line feed. -/
  | startLineReturn | endLineReturn
  | boundary (isWord : CharSet) | notBoundary (isWord : CharSet)
  | wordStart (isWord : CharSet) | wordEnd (isWord : CharSet)
  | notAfterWord (isWord : CharSet) | notBeforeWord (isWord : CharSet)

namespace Look

/-- Whether there is a character of a set. -/
def isIn (s : CharSet) (c : Option Char) : Bool := c.any s

/-- Whether a condition holds between two characters; none stands for an end of the text. -/
def holds (l : Look) (prev next : Option Char) : Bool :=
  match l with
  | start => prev.isNone
  | stop => next.isNone
  | startLine => prev.isNone || prev == some '\n'
  | endLine => next.isNone || next == some '\n'
  | startLineReturn =>
    prev.isNone || prev == some '\n' || (prev == some '\r' && next != some '\n')
  | endLineReturn => next.isNone || next == some '\r' || (next == some '\n' && prev != some '\r')
  | boundary w => isIn w prev != isIn w next
  | notBoundary w => isIn w prev == isIn w next
  | wordStart w => !isIn w prev && isIn w next
  | wordEnd w => isIn w prev && !isIn w next
  | notAfterWord w => !isIn w prev
  | notBeforeWord w => !isIn w next

end Look

/-- Patterns without flags. -/
inductive Node
  | empty
  /-- One character of a set. -/
  | char (set : CharSet)
  | look (l : Look)
  | repetition (least : Nat) (most : Option Nat) (greedy : Bool) (sub : Node)
  | alternation (alts : List Node)
  | concat (parts : List Node)

/-! ## Flags -/

/-- The flags in force. -/
structure Flags where
  caseless : Bool := false
  multiLine : Bool := false
  dotAll : Bool := false
  swapGreed : Bool := false
  unicode : Bool := true
  crlf : Bool := false

/-- The flags after some are turned on or off. -/
def Flags.apply (f : Flags) (items : List FlagItem) : Flags :=
  let get (flag : Flag) (old : Bool) : Bool := (flagState? flag true items).getD old
  { caseless := get .caseless f.caseless
    multiLine := get .multiLine f.multiLine
    dotAll := get .dotAll f.dotAll
    swapGreed := get .swapGreed f.swapGreed
    unicode := get .unicode f.unicode
    crlf := get .crlf f.crlf }

/-! ## Sets -/

/-- Letters, marks, decimal digits, connectors and joiners of any script. -/
def isWordChar (c : Char) : Bool :=
  if c.toNat < 128 then c.isAlphanum || c == '_'
  else
    isAlphabetic c || isMark c || Category.decimalDigit.contains c ||
      Category.connector.contains c || c == '\u200c' || c == '\u200d'

/-- Letters and digits of ASCII, and the underscore. -/
def isAsciiWord (c : Char) : Bool := c.isAlphanum || c == '_'

/-- White space of ASCII. -/
def isAsciiSpace (c : Char) : Bool := (9 ≤ c.toNat && c.toNat ≤ 13) || c == ' '

/-- The members of a class written with one letter. -/
def Shorthand.set (unicode : Bool) : Shorthand → CharSet
  | digit => if unicode then Category.decimalDigit.contains else Char.isDigit
  | space => if unicode then isBlank else isAsciiSpace
  | word => if unicode then isWordChar else isAsciiWord

/-- The members of a named ASCII class. -/
def AsciiClass.set : AsciiClass → CharSet
  | alnum => Char.isAlphanum
  | alpha => Char.isAlpha
  | ascii => fun c => c.toNat < 128
  | blank => fun c => c == '\t' || c == ' '
  | cntrl => fun c => c.toNat < 32 || c.toNat == 127
  | digit => Char.isDigit
  | graph => fun c => 33 ≤ c.toNat && c.toNat ≤ 126
  | lower => Char.isLower
  | print => fun c => 32 ≤ c.toNat && c.toNat ≤ 126
  | punct => fun c => 33 ≤ c.toNat && c.toNat ≤ 126 && !c.isAlphanum
  | space => isAsciiSpace
  | upper => Char.isUpper
  | word => isAsciiWord
  | xdigit => fun c => c.isDigit || ('a' ≤ c && c ≤ 'f') || ('A' ≤ c && c ≤ 'F')

/-- The characters that differ from a character in case only; without Unicode, letters of ASCII. -/
def caseVariants (unicode : Bool) (c : Char) : List Char :=
  if unicode then variants c
  else if c.isAlpha then [c.toLower, c.toUpper]
  else [c]

namespace CharSet

/-- A set with the case variants of its members, if case does not count. -/
def folded (f : Flags) (s : CharSet) : CharSet :=
  if f.caseless then fun c => (caseVariants f.unicode c).any s else s

/-- The other characters, if wanted. -/
def negatedIf (negated : Bool) (s : CharSet) : CharSet := if negated then fun c => !s c else s

/-- Whether a set of bytes holds one that is no ASCII character. -/
def hasHighByte (s : CharSet) : Bool := (List.range 128).any fun i => s (Char.ofNat (128 + i))

/-- Combine two sets. -/
def combine : SetOp → CharSet → CharSet → CharSet
  | .intersection, s, t => fun c => s c && t c
  | .difference, s, t => fun c => s c && !t c
  | .symmetricDifference, s, t => fun c => s c != t c

/-- Refuse a set that could match half a character. -/
def checked (f : Flags) (region : Region) (s : CharSet) : Except SyntaxError CharSet :=
  if !f.unicode && hasHighByte s then .error { fault := .invalidUtf8, region } else .ok s

end CharSet

/-- The character of a literal inside a class; without Unicode it has to be a byte. -/
def Literal.inClass (f : Flags) (l : Literal) : Except SyntaxError Char :=
  if f.unicode || l.isByte || l.char.toNat < 128 then .ok l.char
  else .error { fault := .unicodeNotAllowed, region := l.region }

mutual

def ClassTree.set (f : Flags) : ClassTree → Except SyntaxError CharSet
  | .empty _ => .ok fun _ => false
  | .literal l => do
    let ch ← l.inClass f
    return fun c => c == ch
  | .range first last => do
    let lo ← first.inClass f
    let hi ← last.inClass f
    return fun c => lo ≤ c && c ≤ hi
  | .ascii kind negated region =>
    CharSet.checked f region ((CharSet.folded f kind.set).negatedIf negated)
  | .shorthand kind negated region =>
    CharSet.checked f region (CharSet.negatedIf negated (kind.set f.unicode))
  | .property query negated region =>
    if f.unicode then
      match query.set with
      | .ok s => .ok ((CharSet.folded f s).negatedIf negated)
      | .error fault => .error { fault, region }
    else .error { fault := .unicodeNotAllowed, region }
  | .bracketed negated inner region => do
    let s ← inner.set f
    CharSet.checked f region ((s.folded f).negatedIf negated)
  | .union items _ => unionSet f items
  | .op kind left right _ => do
    let s ← left.set f
    let t ← right.set f
    return CharSet.combine kind (s.folded f) (t.folded f)

def unionSet (f : Flags) : List ClassTree → Except SyntaxError CharSet
  | [] => .ok fun _ => false
  | t :: ts => do
    let s ← t.set f
    let rest ← unionSet f ts
    return fun c => s c || rest c

end

/-! ## Nodes -/

/-- The characters that a literal matches. -/
def Literal.set (f : Flags) (l : Literal) : Except SyntaxError CharSet :=
  if !f.unicode && l.isByte && 127 < l.char.toNat then
    .error { fault := .invalidUtf8, region := l.region }
  else if f.caseless then .ok fun c => (caseVariants f.unicode l.char).contains c
  else .ok fun c => c == l.char

/-- The characters that a dot matches. -/
def dotSet (f : Flags) (region : Region) : Except SyntaxError CharSet :=
  if !f.unicode then .error { fault := .invalidUtf8, region }
  else if f.dotAll then .ok fun _ => true
  else if f.crlf then .ok fun c => c != '\n' && c != '\r'
  else .ok fun c => c != '\n'

/-- The condition of an assertion. -/
def Assertion.look (f : Flags) : Assertion → Look
  | startLine => if f.multiLine then (if f.crlf then .startLineReturn else .startLine) else .start
  | endLine => if f.multiLine then (if f.crlf then .endLineReturn else .endLine) else .stop
  | startText => .start
  | endText => .stop
  | wordBoundary => .boundary (Shorthand.word.set f.unicode)
  | notWordBoundary => .notBoundary (Shorthand.word.set f.unicode)
  | wordStart => .wordStart (Shorthand.word.set f.unicode)
  | wordEnd => .wordEnd (Shorthand.word.set f.unicode)
  | wordStartHalf => .notAfterWord (Shorthand.word.set f.unicode)
  | wordEndHalf => .notBeforeWord (Shorthand.word.set f.unicode)

mutual

/-- The meaning of a pattern, and the flags behind it. -/
def Tree.node (f : Flags) : Tree → Except SyntaxError (Node × Flags)
  | .empty _ => .ok (.empty, f)
  | .flags items _ => .ok (.empty, f.apply items)
  | .literal l => do return (.char (← l.set f), f)
  | .dot region => do return (.char (← dotSet f region), f)
  | .assertion kind _ => .ok (.look (kind.look f), f)
  | .cls set => do return (.char (← set.set f), f)
  | .repetition least most greedy sub _ => do
    let (n, f') ← sub.node f
    return (.repetition least most (greedy != f.swapGreed) n, f')
  | .group items sub _ => do
    let (n, _) ← sub.node (f.apply items)
    return (n, f)
  | .alternation alts _ => do
    let (ns, f) ← treeNodes f alts
    return (.alternation ns, f)
  | .concat parts _ => do
    let (ns, f) ← treeNodes f parts
    return (.concat ns, f)

/-- The meanings of patterns from left to right, each under the flags the one before has left. -/
def treeNodes (f : Flags) : List Tree → Except SyntaxError (List Node × Flags)
  | [] => .ok ([], f)
  | t :: ts => do
    let (n, f) ← t.node f
    let (ns, f) ← treeNodes f ts
    return (n :: ns, f)

end

end DotScript.Pattern
