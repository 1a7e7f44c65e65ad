import DotScript.Pattern.Error

/-!
# Pattern trees

A pattern as it is written, every part with its region.
-/

namespace DotScript.Pattern

/-- A literal character. One written as a byte, by two hexadecimal digits, is marked. -/
structure Literal where
  char : Char
  isByte : Bool := false
  region : Region

/-- The classes written with one letter. -/
inductive Shorthand
  | digit | space | word
  deriving DecidableEq, Repr

/-- The named classes of ASCII characters. -/
inductive AsciiClass
  | alnum | alpha | ascii | blank | cntrl | digit | graph | lower | print | punct | space | upper
  | word | xdigit
  deriving DecidableEq, Repr

/-- How a property of characters is asked for. -/
inductive Query
  | named (name : String)
  | valued (name value : String)
  deriving DecidableEq, Repr

inductive SetOp
  | intersection | difference | symmetricDifference
  deriving DecidableEq, Repr

/-- Sets of characters. -/
inductive ClassTree
  | empty (region : Region)
  | literal (l : Literal)
  | range (first last : Literal)
  | ascii (kind : AsciiClass) (negated : Bool) (region : Region)
  | shorthand (kind : Shorthand) (negated : Bool) (region : Region)
  | property (query : Query) (negated : Bool) (region : Region)
  | bracketed (negated : Bool) (inner : ClassTree) (region : Region)
  | union (items : List ClassTree) (region : Region)
  | op (kind : SetOp) (left right : ClassTree) (region : Region)

def ClassTree.region : ClassTree → Region
  | literal l => l.region
  | range first last => ⟨first.region.start, last.region.stop⟩
  | empty r | ascii _ _ r | shorthand _ _ r | property _ _ r | bracketed _ _ r | union _ r
  | op _ _ _ r => r

/-- The options of matching. -/
inductive Flag
  | caseless | multiLine | dotAll | swapGreed | unicode | crlf | extended
  deriving DecidableEq, Repr

/-- Flags in the order written; a negation turns off those behind it. -/
inductive FlagItem
  | negation
  | flag (f : Flag)
  deriving DecidableEq, Repr

/-- Whether flags turn one on or off; none if they do not mention it. -/
def flagState? (f : Flag) (on : Bool) : List FlagItem → Option Bool
  | [] => none
  | .negation :: items => flagState? f false items
  | .flag g :: items => if g = f then some on else flagState? f on items

/-- Conditions on a place in the text. -/
inductive Assertion
  | startLine | endLine | startText | endText
  | wordBoundary | notWordBoundary | wordStart | wordEnd | wordStartHalf | wordEndHalf
  deriving DecidableEq, Repr

/-- Patterns. -/
inductive Tree
  | empty (region : Region)
  | flags (items : List FlagItem) (region : Region)
  | literal (l : Literal)
  | dot (region : Region)
  | assertion (kind : Assertion) (region : Region)
  | cls (set : ClassTree)
  | repetition (least : Nat) (most : Option Nat) (greedy : Bool) (sub : Tree) (region : Region)
  | group (items : List FlagItem) (sub : Tree) (region : Region)
  | alternation (alts : List Tree) (region : Region)
  | concat (parts : List Tree) (region : Region)

def Tree.region : Tree → Region
  | literal l => l.region
  | cls set => set.region
  | empty r | flags _ r | dot r | assertion _ r | repetition _ _ _ _ r | group _ _ r
  | alternation _ r | concat _ r => r

/-! ## Nesting -/

mutual

/-- The first region, from outside in and left to right, that lies deeper than `depth` levels. -/
def ClassTree.tooDeep? : Nat → ClassTree → Option Region
  | 0, .bracketed _ _ r | 0, .union _ r | 0, .op _ _ _ r => some r
  | depth + 1, .bracketed _ inner _ => inner.tooDeep? depth
  | depth + 1, .union items _ => tooDeepItem? depth items
  | depth + 1, .op _ left right _ => left.tooDeep? depth <|> right.tooDeep? depth
  | _, _ => none

/-- The first region among sets that lies too deep. -/
def tooDeepItem? (depth : Nat) : List ClassTree → Option Region
  | [] => none
  | t :: ts => t.tooDeep? depth <|> tooDeepItem? depth ts

end

mutual

/-- The first region, from outside in and left to right, that lies deeper than `depth` levels. -/
def Tree.tooDeep? : Nat → Tree → Option Region
  | 0, .cls (.bracketed _ _ r) | 0, .repetition _ _ _ _ r | 0, .group _ _ r
  | 0, .alternation _ r | 0, .concat _ r => some r
  | depth + 1, .cls set => set.tooDeep? (depth + 1)
  | depth + 1, .repetition _ _ _ sub _ => sub.tooDeep? depth
  | depth + 1, .group _ sub _ => sub.tooDeep? depth
  | depth + 1, .alternation alts _ => tooDeepPart? depth alts
  | depth + 1, .concat parts _ => tooDeepPart? depth parts
  | _, _ => none

/-- The first region among patterns that lies too deep. -/
def tooDeepPart? (depth : Nat) : List Tree → Option Region
  | [] => none
  | t :: ts => t.tooDeep? depth <|> tooDeepPart? depth ts

end

end DotScript.Pattern
