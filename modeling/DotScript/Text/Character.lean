import DotScript.Text.Category.Letters
import DotScript.Text.Category.Marks
import DotScript.Text.Category.Numbers
import DotScript.Text.Category.Marking

/-!
# Character classes

The classes that the language, its patterns and its quoted texts are written with. Each class
answers ASCII by comparison and everything else from the tables of the character database.
-/

namespace DotScript.Text

/-- White space: the ASCII blanks and line breaks, the next-line and no-break characters, and the
spaces and separators of the character database. -/
def isBlank (c : Char) : Bool :=
  let n := c.toNat
  (9 ≤ n && n ≤ 13) || n == 0x20 || n == 0x85 || n == 0xA0 || n == 0x1680 ||
    (0x2000 ≤ n && n ≤ 0x200A) || n == 0x2028 || n == 0x2029 || n == 0x202F || n == 0x205F ||
    n == 0x3000

/-- A letter of any script. -/
def isLetter (c : Char) : Bool :=
  if c.toNat < 128 then c.isAlpha
  else
    Category.uppercase.contains c || Category.lowercase.contains c ||
      Category.titlecase.contains c || Category.modifierLetter.contains c ||
      Category.otherLetter.contains c

/-- Letters, numbers written with letters, and the marks that count as alphabetic. -/
def isAlphabetic (c : Char) : Bool :=
  if c.toNat < 128 then c.isAlpha
  else isLetter c || Category.letterNumber.contains c || Category.alphabeticMark.contains c

/-- Digits and numbers of any script. -/
def isNumeric (c : Char) : Bool :=
  if c.toNat < 128 then c.isDigit
  else
    Category.decimalDigit.contains c || Category.letterNumber.contains c ||
      Category.otherNumber.contains c

/-- Alphabetic or numeric. -/
def isAlphanumeric (c : Char) : Bool := isAlphabetic c || isNumeric c

def isMark (c : Char) : Bool :=
  Category.nonspacingMark.contains c || Category.spacingMark.contains c ||
    Category.enclosingMark.contains c

/-- A character drawn together with the one before it. -/
def isExtending (c : Char) : Bool :=
  if c.toNat < 128 then false
  else
    Category.nonspacingMark.contains c || Category.enclosingMark.contains c ||
      Category.extendingOther.contains c

def isPunctuation (c : Char) : Bool :=
  Category.connector.contains c || Category.dash.contains c || Category.opening.contains c ||
    Category.closing.contains c || Category.initialQuote.contains c ||
    Category.finalQuote.contains c || Category.otherPunctuation.contains c

def isSymbol (c : Char) : Bool :=
  Category.mathSymbol.contains c || Category.currency.contains c ||
    Category.modifierSymbol.contains c || Category.otherSymbol.contains c

/-- A character with a shape: a letter, mark, number, punctuation mark or symbol, or the plain
space. Separators, controls, format characters and unassigned code points have none. -/
def isPrintable (c : Char) : Bool :=
  if c.toNat < 128 then 0x20 ≤ c.toNat && c.toNat < 0x7F
  else isLetter c || isMark c || isNumeric c || isPunctuation c || isSymbol c

end DotScript.Text
