import DotScript.Pattern.Tree
import DotScript.Text.Character
import DotScript.Text.Category.Others
import DotScript.Text.Script

/-!
# Properties by name

The sets of characters that patterns ask for by the names of the character database. Names are
compared without case, blanks, dashes and underscores, and without a leading `is`.
-/

namespace DotScript.Pattern

open DotScript.Text

/-- A set of characters. -/
abbrev CharSet := Char → Bool

/-- A name in small letters without blanks and separators. -/
def normalName (name : String) : String :=
  let cs := name.toList
  let begun := cs.length ≥ 2 && (cs.take 2).map Char.toLower == ['i', 's']
  let kept := ((if begun then cs.drop 2 else cs).filter fun c =>
    c.toNat < 128 && c != ' ' && c != '_' && c != '-').map Char.toLower
  String.ofList (if begun && kept == ['c'] then ['i', 's', 'c'] else kept)

/-- A separator: a space, a line separator or a paragraph separator. -/
def isSeparator (c : Char) : Bool :=
  Category.spaceSeparator.contains c || c == '\u2028' || c == '\u2029'

/-- A character to which nothing is assigned. -/
def isUnassigned (c : Char) : Bool :=
  !(isLetter c || isMark c || isNumeric c || isPunctuation c || isSymbol c || isSeparator c ||
    Category.control.contains c || Category.format.contains c || Category.privateUse.contains c)

def isUpper (c : Char) : Bool := Category.uppercase.contains c || Category.otherUppercase.contains c

def isLower (c : Char) : Bool := Category.lowercase.contains c || Category.otherLowercase.contains c

/-- A letter with case, by category. -/
def isCasedLetter (c : Char) : Bool :=
  Category.uppercase.contains c || Category.lowercase.contains c || Category.titlecase.contains c

/-- The general categories under their names. -/
def categories : List (List String × CharSet) := [
  (["any"], fun _ => true),
  (["assigned"], fun c => !isUnassigned c),
  (["ascii"], fun c => c.toNat < 128),
  (["l", "letter"], isLetter),
  (["lc", "casedletter"], isCasedLetter),
  (["lu", "uppercaseletter"], Category.uppercase.contains),
  (["ll", "lowercaseletter"], Category.lowercase.contains),
  (["lt", "titlecaseletter"], Category.titlecase.contains),
  (["lm", "modifierletter"], Category.modifierLetter.contains),
  (["lo", "otherletter"], Category.otherLetter.contains),
  (["m", "mark", "combiningmark"], isMark),
  (["mn", "nonspacingmark"], Category.nonspacingMark.contains),
  (["mc", "spacingmark"], Category.spacingMark.contains),
  (["me", "enclosingmark"], Category.enclosingMark.contains),
  (["n", "number"], isNumeric),
  (["nd", "decimalnumber", "digit"], Category.decimalDigit.contains),
  (["nl", "letternumber"], Category.letterNumber.contains),
  (["no", "othernumber"], Category.otherNumber.contains),
  (["p", "punctuation", "punct"], isPunctuation),
  (["pc", "connectorpunctuation"], Category.connector.contains),
  (["pd", "dashpunctuation"], Category.dash.contains),
  (["ps", "openpunctuation"], Category.opening.contains),
  (["pe", "closepunctuation"], Category.closing.contains),
  (["pi", "initialpunctuation"], Category.initialQuote.contains),
  (["pf", "finalpunctuation"], Category.finalQuote.contains),
  (["po", "otherpunctuation"], Category.otherPunctuation.contains),
  (["s", "symbol"], isSymbol),
  (["sm", "mathsymbol"], Category.mathSymbol.contains),
  (["sc", "currencysymbol"], Category.currency.contains),
  (["sk", "modifiersymbol"], Category.modifierSymbol.contains),
  (["so", "othersymbol"], Category.otherSymbol.contains),
  (["z", "separator"], isSeparator),
  (["zs", "spaceseparator"], Category.spaceSeparator.contains),
  (["zl", "lineseparator"], (· == '\u2028')),
  (["zp", "paragraphseparator"], (· == '\u2029')),
  (["c", "other"], fun c =>
    Category.control.contains c || Category.format.contains c || Category.privateUse.contains c ||
      isUnassigned c),
  (["cc", "control", "cntrl"], Category.control.contains),
  (["cf", "format"], Category.format.contains),
  (["cs", "surrogate"], fun _ => false),
  (["co", "privateuse"], Category.privateUse.contains),
  (["cn", "unassigned"], isUnassigned)]

/-- Properties that a character has or does not have, under their names. -/
def binaryProperties : List (List String × CharSet) := [
  (["alphabetic", "alpha"], isAlphabetic),
  (["whitespace", "wspace", "space"], isBlank),
  (["uppercase", "upper"], isUpper),
  (["lowercase", "lower"], isLower),
  (["cased"], fun c => isUpper c || isLower c || Category.titlecase.contains c),
  (["asciihexdigit", "ahex"], fun c => c.isDigit || ('a' ≤ c && c ≤ 'f') || ('A' ≤ c && c ≤ 'F')),
  (["hexdigit", "hex"], (⟨[(0x30, 0x39), (0x41, 0x46), (0x61, 0x66), (0xFF10, 0xFF19),
    (0xFF21, 0xFF26), (0xFF41, 0xFF46)], []⟩ : CodeSet).contains),
  (["joincontrol", "joinc"], fun c => c == '\u200c' || c == '\u200d'),
  (["graphemeextend", "grext"], isExtending),
  (["dash"], Category.dashLike.contains),
  (["ideographic", "ideo"], Category.ideographic.contains),
  (["emoji"], Category.emoji.contains),
  (["quotationmark", "qmark"], Category.quotationMark.contains)]

/-- The set under a name in a list. -/
def byName? (table : List (List String × CharSet)) (name : String) : Option CharSet :=
  (table.find? fun e => e.1.contains name).map (·.2)

/-- The set that a name alone stands for: a property, a category or a script. The short names of
three categories win over properties of the same name. -/
def namedSet? (name : String) : Option CharSet :=
  let property? :=
    if name == "cf" || name == "sc" || name == "lc" then none else byName? binaryProperties name
  property? <|> byName? categories name <|> (Script.find? name).map CodeSet.contains

/-- The set that a query asks for. -/
def Query.set : Query → Except Fault CharSet
  | named name =>
    match namedSet? (normalName name) with
    | some s => .ok s
    | none => .error .propertyNotFound
  | valued name value =>
    let found? : Option (Option CharSet) :=
      match normalName name with
      | "gc" | "generalcategory" => some (byName? categories (normalName value))
      | "sc" | "script" | "scx" | "scriptextensions" =>
        some ((Script.find? (normalName value)).map CodeSet.contains)
      | _ => none
    match found? with
    | some (some s) => .ok s
    | some none => .error .propertyValueNotFound
    | none => .error .propertyNotFound

end DotScript.Pattern
