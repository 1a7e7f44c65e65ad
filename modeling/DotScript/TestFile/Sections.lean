import DotScript.Text.Lines

/-!
# Test files

A test file is a program followed by sections with what it should do. A section begins with its name
between `===` on a line of its own. What stands before the first section is the program.
-/

namespace DotScript.TestFile

open DotScript.Text

/-- What a test file says: a program, and what its run should print and fail with. -/
structure Expectations where
  source : String := ""
  output? : Option String := none
  /-- Whether the lines printed may come in any order. -/
  unordered : Bool := false
  error? : Option String := none
  deriving DecidableEq, Repr

/-- The name of the section that a line begins, if it begins one. -/
def sectionName? (line : String) : Option String :=
  let cs := trimChars line.toList
  if "=== ".toList.isPrefixOf cs && " ===".toList.isSuffixOf cs && 8 < cs.length then
    some (String.ofList ((cs.drop 4).take (cs.length - 8)))
  else none

/-- Lines, each with a line feed. -/
def joinLines (lines : List String) : String := String.join (lines.map (· ++ "\n"))

/-- The sections of some lines, with their names and texts. The lines of the current section are kept
backwards. -/
def sectionsFrom (name : String) (body : List String) : List String → List (String × String)
  | [] => [(name, joinLines body.reverse)]
  | line :: rest =>
    match sectionName? line with
    | some next => (name, joinLines body.reverse) :: sectionsFrom next [] rest
    | none => sectionsFrom name (line :: body) rest

/-- The sections of a text. The first one has no header. -/
def sections (text : String) : List (String × String) := sectionsFrom "source" [] (lines text)

namespace Expectations

/-- Take a section into account. A later section replaces an earlier one of the same kind; sections
of other names are passed over. -/
def store (e : Expectations) (name body : String) : Expectations :=
  match name with
  | "source" => { e with source := body }
  | "output" => { e with output? := some (trim body) }
  | "output unordered" => { e with output? := some (trim body), unordered := true }
  | "error" => { e with error? := some (trim body) }
  | _ => e

/-- What the text of a test file says. -/
def ofText (text : String) : Expectations :=
  (sections text).foldl (fun e s => e.store s.1 s.2) {}

/-- Whether nothing is expected: such a file is there to be imported. -/
def isSupport (e : Expectations) : Bool := e.output?.isNone && e.error?.isNone

end Expectations

end DotScript.TestFile
