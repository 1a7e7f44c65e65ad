import DotScript.TestFile.Sections
import DotScript.Session.Basic

/-!
# Verdicts

Running a test file and comparing what it did with what it should do.

* `Expectations.judge`: the verdict on printed lines and a failure;
* `runFile`: the verdict on a file;
* `runBelow`: the verdicts on all test files below a directory.
-/

namespace DotScript.TestFile

open DotScript.Text DotScript.Files DotScript.Session DotScript.Natives

/-- What became of a test. -/
inductive Verdict
  | passed
  | unreadable (e : FileError)
  | outputDiffers (expected actual : List String)
  | errorDiffers (expected : String) (actual : Option String)
  | unexpectedError (actual : String)
  deriving DecidableEq, Repr

namespace Verdict

def isPassed : Verdict → Bool
  | passed => true
  | _ => false

def message : Verdict → String
  | passed => "OK"
  | unreadable e => "Failed to read file: " ++ e.message
  | outputDiffers _ _ => "Output doesn't match"
  | errorDiffers _ _ => "Error doesn't match"
  | unexpectedError _ => "Unexpected error"

/-- What was expected, where that is of interest. -/
def expected : Verdict → String
  | outputDiffers expected _ => "\n".intercalate expected
  | errorDiffers expected _ => expected
  | _ => ""

/-- What happened, where that is of interest. -/
def actual : Verdict → String
  | outputDiffers _ actual => "\n".intercalate actual
  | errorDiffers _ actual => actual.getD ""
  | unexpectedError actual => actual
  | _ => ""

end Verdict

/-- Lines in the order of their characters. -/
def sortLines (lines : List String) : List String :=
  lines.mergeSort fun a b => !decide (b.toList < a.toList)

namespace Expectations

/-- The lines expected and the lines printed, as they are compared. -/
def compared (e : Expectations) (output : String) (printed : List String) :
    List String × List String :=
  if e.unordered then (sortLines (lines output), sortLines printed) else (lines output, printed)

/-- The verdict on the failure of a run, or on its absence. -/
def judgeError (e : Expectations) (failure : Option String) : Verdict :=
  match e.error?, failure with
  | some expected, some actual =>
    if trim expected = trim actual then .passed else .errorDiffers expected (some actual)
  | some expected, none => .errorDiffers expected none
  | none, some actual => .unexpectedError actual
  | none, none => .passed

/-- The verdict on the lines a run printed and on its failure. Lines are compared first. -/
def judge (e : Expectations) (printed : List String) (failure : Option String) : Verdict :=
  match e.output? with
  | none => e.judgeError failure
  | some output =>
    let (expected, actual) := e.compared output printed
    if expected = actual then e.judgeError failure else .outputDiffers expected actual

end Expectations

/-- The verdict on a test file. -/
structure Report where
  file : String
  verdict : Verdict
  deriving DecidableEq, Repr

/-- Run a program with imports from a directory. Gives the lines it printed and reported, the message
of its failure, and the files it left. Spawned calls run behind the program, in the order of
`Session.settled`: of a program whose output depends on their order, this is one run. -/
def execute (fuel : Nat) (files : FileTree) (root : String) (source : Source)
    (o : Outside := .own) : Option ((List String × Option String) × FileTree) := do
  let (result, s) ← (Session.new { importRoot := root } files o).runSource fuel source
  let w := s.state.world
  let failure := match result with
    | .ok _ => none
    | .error e => some e.message
  return ((w.printed.toList.map (·.2) ++ w.reports.toList, failure), w.files)

/-- Run a test file; no report for a file that is there to be imported. -/
def runFile (fuel : Nat) (files : FileTree) (path : String) (o : Outside := .own) :
    Option (Option Report × FileTree) :=
  match files.readText path with
  | .error e => some (some ⟨path, .unreadable e⟩, files)
  | .ok text =>
    let e := Expectations.ofText text
    if e.isSupport then some (none, files)
    else do
      let root := (Path.parent? path).getD ""
      let ((printed, failure), files) ← execute fuel files root ⟨path, e.source⟩ o
      return (some ⟨path, e.judge printed failure⟩, files)

/-- Run test files one after the other. -/
def runFiles (fuel : Nat) (files : FileTree) (paths : List String) (o : Outside := .own) :
    Option (List Report × FileTree) :=
  match paths with
  | [] => some ([], files)
  | path :: paths => do
    let (report, files) ← runFile fuel files path o
    let (reports, files) ← runFiles fuel files paths o
    return (report.toList ++ reports, files)

/-- Whether a list of names comes before another, name by name. -/
def namesBefore : List String → List String → Bool
  | [], _ => true
  | _ :: _, [] => false
  | a :: as, b :: bs => if a = b then namesBefore as bs else decide (a < b)

/-- The test files below a directory, ordered by the names along their paths. -/
def testFilesBelow (files : FileTree) (dir : String) : List String :=
  let tests := (files.filesBelow files.depthBound dir).filter fun p =>
    Path.extension? p == some "jhl"
  tests.mergeSort fun a b => namesBefore (Path.parts a) (Path.parts b)

/-- Run all test files below a directory. -/
def runBelow (fuel : Nat) (files : FileTree) (dir : String) (o : Outside := .own) :
    Option (List Report × FileTree) :=
  runFiles fuel files (testFilesBelow files dir) o

end DotScript.TestFile
