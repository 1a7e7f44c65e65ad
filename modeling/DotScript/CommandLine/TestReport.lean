import DotScript.CommandLine.Response
import DotScript.TestFile.Verdict

/-!
# Test reports

The command that runs test files: a line for each, the differences of those that failed, and the
numbers.
-/

namespace DotScript.CommandLine

open DotScript.TestFile DotScript.Files DotScript.Text

/-- A text under a label, indented; nothing for an empty text. -/
def labelled (label text : String) : List String :=
  if text.isEmpty then []
  else ("  " ++ label ++ ":") :: (lines text).map ("    " ++ ·)

/-- The lines about one test. -/
def reportLines (r : Report) : List String :=
  let v := r.verdict
  let mark := if v.isPassed then "✓" else "✗"
  (mark ++ " " ++ r.file ++ ": " ++ v.message) ::
    if v.isPassed then [] else labelled "expected" v.expected ++ labelled "actual" v.actual

def summaryLines (reports : List Report) : List String :=
  let rule := String.ofList (List.replicate 60 '-')
  let passed := (reports.filter (·.verdict.isPassed)).length
  let numbers := toString passed ++ " passed, " ++ toString (reports.length - passed) ++
    " failed, " ++ toString reports.length ++ " total"
  rule :: reports.flatMap reportLines ++ [rule, numbers]

/-- The tests that are run when none are named. -/
def defaultTests : String := "test_data"

/-- Run the test files that the arguments name: one file, or all below a directory. -/
def runTests (fuel : Nat) (files : FileTree) (args : List String) (o : Natives.Outside := .own) :
    Option (Response × FileTree) :=
  let path := args.headD defaultTests
  if files.pathExists path then do
    let (reports, files) ←
      if files.isFile path then runFiles fuel files [path] o else runBelow fuel files path o
    let exit : Exit := if reports.all (·.verdict.isPassed) then .success else .failure
    return ({ exit, out := joinLines (summaryLines reports) }, files)
  else
    some ({ exit := .failure, err := "error: no such file or directory: " ++ path ++ "\n" }, files)

end DotScript.CommandLine
