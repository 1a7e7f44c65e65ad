import DotScript.CommandLine.Run
import DotScript.CommandLine.TestReport
import Std.Time.DateTime.Timestamp

/-!
# The command

The layer that touches the disk and the terminal. A run works on a picture of the files it can see:
those below the working directory, the directory of the script, and the directories where imports
are looked for. Afterwards the files it changed are written. What is run, and what is said, is the
work of `CommandLine.run`, `CommandLine.runTests` and `CommandLine.Prompt`.
-/

namespace DotScript.CommandLine

open DotScript.Files DotScript.Session DotScript.Text

/-- More steps than a run takes. -/
def unlimited : Nat := 1000000000000000000

/-- How deep the picture of a directory goes. -/
def pictureDepth : Nat := 32

/-- Add what the disk holds at a path, down to a depth. What cannot be read is left out. -/
def gather (path : String) : Nat → FileTree → IO FileTree
  | 0, t => return t
  | depth + 1, t => do
    let place := (← IO.currentDir) / path
    try
      if ← place.isDir then
        (← place.readDir).foldlM (fun t e => gather (Path.join path e.fileName) depth t)
          (t.add path .directory)
      else
        return t.add path (.file (← IO.FS.readBinFile place))
    catch _ => return t

/-- The paths besides the working directory that a run with some options can see. -/
def Options.roots (o : Options) (s : Surroundings) : List String :=
  let settings := o.settings s
  (o.file?.map scriptDirectory).toList ++ o.file?.toList ++
    settings.importRoot :: settings.searchPaths

/-- The picture of the working directory and of some further paths. -/
def picture (roots : List String) : IO FileTree := do
  let t ← gather "." pictureDepth {}
  roots.foldlM (fun t root => if t.pathExists root then pure t else gather root pictureDepth t) t

/-- Write the files that a run has changed or made. -/
def commit (before after : FileTree) : IO Unit := do
  for (place, entry) in after.entries.entries do
    match entry, before.at? place with
    | .file new, some (.file old) =>
      if new != old then IO.FS.writeBinFile (FileTree.pathOf place) new
    | .file new, _ => IO.FS.writeBinFile (FileTree.pathOf place) new
    | .directory, _ => pure ()

/-- The surroundings of the command, without files. -/
def surroundings : IO Surroundings := do
  let time ← Std.Time.Timestamp.now
  let milliseconds := time.toMillisecondsSinceUnixEpoch.val.toNat
  return {
    environment := {
      path? := ← IO.getEnv "JIHLL_PATH"
      stackLimit? := ← IO.getEnv "JIHLL_STACK_LIMIT"
      home? := ← IO.getEnv "HOME" }
    now := (Number.ofNat milliseconds).div (Number.ofNat 1000) }

/-- Write what a prompt has to say. -/
def Prompt.flush (p : Prompt) : IO Prompt := do
  IO.print p.out
  IO.eprint p.err
  (← IO.getStdout).flush
  return { p with out := "", err := "" }

/-- Ask for lines and take them until the input ends. -/
partial def Prompt.converse (p : Prompt) : IO (Option Prompt) := do
  let p ← p.ask.flush
  let line ← (← IO.getStdin).getLine
  if line.isEmpty then return p.finish unlimited
  match p.enter unlimited ((lines line).headD "") with
  | some p => p.converse
  | none => return none

/-- Write a response, and the files that changed. -/
def Response.deliver (before : FileTree) : Option (Response × FileTree) → IO UInt32
  | some (r, after) => do
    commit before after
    IO.print r.out
    IO.eprint r.err
    return UInt32.ofNat r.exit.code
  | none => return UInt32.ofNat Exit.failure.code

/-- Run the interpreter; without a file, as a prompt. -/
def interpreterMain (args : List String) : IO UInt32 := do
  let s ← surroundings
  let options := match request args with
    | .ok (.run o) => some o
    | _ => none
  match options with
  | none => Response.deliver s.files (run unlimited args s)
  | some o =>
    let s := { s with files := ← picture (o.roots s) }
    if o.file?.isSome then Response.deliver s.files (run unlimited args s)
    else
      match ← (Prompt.start (o.session s)).converse with
      | some p =>
        let p ← p.flush
        Response.deliver s.files (some ({}, p.session.state.world.files))
      | none => return UInt32.ofNat Exit.failure.code

def testsMain (args : List String) : IO UInt32 := do
  let files ← picture args
  let s ← surroundings
  Response.deliver files (runTests unlimited files args { s.outside with now := s.now })

end DotScript.CommandLine

open DotScript.CommandLine in
/-- The interpreter, or the test runner when the command goes by that name. -/
def main (args : List String) : IO UInt32 := do
  if (← IO.appPath).fileName == some "jihll-tests" then testsMain args else interpreterMain args
