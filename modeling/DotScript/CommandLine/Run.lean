import DotScript.CommandLine.Arguments
import DotScript.CommandLine.Prompt
import DotScript.Bytecode.Listing

/-!
# The interpreter as a command
-/

namespace DotScript.CommandLine

open DotScript.Files DotScript.Session DotScript.Text

/-- The surroundings of a command: variables, files, the time, the input, and what natives take from
outside. -/
structure Surroundings where
  environment : Environment := {}
  files : FileTree := {}
  /-- The working directory, where the prompt looks for imports. -/
  directory : String := "."
  now : Number := .zero
  input : String := ""
  outside : Natives.Outside := .own

def versionLine : String := "jihll 0.1.0\n"

def usage : String := String.join [
  "Jihll stack VM\n\n",
  "Usage: jihll [OPTIONS] [FILE]\n\n",
  "Arguments:\n",
  "  [FILE]  Script to run. Starts the interactive prompt when omitted\n\n",
  "Options:\n",
  "      --dump               Print the disassembled chunk and exit\n",
  "      --stack-limit <N>    Operand stack limit, in slots\n",
  "      --import-root <DIR>  Directory relative imports resolve against (default: the script's ",
  "directory)\n",
  "  -v, --verbose...         Raise log verbosity (-v debug, -vv trace)\n",
  "  -h, --help               Print help\n",
  "  -V, --version            Print version\n"]

/-- What a user is shown when a file cannot be loaded. -/
def loadFailure : LoadError → String
  | .refused e => e.report
  | e => e.message ++ "\n"

def scriptDirectory (file : String) : String :=
  match Path.parent? file with
  | some dir => if dir.isEmpty then "." else dir
  | none => "."

def Options.settings (o : Options) (s : Surroundings) : Settings :=
  let dir := match o.importRoot?, o.file? with
    | some root, _ => root
    | none, some file => scriptDirectory file
    | none, none => s.directory
  let settings := Settings.ofEnvironment dir s.environment
  match o.stackLimit? with
  | some n => { settings with limits := { settings.limits with stack := n } }
  | none => settings

def dumpFile (files : FileTree) (file : String) : Response :=
  match readSource files file with
  | .error e => { exit := .failure, err := loadFailure e }
  | .ok source =>
    match loadSource source with
    | .error e => { exit := .failure, err := loadFailure e }
    | .ok chunk => { out := chunk.listing }

/-- Run a file and the calls it spawns. -/
def runFile (fuel : Nat) (session : Session) (file : String) : Option (Response × FileTree) :=
  let files := session.state.world.files
  match readSource files file with
  | .error e => some ({ exit := .failure, err := loadFailure e }, files)
  | .ok source => do
    let (result, s) ← session.runSource fuel source
    let w := s.state.world
    let text (lines : List String) := String.join (lines.map (· ++ "\n"))
    let out := text (w.printed.toList.map (·.2))
    let reports := text w.reports.toList
    match result with
    | .ok _ => return ({ out, err := reports }, w.files)
    | .error e => return ({ exit := .failure, out, err := reports ++ e.report }, w.files)

def Options.session (o : Options) (s : Surroundings) : Session :=
  .new (o.settings s) s.files { s.outside with now := s.now }

def runOptions (fuel : Nat) (o : Options) (s : Surroundings) : Option (Response × FileTree) :=
  match o.file? with
  | some file =>
    if o.dump then some (dumpFile s.files file, s.files) else runFile fuel (o.session s) file
  | none => runPrompt fuel (o.session s) s.input

/-- Run the interpreter as its arguments say. -/
def run (fuel : Nat) (args : List String) (s : Surroundings) : Option (Response × FileTree) :=
  match request args with
  | .error _ => some ({ exit := .misuse, err := usage }, s.files)
  | .ok .help => some ({ out := usage }, s.files)
  | .ok .version => some ({ out := versionLine }, s.files)
  | .ok (.run o) => runOptions fuel o s

end DotScript.CommandLine
