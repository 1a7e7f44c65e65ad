import DotScript.Compile.Unit
import DotScript.Machine.State

/-!
# Settings

Where imports are looked for and how much a run may use. The environment can add directories to the
search and raise or lower the limit of the stack.
-/

namespace DotScript.Session

open DotScript.Machine DotScript.Files DotScript.Compile DotScript.Text DotScript.Bytecode

structure Settings where
  /-- Imports are looked for here first. -/
  importRoot : String
  /-- Directories to look in next, in order. -/
  searchPaths : List String := []
  limits : Limits := {}

/-- The variables of the environment that settings depend on. -/
structure Environment where
  /-- Directories for imports, with colons between them. -/
  path? : Option String := none
  /-- The limit of the stack. -/
  stackLimit? : Option String := none
  /-- The home directory of the user. -/
  home? : Option String := none

/-- The texts between the colons of a text, the part already read kept backwards. -/
def splitColons (part : List Char) : List Char → List String
  | [] => [String.ofList part.reverse]
  | c :: cs =>
    if c == ':' then String.ofList part.reverse :: splitColons [] cs else splitColons (c :: part) cs

/-- The greatest limit that can be set. -/
def maxLimit : Nat := 0xFFFFFFFFFFFFFFFF

/-- A natural written in digits, with or without a plus sign, that is no greater than `maxLimit`. -/
def natural? (text : String) : Option Nat :=
  let digits := match text.toList with
    | '+' :: cs => cs
    | cs => cs
  if digits.isEmpty || !digits.all Char.isDigit then none
  else
    let n := Number.digitsValue digits
    if n ≤ maxLimit then some n else none

namespace Settings

/-- The settings for a directory in an environment: the directories of the path, then the library
directory of the user. A stack limit that is no positive natural is ignored. -/
def ofEnvironment (dir : String) (env : Environment) : Settings :=
  let listed := match env.path? with
    | some path => (splitColons [] path.toList).filter (fun p => !p.isEmpty)
    | none => []
  let library := match env.home? with
    | some home => [Path.join (Path.join home ".jihll") "lib"]
    | none => []
  let limits : Limits := match env.stackLimit?.bind natural? with
    | some n => if 0 < n then { stack := n } else {}
    | none => {}
  { importRoot := dir, searchPaths := listed ++ library, limits }

/-- The files that an import path can mean, in the order in which they are tried. -/
def candidates (s : Settings) (path : String) : List String :=
  if Path.isAbsolute path then [path]
  else (s.importRoot :: s.searchPaths).map fun dir => Path.join dir path

/-- The file that an import path means: the first candidate that exists. -/
def resolve (s : Settings) (files : FileTree) (path : String) : Option String :=
  (s.candidates path).find? files.isFile

end Settings

/-! ## Loading -/

/-- Why a file cannot be loaded. -/
inductive LoadError
  | notFound (path : String)
  | unreadable (path : String) (e : FileError)
  | refused (e : UnitError)

/-- The message of a failure, on one line. -/
def LoadError.message : LoadError → String
  | notFound path => "module not found: " ++ path
  | unreadable path e => "cannot read '" ++ path ++ "': " ++ e.message
  | refused e => e.summary

/-- The source text in a file, named by its path. -/
def readSource (files : FileTree) (path : String) : Except LoadError Source :=
  match files.readText path with
  | .ok text => .ok ⟨path, text⟩
  | .error e => .error (.unreadable path e)

/-- The chunk of a source text. -/
def loadSource (source : Source) : Except LoadError Chunk :=
  (compileSource source).mapError .refused

/-- The chunk that an import path means. -/
def Settings.load (s : Settings) (files : FileTree) (path : String) : Except LoadError Chunk := do
  match s.resolve files path with
  | none => .error (.notFound path)
  | some file => loadSource (← readSource files file)

/-- The loader of a session. -/
def Settings.loader (s : Settings) : Loader := fun files path =>
  (s.load files path).mapError LoadError.message

end DotScript.Session
