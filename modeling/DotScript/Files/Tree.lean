import DotScript.Table
import DotScript.Files.Path

/-!
# File trees

Files and directories in memory, seen from a working directory. A file is found by walking along the
parts of its path: every part but the last has to be a directory.

Places are lists of names from the working directory; places above it begin with `..`. The
directories above, and the root, exist and hold nothing but what is written there.
-/

namespace DotScript.Files

/-- Why a file operation fails. -/
inductive FileError
  | notFound
  | notDirectory
  | isDirectory
  | nameTooLong
  | nulInPath
  /-- The contents are no text. -/
  | notText
  deriving DecidableEq, Repr

def FileError.message : FileError → String
  | notFound => "No such file or directory (os error 2)"
  | notDirectory => "Not a directory (os error 20)"
  | isDirectory => "Is a directory (os error 21)"
  | nameTooLong => "File name too long (os error 36)"
  | nulInPath => "file name contained an unexpected NUL byte"
  | notText => "stream did not contain valid UTF-8"

/-- A file with its contents, or a directory. -/
inductive Entry
  | file (contents : ByteArray)
  | directory

/-- A place: names from the working directory, or from the root behind a leading `/`. -/
abbrev Place := List String

/-- The files and directories below a working directory. -/
structure FileTree where
  entries : Table Place Entry := {}

namespace FileTree

/-- Whether a place is the working directory, the root or a directory above. -/
def isBase (place : Place) : Bool := place == ["/"] || place.all (· == "..")

def at? (t : FileTree) (place : Place) : Option Entry :=
  if isBase place then some .directory else t.entries.get? place

/-- The place one level up. -/
def up (place : Place) : Place :=
  if place == ["/"] then place
  else if isBase place then ".." :: place
  else place.dropLast

/-- Names longer than this cannot be looked up. -/
def maxNameBytes : Nat := 255

/-- Where a walk ends: at a place, and whether the path insists on a directory there. -/
structure Target where
  place : Place
  wantsDirectory : Bool

/-- Walk along parts of a path. A void last part insists on a directory. -/
def walk (t : FileTree) (place : Place) : List String → Except FileError Target
  | [] => .ok ⟨place, false⟩
  | [part] =>
    if Path.isVoid part then .ok ⟨place, true⟩
    else if part == ".." then enter place (fun p => .ok ⟨up p, true⟩)
    else if maxNameBytes < part.utf8ByteSize then .error .nameTooLong
    else enter place (fun p => .ok ⟨p ++ [part], false⟩)
  | part :: parts =>
    if Path.isVoid part then enter place (fun p => walk t p parts)
    else if part == ".." then enter place (fun p => walk t (up p) parts)
    else if maxNameBytes < part.utf8ByteSize then .error .nameTooLong
    else enter place (fun p => walk t (p ++ [part]) parts)
where
  /-- Go on inside a directory. -/
  enter (place : Place) (next : Place → Except FileError Target) : Except FileError Target :=
    match t.at? place with
    | some .directory => next place
    | some (.file _) => .error .notDirectory
    | none => .error .notFound

/-- Where a path leads. -/
def resolve (t : FileTree) (path : String) : Except FileError Target :=
  if path.contains '\x00' then .error .nulInPath
  else if path.isEmpty then .error .notFound
  else if Path.isAbsolute path then t.walk ["/"] ((Path.split path).drop 1)
  else t.walk [] (Path.split path)

/-- What a path leads to. -/
def lookup (t : FileTree) (path : String) : Except FileError Entry := do
  let target ← t.resolve path
  match t.at? target.place, target.wantsDirectory with
  | none, _ => .error .notFound
  | some (.file _), true => .error .notDirectory
  | some entry, _ => .ok entry

def readBytes (t : FileTree) (path : String) : Except FileError ByteArray := do
  match ← t.lookup path with
  | .file contents => .ok contents
  | .directory => .error .isDirectory

/-- The contents of a file that holds text. -/
def readText (t : FileTree) (path : String) : Except FileError String := do
  match String.fromUTF8? (← t.readBytes path) with
  | some text => .ok text
  | none => .error .notText

def isFile (t : FileTree) (path : String) : Bool :=
  match t.lookup path with
  | .ok (.file _) => true
  | _ => false

def isDirectory (t : FileTree) (path : String) : Bool :=
  match t.lookup path with
  | .ok .directory => true
  | _ => false

def pathExists (t : FileTree) (path : String) : Bool := (t.lookup path).isOk

/-- Change the contents of the file at a path, which is created if its directory exists. -/
def update (t : FileTree) (path : String) (f : ByteArray → ByteArray) :
    Except FileError FileTree := do
  let target ← t.resolve path
  match t.at? target.place with
  | some .directory => .error .isDirectory
  | some (.file contents) =>
    if target.wantsDirectory then .error .notDirectory
    else .ok ⟨t.entries.insert target.place (.file (f contents))⟩
  | none =>
    if target.wantsDirectory then .error .isDirectory
    else .ok ⟨t.entries.insert target.place (.file (f .empty))⟩

/-- Replace the contents of the file at a path. -/
def writeText (t : FileTree) (path text : String) : Except FileError FileTree :=
  t.update path fun _ => text.toUTF8

/-- Add to the end of the file at a path. -/
def appendText (t : FileTree) (path text : String) : Except FileError FileTree :=
  t.update path (· ++ text.toUTF8)

/-- The place that a path names when all of its parts but the last are directories. -/
def placeOf (path : String) : Place :=
  let start := if Path.isAbsolute path then ["/"] else []
  (Path.split path).foldl (fun place part =>
    if Path.isVoid part then place else if part == ".." then up place else place ++ [part]) start

/-- The path that names a place. -/
def pathOf : Place → String
  | "/" :: parts => "/" ++ "/".intercalate parts
  | parts => "/".intercalate parts

/-- Put an entry at a place; the working directory and what is above stay as they are. -/
def put (t : FileTree) (place : Place) (entry : Entry) : FileTree :=
  if isBase place then t else ⟨t.entries.insert place entry⟩

/-- Put a file or directory at a path, with the directories it lies in. -/
def add (t : FileTree) (path : String) (entry : Entry) : FileTree :=
  let place := placeOf path
  let dirs := (List.range (place.length - 1)).map fun k => place.take (k + 1)
  (dirs.foldl (fun t d => t.put d .directory) t).put place entry

/-- The names in the directory at a place. -/
def namesIn (t : FileTree) (place : Place) : List String :=
  t.entries.keys.filterMap fun p =>
    if p.length == place.length + 1 && p.dropLast == place then p.getLast? else none

/-- The paths of all files below the directory at a path, down to a depth; each is the path of the
directory joined with names. -/
def filesBelow (t : FileTree) : Nat → String → List String
  | 0, _ => []
  | depth + 1, dir =>
    if t.isDirectory dir then
      match t.resolve dir with
      | .ok target =>
        (t.namesIn target.place).flatMap fun name =>
          let path := Path.join dir name
          if t.isDirectory path then filesBelow t depth path else [path]
      | .error _ => []
    else []

/-- A depth that no path of the tree exceeds. -/
def depthBound (t : FileTree) : Nat :=
  t.entries.keys.foldl (fun n p => max n p.length) 0 + 1

end FileTree

end DotScript.Files
