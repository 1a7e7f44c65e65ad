/-!
# Paths

Paths as texts, with `/` between their parts. A path keeps the spelling it was given; the functions
here look at its parts.
-/

namespace DotScript.Files.Path

/-- The texts between the slashes of a text, the part already read kept backwards. -/
def splitFrom (part : List Char) : List Char → List String
  | [] => [String.ofList part.reverse]
  | c :: cs =>
    if c == '/' then String.ofList part.reverse :: splitFrom [] cs else splitFrom (c :: part) cs

/-- The texts between the slashes of a path. -/
def split (path : String) : List String := splitFrom [] path.toList

/-- Whether a path begins at the root. -/
def isAbsolute (path : String) : Bool := path.startsWith "/"

/-- A path taken relative to a directory; an absolute path stays itself. -/
def join (dir path : String) : String :=
  if isAbsolute path || dir.isEmpty then path
  else if dir.endsWith "/" then dir ++ path
  else dir ++ "/" ++ path

/-- Whether a part between slashes names nothing: it is empty or a dot. -/
def isVoid (part : String) : Bool := part == "" || part == "."

/-- Parts without the void ones at their end; a dot that is the whole path stays. -/
def trimVoid (parts : List String) : List String :=
  match (parts.reverse.dropWhile isVoid).reverse with
  | [] => if parts.head? == some "." then ["."] else []
  | kept => kept

/-- The path without its last part; none for the root and for the empty path. -/
def parent? (path : String) : Option String :=
  if isAbsolute path then
    match trimVoid ((split path).drop 1) with
    | [] => none
    | parts => some ("/" ++ "/".intercalate (trimVoid parts.dropLast))
  else
    match trimVoid (split path) with
    | [] => none
    | parts => some ("/".intercalate (trimVoid parts.dropLast))

/-- The last part of a path, if it names something. -/
def fileName? (path : String) : Option String :=
  match (trimVoid (split path)).getLast? with
  | some name => if isVoid name || name == ".." then none else some name
  | none => none

/-- What stands behind the last dot of the last part, unless the dot begins it. -/
def extension? (path : String) : Option String :=
  match fileName? path with
  | none => none
  | some name =>
    let cs := name.toList
    let ext := cs.reverse.takeWhile (· != '.') |>.reverse
    if ext.length + 1 < cs.length then some (String.ofList ext) else none

/-- The parts that order paths: void parts do not count, except a dot at the front. -/
def parts (path : String) : List String :=
  let all := split path
  let named := all.filter (fun p => !isVoid p)
  if isAbsolute path then "/" :: named else if all.head? == some "." then "." :: named else named

end DotScript.Files.Path
