import DotScript.Session.Settings

/-!
# Arguments

The command line of the interpreter: a file, or nothing for the prompt, and options in any order. An
option's value stands behind it or behind an equals sign. Behind `--` nothing is an option.
-/

namespace DotScript.CommandLine

open DotScript.Session

structure Options where
  file? : Option String := none
  /-- Show the code of the file instead of running it. -/
  dump : Bool := false
  stackLimit? : Option Nat := none
  importRoot? : Option String := none
  verbosity : Nat := 0
  deriving DecidableEq, Repr

/-- What the arguments ask for. -/
inductive Request
  | run (options : Options)
  | help
  | version
  deriving DecidableEq, Repr

/-- An argument that is not understood, or one that is missing. -/
inductive Misuse
  | unknownOption (arg : String)
  | missingValue (option : String)
  | invalidValue (option value : String)
  | repeated (option : String)
  | unexpectedValue (option : String)
  | extraArgument (arg : String)
  /-- The listing needs a file. -/
  | fileRequired
  deriving DecidableEq, Repr

/-- What reading the arguments has come to: further arguments, or an answer at once. -/
abbrev Reading := Except (Except Misuse Request)

def misuse {α : Type} (m : Misuse) : Reading α := .error (.error m)

/-- The arguments ask for something that needs no further reading. -/
def answer {α : Type} (r : Request) : Reading α := .error (.ok r)

def withFile (o : Options) (arg : String) : Reading Options :=
  if o.file?.isSome then misuse (.extraArgument arg)
  else if arg.isEmpty then misuse (.invalidValue "file" arg)
  else .ok { o with file? := some arg }

def withStackLimit (o : Options) (value : String) : Reading Options :=
  if o.stackLimit?.isSome then misuse (.repeated "stack-limit")
  else
    match natural? value with
    | some n => .ok { o with stackLimit? := some n }
    | none => misuse (.invalidValue "stack-limit" value)

def withImportRoot (o : Options) (value : String) : Reading Options :=
  if o.importRoot?.isSome then misuse (.repeated "import-root")
  else if value.isEmpty then misuse (.invalidValue "import-root" value)
  else .ok { o with importRoot? := some value }

def withDump (o : Options) : Reading Options :=
  if o.dump then misuse (.repeated "dump") else .ok { o with dump := true }

/-- Take letters behind one dash. -/
def withLetters (o : Options) : List Char → Reading Options
  | [] => .ok o
  | 'v' :: cs => withLetters { o with verbosity := o.verbosity + 1 } cs
  | 'h' :: _ => answer .help
  | 'V' :: _ => answer .version
  | c :: _ => misuse (.unknownOption c.toString)

/-- The name of a long option and the value behind its equals sign, if there is one. -/
def splitOption (body : List Char) : String × Option String :=
  let name := body.takeWhile (· != '=')
  match body.drop name.length with
  | _ :: value => (.ofList name, some (.ofList value))
  | [] => (.ofList name, none)

/-- Whether an argument cannot be the value of an option: it begins with a dash and is more than
that. -/
def looksLikeOption (arg : String) : Bool := arg.startsWith "-" && arg != "-"

/-- The options that take a value. -/
def valueOption? (name : String) : Option (Options → String → Reading Options) :=
  match name with
  | "stack-limit" => some withStackLimit
  | "import-root" => some withImportRoot
  | _ => none

/-- Take a long option without a value. -/
def withFlag (o : Options) (name : String) : Reading Options :=
  match name with
  | "dump" => withDump o
  | "verbose" => .ok { o with verbosity := o.verbosity + 1 }
  | "help" => answer .help
  | "version" => answer .version
  | _ => misuse (.unknownOption name)

/-- Whether a long option exists that takes no value. -/
def isFlag (name : String) : Bool := ["dump", "verbose", "help", "version"].contains name

/-- Take arguments that are no options. -/
def withFiles (o : Options) : List String → Reading Options
  | [] => .ok o
  | arg :: args => do withFiles (← withFile o arg) args

/-- Take arguments from left to right. -/
def withArguments (o : Options) : List String → Reading Options
  | [] => .ok o
  | "--" :: args => withFiles o args
  | arg :: args =>
    if !looksLikeOption arg then do withArguments (← withFile o arg) args
    else
      match arg.toList with
      | '-' :: '-' :: body =>
        let (name, value?) := splitOption body
        match valueOption? name, value? with
        | some take, some value => do withArguments (← take o value) args
        | some take, none =>
          match args with
          | value :: args =>
            if looksLikeOption value then misuse (.missingValue name)
            else do withArguments (← take o value) args
          | [] => misuse (.missingValue name)
        | none, some _ => misuse (if isFlag name then .unexpectedValue name else .unknownOption name)
        | none, none => do withArguments (← withFlag o name) args
      | _ :: letters => do withArguments (← withLetters o letters) args
      | [] => misuse (.unknownOption arg)

def request (args : List String) : Except Misuse Request :=
  match withArguments {} args with
  | .error result => result
  | .ok o => if o.dump && o.file?.isNone then .error .fileRequired else .ok (.run o)

end DotScript.CommandLine
