import DotScript.CommandLine.Response
import DotScript.Session.Basic

/-!
# The prompt

An interactive session, line by line. A line that leaves something open is continued on the next
ones, until it is complete or a blank line ends it. Each entry is a unit of its own; a failure is
reported and the session goes on. Calls spawned by entries are run at the end of the session.
-/

namespace DotScript.CommandLine

open DotScript.Text DotScript.Syntax

/-- Whether a text ends before what it began is complete. -/
def isIncomplete (text : String) : Bool :=
  match parse text with
  | .error e => e.isIncomplete
  | .ok _ => false

/-- An interactive session: what was entered so far of an entry, the number of entries, and what was
written. -/
structure Prompt where
  session : Session
  pending? : Option String := none
  entries : Nat := 0
  out : String := ""
  err : String := ""

namespace Prompt

/-- Written when a session begins. -/
def banner : String := "Jihll v0.1.0 (stack VM)\n"

/-- What asks for a line: a new entry, or more of the current one. -/
def marker (p : Prompt) : String := if p.pending?.isSome then ".. " else "> "

def start (session : Session) : Prompt := { session, out := banner }

def ask (p : Prompt) : Prompt := { p with out := p.out ++ p.marker }

/-- Move what the session has printed and reported to what was written. -/
def collect (p : Prompt) : Prompt :=
  let w := p.session.state.world
  let text (lines : List String) := String.join (lines.map (· ++ "\n"))
  { p with
    session := { p.session with state.world := { w with printed := #[], reports := #[] } }
    out := p.out ++ text (w.printed.toList.map (·.2))
    err := p.err ++ text w.reports.toList }

/-- What is written about the failure of an entry. -/
def failureText : Session.RunError → String
  | .refused e => e.rendered
  | .failed e => (Session.RunError.failed e).report

/-- Run a complete entry. A blank one does not count. -/
def submit (p : Prompt) (fuel : Nat) (text : String) : Option Prompt :=
  let p := { p with pending? := none }
  if isBlankText text then some p
  else do
    let number := p.entries + 1
    let source : Source := ⟨"<repl:" ++ toString number ++ ">", text⟩
    let (result, session) ← p.session.interpretSource fuel source
    let p := collect { p with session, entries := number }
    match result with
    | .ok _ => return p
    | .error e => return { p with err := p.err ++ failureText e }

/-- Wait for more of an incomplete entry, run a complete one. -/
def consider (p : Prompt) (fuel : Nat) (text : String) : Option Prompt :=
  if isIncomplete text then some { p with pending? := some text } else p.submit fuel text

/-- Take a line that was entered. -/
def enter (p : Prompt) (fuel : Nat) (line : String) : Option Prompt :=
  match p.pending? with
  | none => p.consider fuel line
  | some text =>
    if isBlankText line then p.submit fuel text else p.consider fuel (text ++ "\n" ++ line)

/-- The lines have ended: run what was entered so far, if it was waiting for more. -/
def endOfLines (p : Prompt) (fuel : Nat) : Option Prompt :=
  match p.pending? with
  | none => some p
  | some text => do return (← p.submit fuel text).ask

/-- The session ends: run the calls that were spawned. -/
def finish (p : Prompt) (fuel : Nat) : Option Prompt := do
  let p ← p.endOfLines fuel
  let session ← p.session.settled fuel
  return collect { p with session }

/-- Take lines, asking for each. -/
def enterAll (p : Prompt) (fuel : Nat) : List String → Option Prompt
  | [] => some p.ask
  | line :: rest => do enterAll (← p.ask.enter fuel line) fuel rest

end Prompt

/-- A whole interactive session over the lines of an input. -/
def runPrompt (fuel : Nat) (session : Session) (input : String) :
    Option (Response × Files.FileTree) := do
  let p ← (Prompt.start session).enterAll fuel (lines input)
  let p ← p.finish fuel
  return ({ out := p.out, err := p.err }, p.session.state.world.files)

end DotScript.CommandLine
