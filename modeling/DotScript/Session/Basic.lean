import DotScript.Session.Settings
import DotScript.Natives.Call
import DotScript.Natives.Registry
import DotScript.Machine.Step

/-!
# Sessions

A session is a thread that runs one compile unit after the other. Globals stay from unit to unit.
After each unit the calls it spawned are run to their end, whether it failed or not.
-/

namespace DotScript

open DotScript.Machine DotScript.Files DotScript.Compile DotScript.Text DotScript.Bytecode
open DotScript.Natives

/-- A thread with its world, and what it runs on. -/
structure Session where
  host : Host
  state : State

namespace Session

/-- A host with all natives. -/
def hostWith (limits : Limits) (loader : Option Loader) (o : Outside := .own) : Host :=
  { limits, loader, call := callForHost o }

/-- A session without natives and without imports. -/
def bare (limits : Limits) (files : FileTree) (o : Outside := .own) : Session :=
  ⟨hostWith limits none o, { thread := {}, world := { files, now := o.now } }⟩

def global? (s : Session) (name : String) : Option Value := s.state.thread.globals.get? name

def setGlobal (s : Session) (name : String) (v : Value) : Session :=
  let t := s.state.thread
  { s with state.thread := { t with globals := t.globals.insert name v } }

/-- Make a native callable under a name. -/
def define (s : Session) (name : String) (b : Builtin) : Session :=
  s.setGlobal name (.native ⟨name, b⟩)

/-- Make all natives of a registry callable. -/
def defineAll (s : Session) (r : Registry) : Session :=
  r.natives.foldl (fun s n => s.setGlobal n.name (.native n)) s

/-- A session with all natives and imports from files. -/
def new (settings : Settings) (files : FileTree) (o : Outside := .own) : Session :=
  let s : Session :=
    ⟨hostWith settings.limits (some settings.loader) o,
      { thread := {}, world := { files, now := o.now } }⟩
  s.defineAll (Registry.registerAll {})

/-- Run the spawned calls that are waiting; at most `fuel` of them, and `fuel` steps for each. They run
one after the other, each to its end, in the order in which they were spawned; this is one of the orders
that are possible, and sleeping takes no time in it. -/
def settled (s : Session) (fuel : Nat) : Option Session := do
  let world ← settle s.host fuel fuel s.state.world
  return { s with state.world := world }

/-- Run a chunk, without the calls it spawns; at most `fuel` steps. -/
def interpretChunk (s : Session) (fuel : Nat) (chunk : Chunk) :
    Option (Except RuntimeError Value × Session) := do
  let (result, state) ← interpret s.host fuel chunk s.state
  return (result, { s with state })

/-- Run a chunk and the calls it spawns. -/
def runChunk (s : Session) (fuel : Nat) (chunk : Chunk) :
    Option (Except RuntimeError Value × Session) := do
  let (result, s) ← s.interpretChunk fuel chunk
  return (result, ← s.settled fuel)

/-- Why a unit does not run to its end. -/
inductive RunError
  | refused (e : UnitError)
  | failed (e : RuntimeError)

namespace RunError

/-- The message without the place. -/
def message : RunError → String
  | refused e => e.message
  | failed e => e.message

/-- What a user is shown. -/
def report : RunError → String
  | refused e => e.report
  | failed e => "runtime error: " ++ e.message ++ "\n"

end RunError

/-- Compile and run a unit, without the calls it spawns. -/
def interpretSource (s : Session) (fuel : Nat) (source : Source) :
    Option (Except RunError Value × Session) :=
  match compileSource source with
  | .error e => some (.error (.refused e), s)
  | .ok chunk => (s.interpretChunk fuel chunk).map fun (result, s) => (result.mapError .failed, s)

/-- Compile and run a unit and the calls it spawns. -/
def runSource (s : Session) (fuel : Nat) (source : Source) :
    Option (Except RunError Value × Session) := do
  let (result, s) ← s.interpretSource fuel source
  return (result, ← s.settled fuel)

end Session

end DotScript
