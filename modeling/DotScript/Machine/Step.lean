import DotScript.Machine.Exec

/-!
# Steps and runs

A step carries out one instruction and settles what follows: a failure goes to the armed handler, or
out of the import in progress to the importer, or ends the run; a finished module gives way to its
importer. A run is steps until the program ends, with a bound on their number.
-/

namespace DotScript.Machine

open DotScript.Bytecode

/-- What a step leads to. -/
inductive Outcome
  | running (s : State)
  | finished (v : Value) (s : State)
  | failed (e : RuntimeError) (s : State)

namespace Thread

/-- Go on in a handler, with the message of the failure on the stack. -/
def enterHandler (t : Thread) (h : Handler) (e : RuntimeError) : Thread :=
  { t with
    frames := t.frames.take h.depth
    stack := (t.stack.take h.height).push (.str e.message)
    image := h.image
    base := h.base
    ip := h.address
    handler := none }

/-- Go back to where an import began. -/
def closeWindow (t : Thread) (w : Window) (outer : List Window) : Thread :=
  { t with
    frames := t.frames.take w.depth
    stack := t.stack.take w.height
    image := w.image
    ip := w.ip
    base := w.base
    handler := w.handler
    windows := outer
    imports := t.imports - 1 }

/-- Where a failure goes: to the armed handler; without one, to the importer as a failure of its
import; without an importer, out of the run. `windows` are the imports in progress. -/
def raise (windows : List Window) (e : RuntimeError) (t : Thread) :
    Except (RuntimeError × Thread) Thread :=
  match t.handler with
  | some h => .ok (t.enterHandler h e)
  | none =>
    match windows with
    | [] => .error (e, t)
    | w :: outer => raise outer (.importFailed w.path e.message) (t.closeWindow w outer)

end Thread

def step (host : Host) (s : State) : Outcome :=
  match instruction host s with
  | .ok none s => .running s
  | .ok (some v) s =>
    match s.thread.windows with
    | [] => .finished v s
    | w :: outer => .running { s with thread := s.thread.closeWindow w outer }
  | .error e s =>
    match s.thread.raise s.thread.windows e with
    | .ok t => .running { s with thread := t }
    | .error (e, t) => .failed e { s with thread := t }

/-- Run to the end, for at most `fuel` steps; none if they do not suffice. -/
def run (host : Host) : Nat → State → Option (Except RuntimeError Value × State)
  | 0, _ => none
  | fuel + 1, s =>
    match step host s with
    | .running s => run host fuel s
    | .finished v s => some (.ok v, s)
    | .failed e s => some (.error e, s)

namespace Thread

/-- Get ready to run a chunk from its beginning. Globals stay; stack, frames and handler start
empty. -/
def start (t : Thread) (chunk : Chunk) : Thread :=
  { t with
    stack := #[]
    frames := #[]
    handler := none
    image := ⟨⟨t.id, t.loaded⟩, chunk⟩
    loaded := t.loaded + 1
    ip := 0
    base := 0 }

/-- Drop what a failed run has left behind. -/
def abandon (t : Thread) : Thread := { t with stack := #[], frames := #[], handler := none }

end Thread

/-- Run a chunk on a thread. -/
def interpret (host : Host) (fuel : Nat) (chunk : Chunk) (s : State) :
    Option (Except RuntimeError Value × State) := do
  let (result, s) ← run host fuel { s with thread := s.thread.start chunk }
  match result with
  | .ok v => return (.ok v, s)
  | .error e => return (.error e, { s with thread := s.thread.abandon })

/-! ## Spawned calls -/

/-- Carry out the work of a spawned call. -/
def runJob (host : Host) (fuel : Nat) (job : Job) (w : World) :
    Option (Except RuntimeError Value × World) :=
  match job with
  | .native n args =>
    let (result, w) := host.call n.builtin args w
    some (result.mapError (.native n.name), w)
  | .script t => (run host fuel ⟨t, w⟩).map fun (result, s) => (result, s.world)

/-- Run a spawned call and report its failure. -/
def runTask (host : Host) (fuel : Nat) (t : Task) (w : World) : Option World := do
  let (result, w) ← runJob host fuel t.job w
  match result with
  | .ok _ => return w
  | .error e =>
    return w.report ("[jihll-spawn-" ++ toString t.number ++ "] runtime error: " ++ e.message)

/-- Run all spawned calls, with those they spawn, each to its end, in the order in which they were
spawned; at most `count` of them. Threads may take turns in any other way, too. -/
def settle (host : Host) (fuel : Nat) : Nat → World → Option World
  | 0, w => if w.pending.isEmpty then some w else none
  | count + 1, w =>
    match w.pending with
    | [] => some w
    | t :: rest => do
      let w ← runTask host fuel t { w with pending := rest }
      settle host fuel count w

end DotScript.Machine
