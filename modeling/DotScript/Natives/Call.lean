import DotScript.Natives.Error
import DotScript.Natives.Own
import DotScript.Natives.Replace
import DotScript.Machine.State
import DotScript.Text.Lines

/-!
# Calls of natives

What each native does with its arguments and the world. A native takes a fixed number of arguments;
a wrong number, or an argument of a wrong type, is a failure that programs can catch. Failures to
write a file are no failures of the call: they are reported, and the call gives `false`. What is not part
of the program is an `Outside`; without one, natives are by themselves.
-/

namespace DotScript.Natives

open DotScript.Machine DotScript.Files DotScript.Text

/-- The result of a call that leaves the world as it is. -/
def pureResult (w : World) (result : Except NativeError Value) : Except NativeError Value × World :=
  (result, w)

/-- The length of a text in characters, of a list or of a map; zero for everything else. -/
def length : Value → Nat
  | .str s => s.length
  | .list items => items.length
  | .map entries => entries.size
  | _ => 0

/-- Write to a file by one of the operations on trees, and report a failure. -/
def write (name : String) (op : FileTree → String → String → Except FileError FileTree)
    (path text : String) (w : World) : Except NativeError Value × World :=
  match op w.files path text with
  | .ok files => (.ok (.bool true), { w with files })
  | .error e =>
    (.ok (.bool false), w.report (name ++ ": unable to write " ++ path ++ ": " ++ e.message))

def readFile (files : FileTree) (path : String) : Except NativeError Value :=
  match files.readText path with
  | .ok text => .ok (.str text)
  | .error e => .error (.unreadable path e)

/-- A result from outside, as one of a native. -/
def fromOutside {α : Type} (answer : Except String α) : Except NativeError α :=
  answer.mapError .refused

/-- The answer to the next question to the clock or the net. -/
def ask {α : Type} (answer : Nat → α) (w : World) : α × World :=
  (answer w.questions, { w with questions := w.questions + 1 })

def readClock (o : Outside) (now : Number) (n : Nat) : Except NativeError Value := do
  return .number (← fromOutside (o.clock now n))

/-- The body of the answer to a request, or null if it fails. -/
def fetched (o : Outside) (address : String) (n : Nat) : Except NativeError Value :=
  match o.fetch n address with
  | some body => .ok (.str body)
  | none => .ok .null

/-- The value of a JSON text. -/
def parseJson (o : Outside) (text : String) : Except NativeError Value := do
  return (← fromOutside (o.readJson text)).toValue

/-- A JSON text of a value. -/
def stringifyJson (o : Outside) (v : Value) : Except NativeError Value := do
  return .str (← fromOutside (o.writeJson (.ofValue v)))

/-- Drop the empty pieces at the end. -/
def dropTrailing (pieces : List String) : List String :=
  (pieces.reverse.dropWhile String.isEmpty).reverse

/-- The pieces of a text between the matches of a pattern. A text without a match is one piece.
Empty pieces at the end are dropped, and so is the empty piece before an empty match at the
front. -/
def splitBy (m : Matcher) (text : String) : List String :=
  match m.first? text with
  | none => [text]
  | some (start, stop) =>
    let pieces := m.pieces text
    let leads := start == 0 && start == stop && pieces.head? == some ""
    dropTrailing (if leads then pieces.drop 1 else pieces)

def splitText (o : Outside) (text pattern : String) : Except NativeError Value := do
  return .list ((splitBy (← fromOutside (o.pattern pattern)) text).map .str)

def call (b : Builtin) (args : List Value) (w : World) (o : Outside := .own) :
    Except NativeError Value × World :=
  match b, args with
  | .clock, [] => ask (readClock o w.now) w
  | .sleep, [ms] => pureResult w do
    discard (numberArg 1 ms)
    return .null
  | .len, [v] => (.ok (.number (.ofNat (length v))), w)
  | .split, [text, pattern] => pureResult w do
    let text ← stringArg 1 text
    splitText o text (← stringArg 2 pattern)
  | .replace, [text, pattern, replacement] => pureResult w do
    let text ← stringArg 1 text
    let pattern ← stringArg 2 pattern
    let replacement ← stringArg 3 replacement
    return .str (.ofList (replaceAll pattern.toList replacement.toList text.toList))
  | .trim, [text] => pureResult w do
    return .str (trim (← stringArg 1 text))
  | .jsonParse, [text] => pureResult w do parseJson o (← stringArg 1 text)
  | .jsonStringify, [v] => pureResult w (stringifyJson o v)
  | .readFile, [path] => pureResult w (readFile w.files path.text)
  | .writeFile, [path, text] => write b.name FileTree.writeText path.text text.text w
  | .appendFile, [path, text] => write b.name FileTree.appendText path.text text.text w
  | .httpGet, [address] => ask (fetched o address.text) w
  | b, args => (.error (.count b.arity args.length), w)

/-- Call a native on behalf of a machine, with the message of a failure. -/
def callForHost (o : Outside) (b : Builtin) (args : List Value) (w : World) :
    Except String Value × World :=
  let (result, w) := call b args w o
  (result.mapError NativeError.message, w)

end DotScript.Natives
