import DotScript.Json.Reader
import DotScript.Json.Writer
import DotScript.Natives.Outside
import DotScript.Pattern.Search

/-!
# Natives by themselves

What natives take from outside, made up with the means of this library: its own reader and writer for
JSON, its own patterns, a clock that stands still and no net.
-/

namespace DotScript.Natives

/-- The number of bytes before a character of a text. -/
def bytesBefore (text : String) (n : Nat) : Nat := (String.ofList (text.toList.take n)).utf8ByteSize

def Matcher.ofPattern (p : Pattern) : Matcher where
  first? text := (p.findFrom text.toList 0).map fun m =>
    (bytesBefore text m.start, bytesBefore text m.stop)
  pieces text := (p.pieces text.toList).map String.ofList

def Outside.own : Outside where
  now := .zero
  clock now _ := .ok now
  fetch _ _ := none
  readJson text := (Json.read text).mapError Json.ReadError.message
  writeJson j := .ok j.render
  pattern text :=
    match Pattern.compile text with
    | .ok p => .ok (.ofPattern p)
    | .error e => .error (e.message text)

end DotScript.Natives
