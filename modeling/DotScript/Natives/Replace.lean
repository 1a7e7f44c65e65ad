/-!
# Replacing parts of a text
-/

namespace DotScript.Natives

/-- Replace the occurrences of a pattern that is not empty, from left to right and without overlap.
`skip` characters of an occurrence are still to be passed over. -/
def replaceFrom (pattern replacement : List Char) : Nat → List Char → List Char
  | _, [] => []
  | skip + 1, _ :: cs => replaceFrom pattern replacement skip cs
  | 0, c :: cs =>
    if pattern.isPrefixOf (c :: cs) then
      replacement ++ replaceFrom pattern replacement (pattern.length - 1) cs
    else c :: replaceFrom pattern replacement 0 cs

/-- Replace every occurrence of a pattern. The empty pattern occurs before each character and at the
end. -/
def replaceAll (pattern replacement text : List Char) : List Char :=
  if pattern.isEmpty then replacement ++ text.flatMap fun c => c :: replacement
  else replaceFrom pattern replacement 0 text

end DotScript.Natives
