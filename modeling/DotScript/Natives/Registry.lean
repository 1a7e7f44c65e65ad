import DotScript.Value.Basic

/-!
# Registries

Natives under the names that programs call them by, in the order of registration.
-/

namespace DotScript.Natives

/-- Natives by name. A later registration under a name replaces the earlier one in its place. -/
abbrev Registry := Table String Native

namespace Registry

def register (r : Registry) (name : String) (b : Builtin) : Registry :=
  r.insert name ⟨name, b⟩

/-- Register every native under its own name. -/
def registerAll (r : Registry) : Registry := Builtin.all.foldl (fun r b => r.register b.name b) r

/-- The natives in the order of registration. -/
def natives (r : Registry) : List Native := r.entries.map (·.2)

end Registry

end DotScript.Natives
