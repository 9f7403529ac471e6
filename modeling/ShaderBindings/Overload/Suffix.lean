/-
# Type suffixes

The name of a node that is one specialization of several ends with a type suffix, such as
`_color3` in `add_color3`.  The base is what stands before it.  No suffix ends with another
one, so a name has at most one split.
-/
import ShaderBindings.Text.Search

namespace ShaderBindings

def typeSuffixes : List String :=
  ["_color3FA", "_color4FA", "_vector2FA", "_vector3FA", "_vector4FA", "_matrix33FA",
    "_matrix44FA", "_color3I", "_color4I", "_vector2I", "_vector3I", "_vector4I", "_color3",
    "_color4", "_vector2", "_vector3", "_vector4", "_integer2", "_integer3", "_integer4",
    "_matrix22", "_matrix33", "_matrix44", "_float", "_half", "_integer", "_boolean",
    "_filename"]

/-- The base of a name that ends with the given suffix.  It is not empty. -/
def baseBefore? (name suffix : String) : Option String :=
  match Text.before? suffix.toList name.toList with
  | none | some [] => none
  | some base => some (String.ofList base)

/-- The base and the type suffix of a name.  A name without a type suffix is its own base. -/
def splitSuffix (name : String) : String × Option String :=
  (typeSuffixes.findSome? fun suffix =>
    (baseBefore? name suffix).map fun base => (base, some suffix)).getD (name, none)

end ShaderBindings
