/-
# The registry of enumerations

An enumeration is identified by the set of its members.  The registry gives each set that it
meets for the first time the next sequence number and a name: an established one when the host
knows the set, and otherwise one that is made of the number and the members.

The registry keeps the enumerations in a list and, beside it, the sequence numbers by key.  A
declaration asks the second for the key of its members, and a new enumeration goes into both.
-/
import ShaderBindings.Category.Basic
import ShaderBindings.Diagnostic
import ShaderBindings.Dictionary
import ShaderBindings.Text.Identifier

namespace ShaderBindings

/-- An enumeration of a run. -/
structure EnumIdentity where
  /-- The sequence number. -/
  id : Nat
  /-- The sorted members with bars between them. -/
  key : String
  /-- The members in the order of the first declaration. -/
  members : List String
  name : String
  /-- The name is an established one. -/
  canonical : Bool
deriving DecidableEq, Repr

/-- The enumerations that a run has met. -/
structure EnumRegistry where
  /-- The enumerations in the order of their sequence numbers. -/
  identities : List EnumIdentity
  /-- The sequence numbers by key. -/
  byKey : Dictionary Nat
deriving DecidableEq, Repr

namespace EnumRegistry

def empty : EnumRegistry := ⟨[], []⟩

/-- The key of a set of members, whatever their order and repetition. -/
def structuralKey (members : List String) : String :=
  "|".intercalate (members.eraseDups.mergeSort (· ≤ ·))

/-- The names of the sets of members that the host knows, by key. -/
def canonicalNames : List (String × String) :=
  [("model|object|world", "SGSpace"),
    ("object|tangent", "SGNormalSpace"),
    ("clamp|constant|mirror|periodic", "SGAddressMode"),
    ("closest|cubic|linear", "SGFilterType"),
    ("clamp_to_border|clamp_to_edge|clamp_to_zero|mirrored_repeat|repeat",
      "SGSamplerAddressMode"),
    ("linear|nearest", "SGSamplerMinMagFilter"),
    ("linear|nearest|not_mipmapped", "SGSamplerMipFilter"),
    ("opaque_black|opaque_white|transparent_black", "SGSamplerBorderColor"),
    ("auto|manual", "SGProjectionMode")]

/-- The name of an enumeration without an established one: every character of the key that is
no letter or digit becomes an underscore. -/
def synthesizedName (id : Nat) (key : String) : String :=
  "Enum" ++ toString id ++ "_"
    ++ String.ofList (key.toList.map fun c => if Text.isWordChar c then c else '_')

def get? (r : EnumRegistry) (id : Nat) : Option EnumIdentity :=
  match id with
  | 0 => none
  | n + 1 => r.identities[n]?

/-- The identity of a set of members that is new to the registry. -/
def mint (r : EnumRegistry) (members : List String) : EnumIdentity :=
  let id := r.identities.length + 1
  let key := structuralKey members
  match canonicalNames.lookup key with
  | some name => ⟨id, key, members.eraseDups, name, true⟩
  | none => ⟨id, key, members.eraseDups, synthesizedName id key, false⟩

/-- The registry with one more enumeration, in the list and under its key. -/
def add (r : EnumRegistry) (e : EnumIdentity) : EnumRegistry where
  identities := r.identities ++ [e]
  byKey := r.byKey.insert e.key e.id

/-- The category of a property of `node` with the given members, with the registry after the
declaration.  The first declaration of a set without an established name is reported. -/
def declare (r : EnumRegistry) (node : String) (members : List String) :
    Reported (Category × EnumRegistry) :=
  match r.byKey.get? (structuralKey members) with
  | some id => ⟨(.enumerated id, r), []⟩
  | none =>
    let e := r.mint members
    { value := (.enumerated e.id, r.add e)
      diagnostics := if e.canonical then [] else [.unnamedEnum node members e.name] }

end EnumRegistry

end ShaderBindings
