/-
# Annotations

The annotations of a prim or a property are the part of its metadata that has a meaning here:
the members of an enumeration, the connectability, a display name and the flags of the vendor.
Metadata that has the wrong shape is refused, at the first fault in that order.

An enumeration is declared under `allowedTokens`, which prevails, or under `enum`; the latter
may also be one text with commas between the members.
-/
import ShaderBindings.Schema.Stage
import ShaderBindings.Text.Blank

namespace ShaderBindings

/-- Whether an input may be wired to the output of another node. -/
inductive Connectability where
  | free
  /-- The input takes constants only. -/
  | interfaceOnly
deriving DecidableEq, Repr

structure Annotations where
  /-- The members of an enumeration, at least one when there are any. -/
  members? : Option (List String)
  connectability : Connectability
  displayName? : Option String
  /-- The vendor does not support the property. -/
  unsupported : Bool
  /-- The vendor advises against the node. -/
  deprecated : Bool
  availability? : Option String
deriving DecidableEq, Repr

namespace Annotations

inductive Defect where
  /-- A member of an enumeration is no string. -/
  | memberNotString (key : String) (v : Json)
  /-- The members of an enumeration are no list. -/
  | membersNotList (key : String) (v : Json)
  /-- The connectability is none of the known ones. -/
  | unknownConnectability (s : String)
  | notString (key : String) (v : Json)
  | notDictionary (v : Json)
  | notBool (key : String) (v : Json)

def Defect.message : Defect → String
  | memberNotString key v => key ++ " members must be strings, got " ++ v.compact
  | membersNotList key v => key ++ " must be a list of strings, got " ++ v.compact
  | unknownConnectability s => "unknown connectability '" ++ s ++ "'"
  | notString key v => key ++ " must be a string, got " ++ v.compact
  | notDictionary v => "customData.realitykit must be a dictionary, got " ++ v.compact
  | notBool key v => key ++ " must be a boolean, got " ++ v.compact

/-! ## Parts of metadata -/

def tokens? (key : String) : Json → Except Defect (List String)
  | .array items =>
    items.mapM fun item =>
      match item with
      | .string s => .ok s
      | v => .error (.memberNotString key v)
  | v => .error (.membersNotList key v)

/-- The members in a text with commas between them, trimmed and without empty ones. -/
def tokensOfText (s : String) : List String :=
  (((s.toList.splitOn ',').map Text.trim).filter fun token => !token.isEmpty).map String.ofList

/-- The members that the metadata declares, in whichever way it does. -/
def declaredMembers? (metadata : Schema.Metadata) : Except Defect (List String) :=
  match metadata.get? "allowedTokens", metadata.get? "enum" with
  | some v, _ => tokens? "allowedTokens" v
  | none, some (.string s) => .ok (tokensOfText s)
  | none, some v => tokens? "enum" v
  | none, none => .ok []

def connectability? : Option Json → Except Defect Connectability
  | none => .ok .free
  | some (.string s) =>
    if s = "interfaceOnly" then .ok .interfaceOnly
    else if s = "" || s = "default" then .ok .free
    else .error (.unknownConnectability s)
  | some v => .error (.notString "connectability" v)

/-- A string that may be missing. -/
def text? (key : String) : Option Json → Except Defect (Option String)
  | none | some .null => .ok none
  | some (.string s) => .ok (some s)
  | some v => .error (.notString key v)

/-- A flag that may be missing.  A number is a flag too, raised when it is an integer other
than zero. -/
def flag? (key : String) : Option Json → Except Defect Bool
  | none | some .null => .ok false
  | some (.bool b) => .ok b
  | some (.number n) =>
    match n.int? with
    | some i => .ok (i != 0)
    | none => .ok false
  | some v => .error (.notBool key v)

/-- The vendor's dictionary in the metadata.  A missing one is empty. -/
def vendor? (metadata : Schema.Metadata) : Except Defect Schema.Metadata :=
  match (metadata.get? "customData").bind fun v => v.member? "realitykit" with
  | none => .ok []
  | some (.object entries) => .ok entries
  | some v => .error (.notDictionary v)

/-! ## All of metadata -/

def ofMetadata? (metadata : Schema.Metadata) : Except Defect Annotations := do
  let members ← declaredMembers? metadata
  let connectability ← connectability? (metadata.get? "connectability")
  let displayName ← text? "displayName" (metadata.get? "displayName")
  let vendor ← vendor? metadata
  let unsupported ← flag? "unsupported" (vendor.get? "unsupported")
  let deprecated ← flag? "deprecated" (vendor.get? "deprecated")
  let availability ← text? "availability" (vendor.get? "availability")
  .ok
    { members? := if members.isEmpty then none else some members
      connectability := connectability
      displayName? := displayName
      unsupported := unsupported
      deprecated := deprecated
      availability? := availability }

end Annotations

end ShaderBindings
