/-
# Broken invariants

A fault is a state that the stages of a run exclude for one another.  It can still be built by
hand, so the stages answer it with a fault instead of a value.
-/

namespace ShaderBindings

/-- A broken invariant. -/
inductive Fault where
  /-- An empty list of categories has no join. -/
  | emptyJoin (context : String)
  /-- The members of a set declare different enumerations at one input. -/
  | noCommonEnumeration (position base : String)
  /-- An analysis belongs to another set. -/
  | foreignAnalysis (analysis set : String)
  /-- An enumeration has no identity in the module. -/
  | unregisteredEnum (id : Nat)
  /-- A branch wires an input to a parameter that does not exist. -/
  | missingParameter (node input : String) (parameter : Nat)
deriving DecidableEq, Repr

namespace Fault

def message : Fault → String
  | emptyJoin context =>
    "Internal invariant violated in " ++ context ++ ": join of an empty category set"
  | noCommonEnumeration position base =>
    "input '" ++ position ++ "' of '" ++ base ++ "' has no common enumeration"
  | foreignAnalysis analysis set =>
    "analysis of '" ++ analysis ++ "' paired with overload set '" ++ set ++ "'"
  | unregisteredEnum id => "enum #" ++ toString id ++ " is not registered"
  | missingParameter node input parameter =>
    node ++ " wires input '" ++ input ++ "' to missing parameter " ++ toString parameter

/-- The text of a fault where it ends a run. -/
def display (f : Fault) : String := "Internal error: " ++ f.message

end Fault

end ShaderBindings
