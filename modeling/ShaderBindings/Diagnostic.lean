/-
# Diagnostics

A diagnostic is a problem that a run reports and survives.  Warnings leave the run as it is; a
fatal diagnostic means that nothing is written at the end.  Computations that report problems
return them beside their value, in the order in which they arose.
-/

namespace ShaderBindings

inductive Severity where
  /-- The run ends without writing anything. -/
  | fatal
  /-- The run goes on. -/
  | warning
deriving DecidableEq, Repr

def Severity.text : Severity → String
  | fatal => "fatal"
  | warning => "warning"

inductive Diagnostic where
  /-- A type of the schema is in no category. -/
  | unknownSchemaType (node property typeName : String)
  /-- A set of enumeration members has no established name. -/
  | unnamedEnum (node : String) (members : List String) (synthesized : String)
  /-- Categories have no common family below the most general one. -/
  | unjoinableCategories (context : String) (categories : List String)
  /-- A member of an overload cannot be told apart from an earlier one. -/
  | unreachableBranch (binding node shadowedBy : String)
  /-- No input of an overload tells its members apart. -/
  | noDiscriminator (binding : String) (members : Nat) (strict : Bool)
  /-- The members of an overload disagree on availability. -/
  | availabilityMismatch (binding : String) (declared : List String) (chosen : String)
  /-- A member of a group has another number of inputs than the first one. -/
  | arityMismatch (base node : String) (expected found : Nat)
  /-- Two bindings would have the same name. -/
  | duplicateBinding (name first second : String)
  /-- An input position plays different roles in the members of a group. -/
  | roleMismatch (base position detail : String)
  /-- An invariant of the program does not hold. -/
  | internal (context message : String)
deriving DecidableEq, Repr

namespace Diagnostic

/-- The severity of a diagnostic.  An overload without a discriminator is fatal in strict
mode. -/
def severity : Diagnostic → Severity
  | unknownSchemaType .. | unnamedEnum .. | unjoinableCategories .. | unreachableBranch ..
  | availabilityMismatch .. => .warning
  | noDiscriminator _ _ strict => if strict then .fatal else .warning
  | arityMismatch .. | duplicateBinding .. | roleMismatch .. | internal .. => .fatal

def isFatal (d : Diagnostic) : Bool := d.severity = .fatal

def kind : Diagnostic → String
  | unknownSchemaType .. => "unknown_schema_type"
  | unnamedEnum .. => "unnamed_enum"
  | unjoinableCategories .. => "unjoinable_categories"
  | unreachableBranch .. => "unreachable_branch"
  | noDiscriminator .. => "no_discriminator"
  | availabilityMismatch .. => "availability_mismatch"
  | arityMismatch .. => "arity_mismatch"
  | duplicateBinding .. => "duplicate_binding"
  | roleMismatch .. => "role_mismatch"
  | internal .. => "internal"

/-- Items with a comma and a blank between them. -/
def listed (items : List String) : String := ", ".intercalate items

def message : Diagnostic → String
  | unknownSchemaType node property typeName =>
    "Unknown schema type '" ++ typeName ++ "' on " ++ node ++ "." ++ property
      ++ "; treating it as opaque"
  | unnamedEnum node members synthesized =>
    "No canonical name for enum [" ++ listed members ++ "] first declared by " ++ node
      ++ "; using " ++ synthesized
  | unjoinableCategories context categories =>
    "Cannot join categories [" ++ listed categories ++ "] in " ++ context
      ++ "; widening to Value"
  | unreachableBranch binding node shadowedBy =>
    "Dispatch branch for " ++ node ++ " in '" ++ binding ++ "' is unreachable; " ++ shadowedBy
      ++ " matches the same input types first"
  | noDiscriminator binding members _ =>
    "Overload '" ++ binding ++ "' has " ++ toString members
      ++ " members but no input whose type differs between them; only the first member is"
      ++ " reachable"
  | availabilityMismatch binding declared chosen =>
    "Members of '" ++ binding ++ "' declare different availability [" ++ listed declared
      ++ "]; using " ++ chosen
  | arityMismatch base node expected found =>
    "Overload group '" ++ base ++ "': " ++ node ++ " has " ++ toString found
      ++ " inputs but the group expects " ++ toString expected
  | duplicateBinding name first second =>
    "Binding name '" ++ name ++ "' is produced by both '" ++ first ++ "' and '" ++ second ++ "'"
  | roleMismatch base position detail =>
    "Overload group '" ++ base ++ "': input '" ++ position ++ "' " ++ detail
      ++ "; the group is dropped"
  | internal context message =>
    "Internal invariant violated in " ++ context ++ ": " ++ message

def display (d : Diagnostic) : String := d.severity.text ++ ": " ++ d.message

end Diagnostic

/-- The diagnostics of a run, in the order in which they were reported. -/
abbrev Diagnostics := List Diagnostic

namespace Diagnostics

def atSeverity (ds : Diagnostics) (s : Severity) : Diagnostics := ds.filter (·.severity = s)

def fatalCount (ds : Diagnostics) : Nat := ds.countP Diagnostic.isFatal

def warningCount (ds : Diagnostics) : Nat := ds.countP fun d => !d.isFatal

def kindCount (ds : Diagnostics) (kind : String) : Nat := ds.countP (·.kind = kind)

def hasFatal (ds : Diagnostics) : Bool := ds.any Diagnostic.isFatal

end Diagnostics

/-- A value with the diagnostics that were reported on the way to it. -/
structure Reported (α : Type _) where
  value : α
  diagnostics : Diagnostics

/-- Another value with the same reports. -/
def Reported.map {α β : Type _} (f : α → β) (r : Reported α) : Reported β :=
  ⟨f r.value, r.diagnostics⟩

end ShaderBindings
