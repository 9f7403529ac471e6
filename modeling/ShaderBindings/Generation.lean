/-
# Generation

Generation takes the text of a schema to the texts of the two source files and of the table of
bindings.  It succeeds only when no diagnostic of the run is fatal.
-/
import ShaderBindings.Docs.Table
import ShaderBindings.Session
import ShaderBindings.Swift.Units

namespace ShaderBindings

/-- The reason why nothing is generated. -/
inductive GenerationError where
  | schemaSyntax
  | invalidMetadata (e : InvalidMetadata)
  | fatal (diagnostics : Diagnostics)
  | fault (f : Fault)

def InvalidMetadata.message (e : InvalidMetadata) : String :=
  "Invalid metadata on " ++ e.node ++ "." ++ e.property ++ ": " ++ e.defect.message

namespace GenerationError

def message : GenerationError → String
  | schemaSyntax => "Failed to parse schema"
  | invalidMetadata e => e.message
  | fatal diagnostics =>
    "Generation aborted with " ++ toString diagnostics.fatalCount ++ " fatal diagnostic(s)"
  | fault f => f.display

def diagnostics : GenerationError → Diagnostics
  | fatal diagnostics => diagnostics
  | _ => []

/-- The text of an error, with a line for each fatal diagnostic. -/
def report (e : GenerationError) : String :=
  e.message ++ String.join
    ((e.diagnostics.atSeverity .fatal).map fun d => "\n  " ++ d.display)

end GenerationError

/-- The counts of a run. -/
structure Summary where
  operations : Nat
  sources : Nat
  enums : Nat
  warnings : Nat
deriving DecidableEq, Repr

/-- What a run generates. -/
structure Generated where
  operations : String
  sources : String
  docsTable : String
  /-- The diagnostics, all of them warnings. -/
  diagnostics : Diagnostics
  summary : Summary
deriving DecidableEq, Repr

namespace Generated

def ofModule (m : BindingModule) (diagnostics : Diagnostics) : Except Fault Generated := do
  let units ← Swift.Units.ofModule m
  .ok
    { operations := units.operations.text
      sources := units.sources.text
      docsTable := Docs.table m
      diagnostics := diagnostics
      summary :=
        ⟨m.operations.length, m.sources.length, m.enums.length, diagnostics.warningCount⟩ }

/-- What the run over a stage generates. -/
def ofStage (stage : Schema.Stage) (descriptions : Schema.Descriptions) (strict : Bool) :
    Except GenerationError Generated :=
  match (Session.new strict).run stage descriptions with
  | (.error e, _) => .error (.invalidMetadata e)
  | (.ok m, session) =>
    let diagnostics := session.ledger.diagnostics
    if diagnostics.hasFatal then .error (.fatal diagnostics)
    else
      match ofModule m diagnostics with
      | .ok generated => .ok generated
      | .error f => .error (.fault f)

end Generated

/-- What the run over the stage in a text generates. -/
def generate (schema : String) (descriptions : Schema.Descriptions) (strict : Bool) :
    Except GenerationError Generated :=
  match Schema.Stage.ofText? schema with
  | none => .error .schemaSyntax
  | some stage => Generated.ofStage stage descriptions strict

end ShaderBindings
