/-
# Rendering

Rendering is everything of a run that happens before a file is written: the options and the
configuration file together name the files, the schema and the descriptions are read, and the
artifacts are made.
-/
import ShaderBindings.Command.Arguments
import ShaderBindings.Config.Basic
import ShaderBindings.Docs.Splice
import ShaderBindings.Generation

namespace ShaderBindings

/-! ## Configuration -/

/-- The configuration file that is read when no other one is named. -/
def defaultConfigFile : Path := ⟨"opgen.toml"⟩

namespace Options

/-- The configuration without the options. -/
def fileConfig (o : Options) (t : FileTree) : Except Config.Defect Config :=
  match o.config? with
  | some path => Config.load t path
  | .none => if t.isFile defaultConfigFile then Config.load t defaultConfigFile
    else .ok Config.default

/-- A configuration under the options, which prevail. -/
def override (o : Options) (c : Config) : Config :=
  { c with
    schema := o.schema?.getD c.schema
    descriptions? := o.descriptions?.or c.descriptions?
    outputDir := o.outputDir?.getD c.outputDir
    docs? := o.docs?.or c.docs?
    strict := c.strict || o.strict }

def resolve (o : Options) (t : FileTree) : Except Config.Defect Config :=
  (o.fileConfig t).map o.override

end Options

/-! ## Artifacts -/

/-- The reason why nothing is rendered. -/
inductive RenderError where
  | unreadable (what : String) (path : Path) (error : OsError)
  | descriptionSyntax
  | generation (e : GenerationError)
  /-- The document has no place for the table. -/
  | anchors (path : Path) (defect : Docs.AnchorDefect)

def anchorMessage (path : Path) (defect : Docs.AnchorDefect) : String :=
  "Documentation anchors in " ++ path.text ++ ": " ++ defect.message

def RenderError.message : RenderError → String
  | unreadable what path error =>
    "Failed to read " ++ what ++ " " ++ path.text ++ ": " ++ error.message
  | descriptionSyntax => "Failed to parse description table"
  | generation e => e.report
  | anchors path defect => anchorMessage path defect

/-- What a run would write. -/
structure Rendered where
  artifacts : List Artifact
  summary : Summary
deriving DecidableEq, Repr

namespace Rendered

/-- The text of a file that serves as `what`. -/
def readAs (t : FileTree) (what : String) (path : Path) : Except RenderError String :=
  match t.read path with
  | .ok text => .ok text
  | .error e => .error (.unreadable what path e)

def descriptions (t : FileTree) (c : Config) : Except RenderError Schema.Descriptions :=
  match c.descriptions? with
  | none => .ok []
  | some path => do
    let text ← readAs t "descriptions" path
    match Schema.Descriptions.ofText? text with
    | some table => .ok table
    | none => .error .descriptionSyntax

/-- The document of a configuration with the table in it. -/
def document (t : FileTree) (c : Config) (table : String) : Except RenderError (List Artifact) :=
  match c.docs? with
  | none => .ok []
  | some path => do
    let text ← readAs t "docs" path
    match Docs.splice text table with
    | .ok spliced => .ok [⟨path, spliced⟩]
    | .error defect => .error (.anchors path defect)

def ofConfig (t : FileTree) (c : Config) : Except RenderError Rendered := do
  let schema ← readAs t "schema" c.schema
  let descriptions ← descriptions t c
  match generate schema descriptions c.strict with
  | .error e => .error (.generation e)
  | .ok generated =>
    let document ← document t c generated.docsTable
    .ok
      { artifacts :=
          [⟨c.operationsPath, generated.operations⟩, ⟨c.sourcesPath, generated.sources⟩]
            ++ document
        summary := generated.summary }

end Rendered

end ShaderBindings
