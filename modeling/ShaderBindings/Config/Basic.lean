/-
# Configurations

A configuration names the files that a run reads and writes.  It comes from a document whose
keys are the fields below, each at most once and each with a value of its type; a field that is
not written keeps its default.  The relative paths of a configuration file start at the
directory of the file.
-/
import ShaderBindings.Config.Toml
import ShaderBindings.FileSystem.Artifact

namespace ShaderBindings

/-- The files of a run. -/
structure Config where
  schema : Path
  descriptions? : Option Path
  outputDir : Path
  operationsFile : String
  sourcesFile : String
  docs? : Option Path
  /-- Overloads that no input tells apart are fatal. -/
  strict : Bool
deriving DecidableEq, Repr

namespace Config

/-- The configuration without any statement. -/
def default : Config :=
  { schema := ⟨"schemas.json"⟩
    descriptions? := none
    outputDir := ⟨"."⟩
    operationsFile := "Operations.g.swift"
    sourcesFile := "Sources.g.swift"
    docs? := none
    strict := false }

/-- The configuration after one more statement.  An unknown key and a value of another type are
refused. -/
def set? (c : Config) (key : String) (value : Toml.Value) : Option Config :=
  match key, value with
  | "schema", .string s => some { c with schema := ⟨s⟩ }
  | "descriptions", .string s => some { c with descriptions? := some ⟨s⟩ }
  | "output_dir", .string s => some { c with outputDir := ⟨s⟩ }
  | "operations_file", .string s => some { c with operationsFile := s }
  | "sources_file", .string s => some { c with sourcesFile := s }
  | "docs", .string s => some { c with docs? := some ⟨s⟩ }
  | "strict", .bool b => some { c with strict := b }
  | _, _ => none

def setAll? (c : Config) : List (String × Toml.Value) → Option Config
  | [] => some c
  | (key, value) :: rest => (c.set? key value).bind fun c => c.setAll? rest

def distinctKeys (statements : List (String × Toml.Value)) : Bool :=
  (statements.map Prod.fst).eraseDups.length = statements.length

/-- The configuration that a text describes. -/
def ofText? (text : String) : Option Config := do
  let statements ← Toml.document? text
  if distinctKeys statements then default.setAll? statements else none

/-- The configuration with its relative paths seen from `base`. -/
def relativeTo (c : Config) (base : Path) : Config :=
  { c with
    schema := base.join c.schema
    descriptions? := c.descriptions?.map base.join
    outputDir := base.join c.outputDir
    docs? := c.docs?.map base.join }

def operationsPath (c : Config) : Path := c.outputDir.join ⟨c.operationsFile⟩

def sourcesPath (c : Config) : Path := c.outputDir.join ⟨c.sourcesFile⟩

inductive Defect where
  | unreadable (f : IoFailure)
  | refused (path : Path)
deriving DecidableEq, Repr

def Defect.message : Defect → String
  | unreadable f => f.message
  | refused path => "Failed to parse config " ++ path.text

/-- The configuration in a file. -/
def load (t : FileTree) (path : Path) : Except Defect Config :=
  match t.read path with
  | .error e => .error (.unreadable ⟨path, e⟩)
  | .ok text =>
    match ofText? text with
    | none => .error (.refused path)
    | some c => .ok (c.relativeTo (path.parent?.getD ⟨""⟩))

end Config

end ShaderBindings
