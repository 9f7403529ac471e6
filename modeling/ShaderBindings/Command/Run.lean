/-
# Running a command

A command line on a file tree has an outcome: an exit code, what is printed on either stream,
and the tree afterwards.  `generate` writes the artifacts; `check` compares them with the files
and changes nothing.
-/
import ShaderBindings.Command.Rendering
import ShaderBindings.LineDiff

namespace ShaderBindings

/-- The outcome of a command. -/
structure Outcome where
  code : Nat
  stdout : String
  stderr : String
deriving DecidableEq, Repr

namespace Outcome

def success (stdout : String) : Outcome := ⟨0, stdout, ""⟩

def failure (stdout message : String) : Outcome := ⟨1, stdout, message ++ "\n"⟩

end Outcome

namespace Command

/-- What is rendered under some options. -/
def render (o : Options) (t : FileTree) : Except String Rendered :=
  match o.resolve t with
  | .error defect => .error defect.message
  | .ok c =>
    match Rendered.ofConfig t c with
    | .error e => .error e.message
    | .ok rendered => .ok rendered

/-! ## Generating -/

def summaryLine (s : Summary) : String :=
  "Generated " ++ toString s.operations ++ " operations, " ++ toString s.sources ++ " sources, "
    ++ toString s.enums ++ " enums (" ++ toString s.warnings ++ " warnings)\n"

def statusLine (written : List Path) (a : Artifact) : String :=
  (if written.any a.path.equiv then "  updated " else "  unchanged ") ++ a.path.text ++ "\n"

/-- The outcome of writing the artifacts, and the tree after it. -/
def generate (o : Options) (t : FileTree) : Outcome × FileTree :=
  match render o t with
  | .error message => (.failure "" message, t)
  | .ok rendered =>
    match Artifact.writeAll rendered.artifacts t with
    | (.error f, t) => (.failure "" f.message, t)
    | (.ok written, t) =>
      (.success
        (summaryLine rendered.summary
          ++ String.join (rendered.artifacts.map (statusLine written))), t)

/-! ## Checking -/

/-- The text of the file at a path, when there is one. -/
def existing? (t : FileTree) (p : Path) : Option String := (t.read p).toOption

/-- The artifacts whose files do not have their texts. -/
def stale (t : FileTree) (artifacts : List Artifact) : List Artifact :=
  artifacts.filter fun a => existing? t a.path != some a.contents

/-- The difference between the file of an artifact and its text.  A file that cannot be read counts
as an empty one. -/
def difference (t : FileTree) (a : Artifact) : String :=
  LineDiff.text a.path.text ((existing? t a.path).getD "") a.contents

/-- The outcome of comparing the artifacts with the files. -/
def check (o : Options) (t : FileTree) : Outcome :=
  match render o t with
  | .error message => .failure "" message
  | .ok rendered =>
    let outdated := stale t rendered.artifacts
    if outdated.isEmpty then
      .success ("OK " ++ toString rendered.artifacts.length ++ " file(s) up to date\n")
    else
      .failure (String.join (outdated.map (difference t)))
        (toString outdated.length
          ++ " generated file(s) are out of date; run \x60opgen generate\x60")

/-! ## Command lines -/

def versionLine : String := "opgen 0.4.0\n"

def usage : String :=
  "Generate overloaded ShaderGraph Swift bindings from node definitions\n\n"
    ++ "Usage: opgen [generate|check] [--config PATH] [--schema PATH] [--descriptions PATH]\n"
    ++ "             [--output-dir DIR] [--docs PATH] [--strict]\n"

/-- The outcome of a command line, and the tree after it. -/
def run (args : List String) (t : FileTree) : Outcome × FileTree :=
  match Invocation.ofArguments? args with
  | none => (⟨2, "", usage⟩, t)
  | some .help => (.success usage, t)
  | some .version => (.success versionLine, t)
  | some (.generate o) => generate o t
  | some (.check o) => (check o t, t)

end Command

end ShaderBindings
