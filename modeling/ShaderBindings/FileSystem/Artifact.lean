/-
# Writing artifacts

An artifact is a text and the path where it belongs.  Artifacts are written in two passes.  The
first writes every artifact that is out of date to a temporary file beside its destination; the
second moves the temporary files over the destinations.  A failure ends the writing and removes
the temporary files that are left.
-/
import ShaderBindings.FileSystem.Tree

namespace ShaderBindings

/-- A text and the path where it belongs. -/
structure Artifact where
  path : Path
  contents : String
deriving DecidableEq, Repr

/-- A failure of the operating system at a path. -/
structure IoFailure where
  path : Path
  error : OsError
deriving DecidableEq, Repr

def IoFailure.message (f : IoFailure) : String :=
  "I/O error on " ++ f.path.text ++ ": " ++ f.error.message

namespace Artifact

/-- The destination holds exactly the text. -/
def isCurrent (t : FileTree) (a : Artifact) : Bool :=
  match t.read a.path with
  | .ok text => text = a.contents
  | .error _ => false

/-- The path of the temporary file beside the destination. -/
def temporary (a : Artifact) : Path :=
  a.path.withFileName (a.path.fileName?.getD "" ++ ".tmp")

/-- The tree without the temporary file of an artifact.  One that cannot be removed stays. -/
def dropTemporary (t : FileTree) (a : Artifact) : FileTree :=
  (t.removeFile a.temporary).toOption.getD t

/-- The tree without the temporary files of some artifacts. -/
def discard (t : FileTree) (artifacts : List Artifact) : FileTree := artifacts.foldl dropTemporary t

/-- The tree after the directory of the destination is made. -/
def prepare (t : FileTree) (a : Artifact) : Except IoFailure Unit × FileTree :=
  match a.path.parent? with
  | none => (.ok (), t)
  | some parent =>
    match t.makeDirectories parent with
    | (.ok (), t) => (.ok (), t)
    | (.error e, t) => (.error ⟨parent, e⟩, t)

/-- The tree after the temporary files of some artifacts are written.  `staged` are the
artifacts whose files have been written before. -/
def stage (staged : List Artifact) : List Artifact → FileTree → Except IoFailure Unit × FileTree
  | [], t => (.ok (), t)
  | a :: rest, t =>
    match prepare t a with
    | (.error f, t) => (.error f, discard t staged)
    | (.ok (), t) =>
      match t.write a.temporary a.contents with
      | (.error e, t) => (.error ⟨a.temporary, e⟩, discard t (staged ++ [a]))
      | (.ok (), t) => stage (staged ++ [a]) rest t

/-- The tree after the temporary files of some artifacts are moved to their destinations. -/
def commit : List Artifact → FileTree → Except IoFailure Unit × FileTree
  | [], t => (.ok (), t)
  | a :: rest, t =>
    match t.rename a.temporary a.path with
    | .error e => (.error ⟨a.path, e⟩, discard t (a :: rest))
    | .ok t => commit rest t

/-- The artifacts whose destinations hold something else. -/
def pending (t : FileTree) (artifacts : List Artifact) : List Artifact :=
  artifacts.filter fun a => !a.isCurrent t

/-- Writes the artifacts whose destinations hold something else, and gives the paths of these
artifacts and the tree after the writing. -/
def writeAll (artifacts : List Artifact) (t : FileTree) :
    Except IoFailure (List Path) × FileTree :=
  let out := pending t artifacts
  match stage [] out t with
  | (.error f, t) => (.error f, t)
  | (.ok (), t) =>
    match commit out t with
    | (.error f, t) => (.error f, t)
    | (.ok (), t) => (.ok (out.map (·.path)), t)

end Artifact

end ShaderBindings
