/-
# The files that a command touches

A command reads and writes only the files that its options and its configuration name.  The
footprint lists their paths, as far as a file tree tells them: on a tree without the
configuration file it names that file, and on a tree with it all the others too.  A tree that
holds what stands on the ways of these paths is enough to run the command on.
-/
import ShaderBindings.Command.Rendering

namespace ShaderBindings

namespace Config

def sources (c : Config) : List Path := c.schema :: c.descriptions?.toList

def destinations (c : Config) : List Path :=
  c.operationsPath :: c.sourcesPath :: c.docs?.toList

end Config

def Path.withTemporary (p : Path) : List Path := [p, (Artifact.mk p "").temporary]

/-- The paths that a command with the given options reads or writes, as far as the tree tells
them. -/
def Options.footprint (o : Options) (t : FileTree) : List Path :=
  o.config?.getD defaultConfigFile ::
    match o.resolve t with
    | .error _ => []
    | .ok c => c.sources ++ c.destinations.flatMap Path.withTemporary

def Invocation.footprint (i : Invocation) (t : FileTree) : List Path :=
  match i with
  | .help | .version => []
  | .generate o | .check o => o.footprint t

namespace FileTree

/-- The places that some components lead through, starting at a place. -/
def waypoints : Place → List String → List Place
  | _, [] => []
  | p, name :: rest =>
    if isStay name then waypoints p rest
    else if name = ".." then waypoints p.dropLast rest
    else (p ++ [name]) :: waypoints (p ++ [name]) rest

/-- The places that a path leads through and that the tree does not hold. -/
def unknownPlaces (t : FileTree) (p : Path) : List Place :=
  if p.defect?.isSome then []
  else (waypoints (t.start p) (names p)).filter fun place => (t.entry? place).isNone

end FileTree

end ShaderBindings
