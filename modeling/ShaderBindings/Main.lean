/-
# The command line

The program loads the part of the file system that a command touches into a file tree, runs the
command on the tree, and carries the changes of the tree over to the file system.  A command
that reads a configuration file touches the files that it names as well, so the tree is loaded
in two rounds.
-/
import ShaderBindings.Command.Footprint
import ShaderBindings.Command.Run

namespace ShaderBindings

def Place.absolute (p : Place) : String := "/" ++ "/".intercalate p

def Place.ofAbsolute (name : String) : Place :=
  FileTree.waypoints [] (FileTree.names ⟨name⟩) |>.getLast?.getD []

/-- What stands at a place of the file system. -/
def entryAt? (p : Place) : IO (Option Entry) := do
  let path := (← IO.currentDir) / p.absolute
  if ← path.isDir then return some .directory
  if ← path.pathExists then return some (.file (← IO.FS.readBinFile path))
  return none

/-- The tree with what stands in the file system on the ways of some paths. -/
def gather (paths : List Path) (t : FileTree) : IO FileTree := do
  let mut tree := t
  for path in paths do
    for place in tree.unknownPlaces path do
      if let some entry ← entryAt? place then
        tree := tree.put place entry
  return tree

/-- Carries the changes from one tree to another over to the file system. -/
def carryOver (before after : FileTree) : IO Unit := do
  for (place, entry) in after.entries do
    if before.entry? place != some entry then
      match entry with
      | .directory => IO.FS.createDir place.absolute
      | .file bytes => IO.FS.writeBinFile place.absolute bytes
  for (place, _) in before.entries do
    if (after.entry? place).isNone then IO.FS.removeFile place.absolute

/-- Runs a command line on the file system and gives its exit code. -/
def runCommandLine (args : List String) : IO UInt32 := do
  let base := Place.ofAbsolute (← IO.currentDir).toString
  let paths := fun t => (Invocation.ofArguments? args).toList.flatMap fun i => i.footprint t
  let start := FileTree.empty base
  let configured ← gather (paths start) start
  let before ← gather (paths configured) configured
  let (outcome, after) := Command.run args before
  carryOver before after
  (← IO.getStdout).putStr outcome.stdout
  (← IO.getStderr).putStr outcome.stderr
  return UInt32.ofNat outcome.code

end ShaderBindings

/-- The exit code tells whether the command succeeded, failed, or was not understood. -/
def main (args : List String) : IO UInt32 := ShaderBindings.runCommandLine args
