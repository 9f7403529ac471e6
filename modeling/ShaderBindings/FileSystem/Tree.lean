/-
# File trees

A file tree holds files and directories at places.  A place is the list of names on the way to
it from the root.  The root, the working directory and what lies between them are directories at
all times.  A file is a list of bytes, which is a text only when the bytes are those of one in
UTF-8.  Some places may be locked; what stands there can be read but not changed.  Others may have
no room for more than a number of bytes; a longer text that is written there is cut off.

The operations follow a path component by component, and each gives the error that the
operating system gives.  An operation that changes what a name stands for follows the path up to
its last component only, the ending of the path, and looks the name up by itself.
-/
import ShaderBindings.FileSystem.Path

namespace ShaderBindings

/-- The reason why an operation on a file tree fails. -/
inductive OsError where
  | notFound
  | denied
  | busy
  | alreadyExists
  | notDirectory
  | isDirectory
  | noSpace
  | nameTooLong
  | nulCharacter
  | invalidData
deriving DecidableEq, Repr

/-- The text of an error of the operating system.  A path with a NUL character never gets as far
as the system, and the bytes of a file are read as a text without it, so that these errors have no
number. -/
def OsError.message : OsError → String
  | notFound => "No such file or directory (os error 2)"
  | denied => "Permission denied (os error 13)"
  | busy => "Device or resource busy (os error 16)"
  | alreadyExists => "File exists (os error 17)"
  | notDirectory => "Not a directory (os error 20)"
  | isDirectory => "Is a directory (os error 21)"
  | noSpace => "No space left on device (os error 28)"
  | nameTooLong => "File name too long (os error 36)"
  | nulCharacter => "file name contained an unexpected NUL byte"
  | invalidData => "stream did not contain valid UTF-8"

namespace Path

/-- The greatest length of a name in bytes. -/
def nameLimit : Nat := 255

/-- The greatest length of a path in bytes. -/
def limit : Nat := 4095

/-- The reason why the path leads nowhere in any tree. -/
def defect? (p : Path) : Option OsError :=
  if p.text.toList.contains '\x00' then some .nulCharacter
  else if p.isEmpty then some .notFound
  else if limit < p.text.utf8ByteSize then some .nameTooLong
  else none

end Path

/-- The names on the way from the root to a file or a directory. -/
abbrev Place := List String

inductive Entry where
  | file (bytes : ByteArray)
  | directory

-- A derived instance would take whichever test for bytes is at hand.
instance : DecidableEq Entry
  | .file a, .file b =>
    @decidable_of_decidable_of_iff (a = b) _ (ByteArray.decEq a b)
      ⟨congrArg Entry.file, Entry.file.inj⟩
  | .directory, .directory => isTrue rfl
  | .file _, .directory => isFalse nofun
  | .directory, .file _ => isFalse nofun

/-- Files and directories by their places. -/
structure FileTree where
  /-- The working directory, where relative paths start. -/
  base : Place
  /-- The files and directories, each place at most once. -/
  entries : List (Place × Entry)
  /-- The places that cannot be changed. -/
  locked : List Place
  /-- The places that have room for so many bytes only. -/
  limits : List (Place × Nat)
deriving DecidableEq

namespace FileTree

def empty (base : Place) : FileTree := ⟨base, [], [], []⟩

/-! ## Places -/

def entry? (t : FileTree) (p : Place) : Option Entry :=
  if p.isPrefixOf t.base then some .directory else t.entries.lookup p

def isLocked (t : FileTree) (p : Place) : Bool := t.locked.contains p

/-- There is room for the bytes at the place. -/
def hasRoom (t : FileTree) (p : Place) (bytes : ByteArray) : Bool :=
  match t.limits.lookup p with
  | none => true
  | some limit => bytes.size ≤ limit

/-- As many of the bytes as there is room for at the place. -/
def fitting (t : FileTree) (p : Place) (bytes : ByteArray) : ByteArray :=
  match t.limits.lookup p with
  | none => bytes
  | some limit => bytes.extract 0 limit

def put (t : FileTree) (p : Place) (e : Entry) : FileTree :=
  { t with entries := t.entries.filter (fun entry => entry.1 != p) ++ [(p, e)] }

def clear (t : FileTree) (p : Place) : FileTree :=
  { t with entries := t.entries.filter fun entry => entry.1 != p }

/-! ## Following a path -/

/-- The components of a path, without regard to where it starts. -/
def names (p : Path) : List String :=
  (if p.isAbsolute then p.segments.drop 1 else p.segments).map String.ofList

/-- The component leads nowhere else. -/
def isStay (name : String) : Bool := name = "" || name = "."

def start (t : FileTree) (p : Path) : Place := if p.isAbsolute then [] else t.base

/-- A path leads on from a place only if a directory stands there. -/
def enter (t : FileTree) (p : Place) : Except OsError Unit :=
  match t.entry? p with
  | none => .error .notFound
  | some (.file _) => .error .notDirectory
  | some .directory => .ok ()

def step (t : FileTree) (p : Place) (name : String) : Except OsError Place := do
  t.enter p
  if isStay name then .ok p
  else if name = ".." then .ok p.dropLast
  else if Path.nameLimit < name.utf8ByteSize then .error .nameTooLong
  else .ok (p ++ [name])

/-- The place that some components lead to.  All but the last of them lead through
directories. -/
def walk (t : FileTree) : Place → List String → Except OsError Place
  | p, [] => .ok p
  | p, name :: rest =>
    match t.step p name with
    | .error e => .error e
    | .ok next => t.walk next rest

def locate (t : FileTree) (p : Path) : Except OsError Place :=
  match p.defect? with
  | some e => .error e
  | none => t.walk (t.start p) (names p)

/-- The end of a path: the last component and the directory that it is looked up in. -/
structure Ending where
  directory : Place
  name? : Option String
  /-- Slashes follow the last component, so that only a directory can stand there. -/
  slashed : Bool
deriving DecidableEq, Repr

/-- The end of a path.  All before the last component leads through directories. -/
def ending (t : FileTree) (p : Path) : Except OsError Ending := do
  if let some e := p.defect? then .error e
  let components := ((names p).reverse.dropWhile fun name => name = "").reverse
  let directory ← t.walk (t.start p) components.dropLast
  t.enter directory
  .ok
    { directory := directory
      name? := components.getLast?.filter fun name => name != "." && name != ".."
      slashed := ['/'].isSuffixOf p.text.toList }

/-! ## Reading -/

/-- The bytes of the file at a place. -/
def bytesAt (t : FileTree) (p : Place) : Except OsError ByteArray :=
  match t.entry? p with
  | none => .error .notFound
  | some .directory => .error .isDirectory
  | some (.file bytes) => .ok bytes

/-- The text that has the bytes. -/
def decode (bytes : ByteArray) : Except OsError String :=
  match String.fromUTF8? bytes with
  | some text => .ok text
  | none => .error .invalidData

/-- The text of the file at a path. -/
def read (t : FileTree) (p : Path) : Except OsError String := do
  let bytes ← t.bytesAt (← t.locate p)
  decode bytes

/-- A file stands at the path, whatever its bytes are. -/
def isFile (t : FileTree) (p : Path) : Bool :=
  match t.locate p with
  | .ok place => (t.bytesAt place).toOption.isSome
  | .error _ => false

def isDirectory (t : FileTree) (p : Path) : Bool :=
  match t.locate p with
  | .ok place => t.entry? place = some .directory
  | .error _ => false

/-! ## Files -/

/-- The tree after some bytes are written at a place.  When there is no room for all of them, those
that fit are written before the writing fails. -/
def writeAt (t : FileTree) (p : Place) (bytes : ByteArray) : Except OsError Unit × FileTree :=
  if t.entry? p = some .directory then (.error .isDirectory, t)
  else if t.isLocked p then (.error .denied, t)
  else if t.hasRoom p bytes then (.ok (), t.put p (.file bytes))
  else (.error .noSpace, t.put p (.file (t.fitting p bytes)))

/-- The place of a file that is written.  A path that ends in a slash or in no name can only lead
to a directory. -/
def fileTarget (t : FileTree) (p : Path) : Except OsError Place := do
  let e ← t.ending p
  match e.name?, e.slashed with
  | some name, false => t.step e.directory name
  | _, _ => .error .isDirectory

/-- The tree after a text is written to a file. -/
def write (t : FileTree) (p : Path) (text : String) : Except OsError Unit × FileTree :=
  match t.fileTarget p with
  | .error e => (.error e, t)
  | .ok place => t.writeAt place text.toUTF8

/-- The tree after the file at a path is removed. -/
def removeFile (t : FileTree) (p : Path) : Except OsError FileTree := do
  let place ← t.locate p
  let _ ← t.bytesAt place
  if t.isLocked place then .error .denied else .ok (t.clear place)

/-- The name of an entry that moves. -/
def Ending.movable (e : Ending) : Except OsError String :=
  match e.name? with
  | some name => .ok name
  | none => .error .busy

/-- The tree after a file moves over whatever file stands at the target.  Both paths are
followed before either name is looked up, and the source has to exist before anything is asked
of the target. -/
def rename (t : FileTree) (source target : Path) : Except OsError FileTree := do
  let old ← t.ending source
  let new ← t.ending target
  let oldName ← old.movable
  let newName ← new.movable
  let place ← t.step old.directory oldName
  let bytes ← t.bytesAt place
  let destination ← t.step new.directory newName
  if old.slashed || new.slashed then .error .notDirectory
  else if t.entry? destination = some .directory then .error .isDirectory
  else if t.isLocked place || t.isLocked destination then .error .denied
  else .ok ((t.clear place).put destination (.file bytes))

/-! ## Directories -/

/-- The tree after a directory is made where nothing stands. -/
def makeDirectory (t : FileTree) (p : Path) : Except OsError FileTree := do
  let e ← t.ending p
  match e.name? with
  | none => .error .alreadyExists
  | some name =>
    let place ← t.step e.directory name
    if (t.entry? place).isSome then .error .alreadyExists
    else if t.isLocked place then .error .denied
    else .ok (t.put place .directory)

def ensureDirectory (t : FileTree) (p : Path) : Except OsError FileTree :=
  match t.makeDirectory p with
  | .ok t => .ok t
  | .error e => if t.isDirectory p then .ok t else .error e

/-- The tree after the first of some paths is a directory.  Each path behind the first is the
parent of the one before it, and is made when the way to that one is missing.  What has been made
stays after a failure. -/
def ensureFirst (t : FileTree) : List Path → Except OsError Unit × FileTree
  | [] => (.ok (), t)
  | p :: ancestors =>
    match t.ensureDirectory p with
    | .ok t => (.ok (), t)
    | .error .notFound =>
      match t.ensureFirst ancestors with
      | (.error e, t) => (.error e, t)
      | (.ok (), t) =>
        match t.ensureDirectory p with
        | .ok t => (.ok (), t)
        | .error e => (.error e, t)
    | .error e => (.error e, t)

/-- The tree after the directory of a path and the missing ones on the way are made. -/
def makeDirectories (t : FileTree) (p : Path) : Except OsError Unit × FileTree :=
  t.ensureFirst p.lineage

end FileTree

end ShaderBindings
