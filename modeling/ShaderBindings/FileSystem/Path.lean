/-
# Paths

A path is a text with slashes between its components, and it is kept as it is written.  Empty
components count for nothing, and neither does a component `.` unless it is the first one of a
relative path.  The parent of a path is the start of its text up to the last component but one.
-/

namespace ShaderBindings

/-- A path as it is written. -/
structure Path where
  text : String
deriving DecidableEq, Repr

namespace Path

def isAbsolute (p : Path) : Bool := ['/'].isPrefixOf p.text.toList

def isEmpty (p : Path) : Bool := p.text.toList.isEmpty

/-- The parts of the text between the slashes. -/
def segments (p : Path) : List (List Char) := p.text.toList.splitOn '/'

def ofSegments (segments : List (List Char)) : Path :=
  ⟨String.ofList (['/'].intercalate segments)⟩

/-- The path `q` as seen from `p`: an absolute `q` stands for itself, and any other follows `p`
and a slash. -/
def join (p q : Path) : Path :=
  if q.isAbsolute then q
  else if p.isEmpty || ['/'].isSuffixOf p.text.toList then ⟨p.text ++ q.text⟩
  else ⟨p.text ++ "/" ++ q.text⟩

/-- The segment counts for nothing behind the first one. -/
def isVoid (segment : List Char) : Bool := segment = [] || segment = ['.']

/-- The segments without those at the end that count for nothing.  The first segment stays. -/
def trimSegments : List (List Char) → List (List Char)
  | [] => []
  | first :: rest => first :: (rest.reverse.dropWhile isVoid).reverse

/-- The path without its last component.  The root and the empty path have no parent. -/
def parent? (p : Path) : Option Path :=
  match trimSegments p.segments with
  | [] => none
  | [only] => if only.isEmpty then none else some ⟨""⟩
  | trimmed =>
    match trimSegments trimmed.dropLast with
    | [[]] => some ⟨"/"⟩
    | rest => some (ofSegments rest)

/-- The path and its parents, each behind the one that it is the parent of, up to a number of
them and without the empty path. -/
def lineageUpTo : Nat → Path → List Path
  | 0, _ => []
  | n + 1, p =>
    if p.isEmpty then []
    else
      match p.parent? with
      | none => [p]
      | some parent => p :: lineageUpTo n parent

/-- The path and its parents, each behind the one that it is the parent of, without the empty
path.  There are no more of them than the path has segments. -/
def lineage (p : Path) : List Path := lineageUpTo p.segments.length p

/-- The last component, when it is a name. -/
def fileName? (p : Path) : Option String :=
  match (trimSegments p.segments).getLast? with
  | some name =>
    if name = [] || name = ['.'] || name = ['.', '.'] then none else some (String.ofList name)
  | none => none

def withFileName (p : Path) (name : String) : Path :=
  if p.fileName?.isSome then (p.parent?.getD ⟨""⟩).join ⟨name⟩ else p.join ⟨name⟩

/-- The components of a path.  The first one is empty when the path is absolute. -/
def components (p : Path) : List (List Char) :=
  match p.segments with
  | [] => []
  | first :: rest =>
    let rest := rest.filter fun segment => !isVoid segment
    if first.isEmpty && !p.isAbsolute then rest else first :: rest

/-- The two paths have the same components. -/
def equiv (p q : Path) : Bool := p.components = q.components

end Path

end ShaderBindings
