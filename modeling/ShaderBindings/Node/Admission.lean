/-
# Admission of nodes

A prim of the schema becomes a prototype in two steps.  `draft?` decides from the prim alone
whether it is a node that gets a binding, and gives its draft: the sockets with their annotations
and defaults, but without categories.  `Draft.resolve` then gives each socket its category, which
may register an enumeration and report an unknown type.  So a prim that is refused or left out
changes nothing.

A node is left out when its name marks it as internal or as written by hand, when the vendor
advises against it, when it has not exactly one supported output, when a supported socket takes
an array, or when its output is a string.
-/
import ShaderBindings.Category.Registry
import ShaderBindings.Node.Prose
import ShaderBindings.Node.Prototype
import ShaderBindings.Schema.Descriptions
import ShaderBindings.Text.Search

namespace ShaderBindings

/-! ## Names -/

/-- The name of a node without the mark of a node. -/
def bareName (id : String) : String :=
  match Text.after? Schema.nodeMark id.toList with
  | some rest => String.ofList rest
  | none => id

/-- The start of the names of nodes that serve other nodes. -/
def internalMark : String := "Internal"

/-- The starts of the names of nodes whose bindings are written by hand. -/
def manualMarks : List String :=
  ["combine", "separate", "constant_", "convert_", "swizzle_", "extract_", "dot_",
    "realitykit_pbr_surfaceshader", "realitykit_unlit_surfaceshader",
    "realitykit_geometrymodifier"]

def startsWith (text mark : String) : Bool := mark.toList.isPrefixOf text.toList

def isInternalName (name : String) : Bool := startsWith name internalMark

def isManualName (name : String) : Bool := manualMarks.any (startsWith name)

/-! ## Drafts -/

inductive Direction where
  | input
  | output
deriving DecidableEq, Repr

/-- The direction and the bare name of a property; it has none outside the two namespaces of
sockets. -/
def Direction.ofName? (name : String) : Option (Direction × String) :=
  match Text.after? "inputs:".toList name.toList with
  | some rest => some (.input, String.ofList rest)
  | none =>
    match Text.after? "outputs:".toList name.toList with
    | some rest => some (.output, String.ofList rest)
    | none => none

/-- A socket before its category is known. -/
structure DraftSocket where
  direction : Direction
  qualifiedName : String
  name : String
  /-- The effective schema type. -/
  dataType : String
  isArray : Bool
  default? : Option Literal
  annotations : Annotations
deriving DecidableEq

/-- A node before the categories of its sockets are known. -/
structure Draft where
  id : String
  inputs : List DraftSocket
  output : DraftSocket
  annotations : Annotations
deriving DecidableEq

/-- The reason why metadata or a default is refused. -/
inductive MetadataDefect where
  | annotations (d : Annotations.Defect)
  | literal (d : Literal.Defect)

def MetadataDefect.message : MetadataDefect → String
  | annotations d => d.message
  | literal d => d.message

/-- A property or prim with refused metadata. -/
structure InvalidMetadata where
  node : String
  /-- The name of the property, or `<prim>`. -/
  property : String
  defect : MetadataDefect

/-- The effective type of a property: its preferred alternative name, or else the declared
type. -/
def effectiveType (p : Schema.Property) : String := p.aliases.head?.getD p.typeName

def annotations? (node property : String) (metadata : Schema.Metadata) :
    Except InvalidMetadata Annotations :=
  match Annotations.ofMetadata? metadata with
  | .ok a => .ok a
  | .error d => .error ⟨node, property, .annotations d⟩

def default? (node : String) (p : Schema.Property) : Except InvalidMetadata (Option Literal) :=
  match p.default? with
  | none => .ok none
  | some v =>
    match Literal.ofJson? v (effectiveType p) with
    | .ok l => .ok l
    | .error d => .error ⟨node, p.name, .literal d⟩

def draftSocket? (node : String) (direction : Direction) (name : String) (p : Schema.Property) :
    Except InvalidMetadata DraftSocket := do
  let annotations ← annotations? node p.name p.metadata
  let default ← default? node p
  .ok ⟨direction, p.name, name, effectiveType p, p.isArray, default, annotations⟩

/-- The drafts of the supported sockets among some properties of `node`.  A socket that is not
supported has to be well formed all the same. -/
def draftSockets? (node : String) : List Schema.Property → Except InvalidMetadata (List DraftSocket)
  | [] => .ok []
  | p :: rest =>
    match Direction.ofName? p.name with
    | none => draftSockets? node rest
    | some (direction, name) => do
      let socket ← draftSocket? node direction name p
      let sockets ← draftSockets? node rest
      .ok (if socket.annotations.unsupported then sockets else socket :: sockets)

def DraftSocket.ofDirection (d : Direction) (sockets : List DraftSocket) : List DraftSocket :=
  sockets.filter fun p => p.direction = d

/-- The draft of a node with the given supported sockets, unless they exclude it. -/
def assemble? (id : String) (annotations : Annotations) (sockets : List DraftSocket) :
    Option Draft :=
  match DraftSocket.ofDirection .output sockets with
  | [output] =>
    if sockets.any (·.isArray) then none
    else if DataType.intrinsic? output.dataType = some .string then none
    else some ⟨id, DraftSocket.ofDirection .input sockets, output, annotations⟩
  | _ => none

/-- The draft of a prim that gets a binding.  It is `none` when the prim is left out. -/
@[irreducible] def draft? (prim : Schema.Prim) : Except InvalidMetadata (Option Draft) :=
  if isInternalName (bareName prim.name) then .ok none
  else do
    let annotations ← annotations? prim.name "<prim>" prim.metadata
    if annotations.deprecated then .ok none
    else if isManualName (bareName prim.name) then .ok none
    else do
      let sockets ← draftSockets? prim.name prim.properties
      .ok (assemble? prim.name annotations sockets)

/-! ## Resolution -/

/-- What a run has registered and reported so far. -/
structure Ledger where
  enums : EnumRegistry
  diagnostics : Diagnostics
deriving DecidableEq, Repr

namespace Ledger

def empty : Ledger := ⟨EnumRegistry.empty, []⟩

def report (l : Ledger) (ds : Diagnostics) : Ledger := { l with diagnostics := l.diagnostics ++ ds }

end Ledger

/-- The category of a schema type at a socket of `node`.  A type outside the table is
reported. -/
def categoryAt (node socket typeName : String) : Reported Category where
  value := DataType.category typeName
  diagnostics :=
    if (DataType.intrinsic? typeName).isSome then []
    else [.unknownSchemaType node socket typeName]

namespace DraftSocket

def withCategory (p : DraftSocket) (c : Category) : Socket :=
  { qualifiedName := p.qualifiedName
    name := p.name
    dataType := p.dataType
    runtimeType := DataType.runtime p.dataType
    isArray := p.isArray
    default? := p.default?
    connectability := p.annotations.connectability
    members? := p.annotations.members?
    displayName? := p.annotations.displayName?
    category := c }

/-- The socket of `node` with its category, which is that of its enumeration when it declares
one. -/
def resolve (node : String) (p : DraftSocket) (l : Ledger) : Socket × Ledger :=
  match p.annotations.members? with
  | some members =>
    let declared := l.enums.declare node members
    (p.withCategory declared.value.1,
      ⟨declared.value.2, l.diagnostics ++ declared.diagnostics⟩)
  | none =>
    let found := categoryAt node p.name p.dataType
    (p.withCategory found.value, l.report found.diagnostics)

def resolveAll (node : String) : List DraftSocket → Ledger → List Socket × Ledger
  | [], l => ([], l)
  | p :: rest, l =>
    let (socket, l) := p.resolve node l
    let (sockets, l) := resolveAll node rest l
    (socket :: sockets, l)

end DraftSocket

/-- The prototype of a draft.  The inputs are resolved before the output. -/
def Draft.resolve (d : Draft) (descriptions : Schema.Descriptions) (l : Ledger) :
    Prototype × Ledger :=
  let (inputs, l) := DraftSocket.resolveAll d.id d.inputs l
  let (output, l) := d.output.resolve d.id l
  ({ id := d.id
     name := bareName d.id
     inputs := inputs
     output := output
     description? := (descriptions.get? d.id).bind cleanDescription?
     displayName? := d.annotations.displayName?
     availability? := d.annotations.availability? }, l)

/-- The prototype of a prim, with the ledger after it.  The ledger stays as it is when the prim
is refused or left out. -/
def load (prim : Schema.Prim) (descriptions : Schema.Descriptions) (l : Ledger) :
    Except InvalidMetadata (Option Prototype) × Ledger :=
  match draft? prim with
  | .error e => (.error e, l)
  | .ok none => (.ok none, l)
  | .ok (some draft) =>
    let (prototype, l) := draft.resolve descriptions l
    (.ok (some prototype), l)

end ShaderBindings
