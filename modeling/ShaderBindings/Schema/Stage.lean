/-
# Schema stages

A stage is a list of prims, a prim has a path, metadata and properties, and a property has a
namespaced name, a declared type and perhaps a default.  Metadata is kept as it is written; the
nodes give it a meaning.

A record of a stage is written as an object or as an array of its fields in a fixed order.  In
an object unknown keys are ignored and a known key stands at most once; in an array the fields
at the end may be missing.  A field that is written has the type that is expected there.
-/
import ShaderBindings.Json.Document

namespace ShaderBindings.Schema

open Json (Document)

/-- The free-form metadata of a prim or a property. -/
abbrev Metadata := Dictionary Json

structure Property where
  /-- The name with its namespace, such as `inputs:in1`. -/
  name : String
  typeName : String
  /-- Alternative type names, the preferred one first. -/
  aliases : List String
  isArray : Bool
  /-- The default value, when one other than null is written. -/
  default? : Option Json
  metadata : Metadata

structure Prim where
  /-- The absolute path, such as `/ND_add_float`. -/
  path : String
  metadata : Metadata
  properties : List Property

structure Stage where
  prims : List Prim

/-! ## Nodes among the prims -/

/-- The mark at the start of a node's name. -/
def nodeMark : List Char := ['N', 'D', '_']

namespace Prim

/-- The components of the path between its slashes. -/
def components (p : Prim) : List (List Char) := p.path.toList.splitOn '/'

def name (p : Prim) : String := String.ofList (p.components.getLast?.getD [])

/-- The prim stands directly under the root and its name carries the mark of a node. -/
def isNode (p : Prim) : Bool :=
  match p.components with
  | [[], name] => nodeMark.isPrefixOf name
  | _ => false

end Prim

def Stage.nodes (s : Stage) : List Prim := s.prims.filter Prim.isNode

/-! ## Reading -/

/-- The fields of a record, one for each name.  A field is `none` when it is not written. -/
def fields? (names : List String) : Document → Option (List (Option Document))
  | .object members =>
    if members.all fun member => member.1.isSome then
      names.mapM fun name =>
        match members.filter fun member => member.1 == some name with
        | [] => some none
        | [(_, value)] => some (some value)
        | _ => none
    else none
  | .array items =>
    if items.length ≤ names.length then
      some (items.map some ++ List.replicate (names.length - items.length) none)
    else none
  | _ => none

def items? : Document → Option (List Document)
  | .array items => some items
  | _ => none

def string? : Document → Option String
  | .string text => text
  | _ => none

def bool? : Document → Option Bool
  | .bool b => some b
  | _ => none

/-- A dictionary of JSON values that stands inside `outer` arrays and objects.  A repeated key
keeps its last value. -/
def metadata? (outer : Nat) : Document → Option Metadata
  | .object members => do
    let entries ← members.mapM fun member => do
      let key ← member.1
      let value ← member.2.valueWithin? (outer + 1)
      some (key, value)
    some (Dictionary.ofList entries)
  | _ => none

/-- The value of an optional field: `absent` when the field is not written. -/
def optional? {α : Type} (absent : α) (read? : Document → Option α) : Option Document → Option α
  | none => some absent
  | some d => read? d

/-- A default value.  Null stands for no default. -/
def default? (outer : Nat) (d : Document) : Option (Option Json) :=
  (d.valueWithin? outer).map fun value =>
    match value with
    | .null => none
    | value => some value

/-- The property that a document describes, inside four arrays and objects. -/
def property? (d : Document) : Option Property := do
  match ← fields? ["name", "typeName", "aliases", "isArray", "default", "metadata"] d with
  | [some name, some typeName, aliases, isArray, default, metadata] =>
    let name ← string? name
    let typeName ← string? typeName
    let aliases ← optional? [] (fun d => do (← items? d).mapM string?) aliases
    let isArray ← optional? false bool? isArray
    let default ← optional? none (default? 5) default
    let metadata ← optional? [] (metadata? 5) metadata
    some ⟨name, typeName, aliases, isArray, default, metadata⟩
  | _ => none

/-- The prim that a document describes, inside two arrays and objects. -/
def prim? (d : Document) : Option Prim := do
  match ← fields? ["path", "metadata", "properties"] d with
  | [some path, metadata, properties] =>
    let path ← string? path
    let metadata ← optional? [] (metadata? 3) metadata
    let properties ← optional? [] (fun d => do (← items? d).mapM property?) properties
    some ⟨path, metadata, properties⟩
  | _ => none

namespace Stage

def ofDocument? (d : Document) : Option Stage := do
  match ← fields? ["prims"] d with
  | [prims] =>
    let prims ← optional? [] (fun d => do (← items? d).mapM prim?) prims
    some ⟨prims⟩
  | _ => none

def ofText? (text : String) : Option Stage := do
  ofDocument? (← Document.ofText? text)

end Stage

end ShaderBindings.Schema
