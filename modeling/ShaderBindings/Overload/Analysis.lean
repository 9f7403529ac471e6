/-
# Analysis of overload sets

For each input position of an overload set the analysis collects what its members have there
and decides how the binding treats the position: whether all members report one runtime type,
whether the argument is a constant of the host language, what its default is, and whether it
has an argument label.  For the set as a whole it finds the category that is returned and the
positions that share a type parameter with the result.
-/
import ShaderBindings.Category.Join
import ShaderBindings.Overload.Grouping

namespace ShaderBindings

/-- A position whose argument is a constant of the host language. -/
inductive Collapse where
  /-- An input that takes constants only, of one schema type. -/
  | primitive (dataType : String)
  | enumerated (id : Nat)
deriving DecidableEq, Repr

/-- An input position of an overload set. -/
structure Position where
  index : Nat
  /-- The name of the input in the first member. -/
  name : String
  /-- The schema types of the input in the members. -/
  dataTypes : List String
  runtimeTypes : List String
  categories : List Category
  /-- The members report one runtime type. -/
  sharedType : Bool
  /-- The members have one category. -/
  sharedCategory : Bool
  /-- Every member takes constants only. -/
  interfaceOnly : Bool
  collapse? : Option Collapse
  default? : Option Literal
  /-- The argument has no label. -/
  positional : Bool
deriving DecidableEq

namespace Position

def isEnumerated (p : Position) : Bool :=
  p.sharedCategory && (p.categories.head?.map Category.isEnumerated).getD false

/-- The category of all members. -/
def shared? (p : Position) : Option Category :=
  if p.sharedCategory then p.categories.head? else none

/-- The type at the position tells members apart. -/
def discriminates (p : Position) : Bool := !p.sharedType && p.collapse?.isNone

end Position

structure GenericInfo where
  /-- The positions that have the type of the parameter, in increasing order. -/
  positions : List Nat
  bound : Category
deriving DecidableEq, Repr

/-- What is known of an overload set. -/
structure Analysis where
  baseName : String
  memberCount : Nat
  positions : List Position
  outputCategories : List Category
  /-- The join of the categories of the outputs. -/
  returnCategory : Category
  generic? : Option GenericInfo
deriving DecidableEq

namespace Analysis

def isGeneric (a : Analysis) (index : Nat) : Bool :=
  (a.generic?.map fun g => g.positions.contains index).getD false

/-- The positions that tell members apart. -/
def discriminating (a : Analysis) : List Nat :=
  (a.positions.filter Position.discriminates).map (·.index)

end Analysis

def allEqual {α : Type} [DecidableEq α] : List α → Bool
  | [] => true
  | first :: rest => rest.all fun x => x = first

namespace OverloadSet

def socketsAt (s : OverloadSet) (index : Nat) : List Socket :=
  s.prototypes.filterMap fun p => p.inputs[index]?

def outputCategories (s : OverloadSet) : List Category := s.prototypes.map (·.output.category)

/-! ## Single positions -/

/-- The members declare different enumerations at a position, or some of them declare none. -/
def hasMixedRoles (s : OverloadSet) (index : Nat) : Bool :=
  let categories := (s.socketsAt index).map (·.category)
  !allEqual categories && categories.any Category.isEnumerated

/-- The way in which a position with the given sockets becomes a constant. -/
def collapseOf? (sockets : List Socket) : Option Collapse :=
  match sockets with
  | [] => none
  | first :: _ =>
    let sharedConstant :=
      if allEqual (sockets.map (·.runtimeType)) && sockets.all Socket.isInterfaceOnly
          && !(sockets.map (·.category)).contains .texture then
        some (Collapse.primitive first.dataType)
      else none
    match first.category with
    | .enumerated id =>
      if allEqual (sockets.map (·.category)) then some (.enumerated id) else sharedConstant
    | _ => sharedConstant

/-- The value can stand as the default of the socket: it has the kind and the number of
components that the category and the runtime type of the socket ask for. -/
def isRepresentable (socket : Socket) (l : Literal) : Bool :=
  let width := DataType.components? socket.runtimeType
  match socket.category, l with
  | .enumerated _, .string s => s != ""
  | .scalar, .float _ | .scalar, .int _ | .value, .bool _ | .string, .string _ => true
  | .vector, .tuple components | .color, .tuple components => width = some components.length
  | .matrix, .matrix rows =>
    width = some rows.length && rows.all fun row => row.length = rows.length
  | _, _ => false

/-- The last of some defaults that agree with one another.  `merged` is the default so far. -/
def mergeDefaults? (merged : Option Literal) : List Socket → Option Literal
  | [] => merged
  | socket :: rest =>
    match socket.default? with
    | none => none
    | some l =>
      if isRepresentable socket l && (merged.map fun m => m.agrees l).getD true then
        mergeDefaults? (some l) rest
      else none

/-- The default that all sockets at a position agree on. -/
def unifiedDefault? (sockets : List Socket) : Option Literal := mergeDefaults? none sockets

/-! ## Argument labels -/

/-- The starts of the names of comparisons, which take two operands without labels. -/
def comparisonMarks : List String := ["ifgreatereq", "ifgreater", "ifequal", "ifless"]

/-- The name reads as that of an unnamed operand: `in`, perhaps with a number. -/
def isPlaceholder (name : String) : Bool :=
  match Text.after? ['i', 'n'] name.toList with
  | some rest => rest.all Char.isDigit
  | none => false

/-- The number of leading positions without a label, for inputs of the given names. -/
def positionalCount (base : String) (names : List String) : Nat :=
  if comparisonMarks.any fun mark => mark.toList.isPrefixOf base.toList then
    min names.length 2
  else (names.takeWhile isPlaceholder).length

/-! ## The whole set -/

/-- The name of an input in the first member. -/
def inputName (s : OverloadSet) (index : Nat) : String :=
  ((s.socketsAt index).head?.map (·.name)).getD ""

/-- The positions that have the category of the output in every member and take no constant,
when the categories of the outputs differ. -/
def genericPositions (s : OverloadSet) : List Nat :=
  if allEqual s.outputCategories then []
  else
    (List.range s.arity).filter fun index =>
      ((s.socketsAt index).zip s.outputCategories).all (fun c => c.1.category = c.2)
        && (collapseOf? (s.socketsAt index)).isNone

def unlabelled (s : OverloadSet) : Nat :=
  positionalCount s.baseName ((List.range s.arity).map s.inputName)

def position (s : OverloadSet) (index : Nat) : Position :=
  let sockets := s.socketsAt index
  { index := index
    name := s.inputName index
    dataTypes := sockets.map (·.dataType)
    runtimeTypes := sockets.map (·.runtimeType)
    categories := sockets.map (·.category)
    sharedType := allEqual (sockets.map (·.runtimeType))
    sharedCategory := allEqual (sockets.map (·.category))
    interfaceOnly := sockets.all Socket.isInterfaceOnly
    collapse? := collapseOf? sockets
    default? := if s.genericPositions.contains index then none else unifiedDefault? sockets
    positional := index < s.unlabelled }

/-- What is known of the set when its outputs have the given join. -/
def analysis (s : OverloadSet) (returnCategory : Category) : Analysis :=
  { baseName := s.baseName
    memberCount := s.members.length
    positions := (List.range s.arity).map s.position
    outputCategories := s.outputCategories
    returnCategory := returnCategory
    generic? :=
      if s.genericPositions.isEmpty then none else some ⟨s.genericPositions, returnCategory⟩ }

/-- The analysis of a set, with the problems that it meets.  There is none for a set without
members, nor for one that mixes enumerations with something else at one position. -/
def analyze (s : OverloadSet) : Reported (Except Fault Analysis) :=
  let joined := Category.join ("outputs of '" ++ s.baseName ++ "'") s.outputCategories
  match joined.value with
  | .error fault => ⟨.error fault, joined.diagnostics⟩
  | .ok returnCategory =>
    match (List.range s.arity).find? s.hasMixedRoles with
    | some index =>
      { value := .error (.noCommonEnumeration (s.inputName index) s.baseName)
        diagnostics := joined.diagnostics
          ++ [.roleMismatch s.baseName (s.inputName index)
            "members declare different enumerations"] }
    | none => ⟨.ok (s.analysis returnCategory), joined.diagnostics⟩

end OverloadSet

end ShaderBindings
