/-
# Synthesis of bindings

An overload set and its analysis determine a binding.  A position that is a constant becomes a
parameter of the host's own type, a generic position has the type parameter, and any other has
the class of the join of its categories.  A position whose runtime type is shared is checked
once for all branches, and the positions that discriminate are the conditions of each branch.
A member whose conditions repeat those of an earlier member gets no branch.
-/
import ShaderBindings.Binding.Availability
import ShaderBindings.Binding.Basic
import ShaderBindings.Overload.Analysis

namespace ShaderBindings.OverloadSet

/-! ## Parameters -/

/-- The category that all members have at a position, or the join of theirs. -/
def joined (s : OverloadSet) (p : Position) : Reported (Except Fault Category) :=
  match p.shared? with
  | some c => ⟨.ok c, []⟩
  | none => Category.join ("input '" ++ p.name ++ "' of '" ++ s.baseName ++ "'") p.categories

/-- The type of a position and the way of its argument. -/
def typed (s : OverloadSet) (a : Analysis) (p : Position) :
    Reported (Except Fault (ParamType × Wiring)) :=
  match p.collapse? with
  | some (.primitive dataType) => ⟨.ok (.primitive dataType, .constant dataType), []⟩
  | some (.enumerated id) => ⟨.ok (.enumerated id, .enumConstant), []⟩
  | none =>
    if a.isGeneric p.index then ⟨.ok (.generic, .connection), []⟩
    else (s.joined p).map (Except.map fun c => (.category c, .connection))

/-- The default of a parameter.  That of an enumeration is one of its members. -/
def parameterDefault? (enums : EnumRegistry) (type : ParamType) (default? : Option Literal) :
    Option Literal :=
  match type, default? with
  | .enumerated id, some (.string s) =>
    match enums.get? id with
    | some e => if e.members.contains s then some (.string s) else none
    | none => none
  | _, default? => default?

/-- The parameter of a position, given its type and the way of its argument. -/
def paramOf (enums : EnumRegistry) (p : Position) (typed : ParamType × Wiring) : Param :=
  { name := p.name
    labelling := if p.positional then .positional else .named
    type := typed.1
    dataType := p.dataTypes.head?.getD ""
    default? := parameterDefault? enums typed.1 p.default?
    wiring := typed.2 }

def param (s : OverloadSet) (a : Analysis) (enums : EnumRegistry) (p : Position) :
    Reported (Except Fault Param) :=
  (s.typed a p).map (Except.map (paramOf enums p))

/-- The parameters of some positions.  There are none after a position without a type. -/
def params (s : OverloadSet) (a : Analysis) (enums : EnumRegistry) :
    List Position → Reported (Except Fault (List Param))
  | [] => ⟨.ok [], []⟩
  | p :: rest =>
    let first := s.param a enums p
    match first.value with
    | .error fault => ⟨.error fault, first.diagnostics⟩
    | .ok param =>
      let others := s.params a enums rest
      ⟨others.value.map (param :: ·), first.diagnostics ++ others.diagnostics⟩

/-! ## Checks and branches -/

/-- The position is checked for all branches at once. -/
def isGuarded (p : Position) : Bool :=
  p.sharedType && p.collapse?.isNone && !p.interfaceOnly && !p.isEnumerated

def guards (a : Analysis) : List TypeCheck :=
  (a.positions.filter isGuarded).map fun p => ⟨p.index, p.runtimeTypes.head?.getD ""⟩

def runtimeTypeAt (p : Prototype) (index : Nat) : String :=
  (p.inputs[index]?.map (·.runtimeType)).getD ""

/-- The checks that select a prototype among the discriminating positions. -/
def conditions (discriminating : List Nat) (p : Prototype) : List TypeCheck :=
  discriminating.map fun index => ⟨index, runtimeTypeAt p index⟩

def branch (discriminating : List Nat) (p : Prototype) : Branch :=
  { nodeId := p.id
    conditions := conditions discriminating p
    inputs := p.inputs.zipIdx.map fun (socket, index) => ⟨socket.name, index⟩
    outputName := p.output.name
    outputDataType := p.output.dataType }

/-- The branch among those before it that has the same conditions as a prototype. -/
def shadow? (discriminating : List Nat) (earlier : List Branch) (p : Prototype) : Option Branch :=
  earlier.find? fun b => b.conditions = conditions discriminating p

/-- The branches after those of some more prototypes. -/
def extendBranches (discriminating : List Nat) (earlier : List Branch) :
    List Prototype → List Branch
  | [] => earlier
  | p :: rest =>
    match shadow? discriminating earlier p with
    | some _ => extendBranches discriminating earlier rest
    | none => extendBranches discriminating (earlier ++ [branch discriminating p]) rest

/-- The reports on the prototypes that get no branch.  Without conditions there is one report
on the whole set instead. -/
def shadowReports (binding : String) (discriminating : List Nat) (earlier : List Branch) :
    List Prototype → Diagnostics
  | [] => []
  | p :: rest =>
    match shadow? discriminating earlier p with
    | some first =>
      (if discriminating.isEmpty then [] else [.unreachableBranch binding p.id first.nodeId])
        ++ shadowReports binding discriminating earlier rest
    | none => shadowReports binding discriminating (earlier ++ [branch discriminating p]) rest

/-- The report on a set of several members that no position tells apart. -/
def discriminatorReport (s : OverloadSet) (binding : String) (discriminating : List Nat)
    (strict : Bool) : Diagnostics :=
  if discriminating.isEmpty && s.members.length > 1 then
    [.noDiscriminator binding s.members.length strict]
  else []

/-! ## Documentation and availability -/

/-- The first display name and the first description among the members. -/
def docLines (s : OverloadSet) : List String :=
  (s.prototypes.findSome? (·.displayName?)).toList
    ++ (s.prototypes.findSome? (·.description?)).toList

/-- The distinct availabilities of the members, in the order of the members. -/
def declaredAvailability (s : OverloadSet) : List String :=
  (s.prototypes.filterMap (·.availability?)).eraseDups

/-- The report on members that declare different availabilities. -/
def availabilityReport (s : OverloadSet) (binding : String) : Diagnostics :=
  match Availability.greatest? s.declaredAvailability with
  | some chosen =>
    if s.declaredAvailability.length > 1 then
      [.availabilityMismatch binding s.declaredAvailability chosen]
    else []
  | none => []

/-! ## The binding -/

/-- The binding with the given parameters. -/
def assemble (s : OverloadSet) (a : Analysis) (params : List Param) : Binding :=
  { name := lowerCamel s.baseName
    baseName := s.baseName
    kind := if s.arity = 0 && s.isSingle then .source else .operation
    doc := s.docLines
    availability? := Availability.greatest? s.declaredAvailability
    generic? := a.generic?.map fun g => ⟨genericPlaceholder, g.bound⟩
    params := params
    returnType := if a.generic?.isSome then .generic else .category a.returnCategory
    guards := guards a
    branches := extendBranches a.discriminating [] s.prototypes
    fallback? := if a.discriminating.isEmpty then none else some a.discriminating }

/-- The reports on the branches and the availability. -/
def dispatchReports (s : OverloadSet) (a : Analysis) (strict : Bool) : Diagnostics :=
  let name := lowerCamel s.baseName
  s.discriminatorReport name a.discriminating strict
    ++ shadowReports name a.discriminating [] s.prototypes
    ++ s.availabilityReport name

/-- The binding of a set with an analysis that has to be its own, and the reports on it. -/
def synthesize (s : OverloadSet) (a : Analysis) (enums : EnumRegistry) (strict : Bool) :
    Reported (Except Fault Binding) :=
  if a.baseName = s.baseName then
    let made := s.params a enums a.positions
    match made.value with
    | .error fault => ⟨.error fault, made.diagnostics⟩
    | .ok params => ⟨.ok (s.assemble a params), made.diagnostics ++ s.dispatchReports a strict⟩
  else ⟨.error (.foreignAnalysis a.baseName s.baseName), []⟩

end ShaderBindings.OverloadSet
