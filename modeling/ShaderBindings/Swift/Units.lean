/-
# The generated units

A module of bindings becomes two files.  The operations file declares the enumerations and one
function for each operation; the sources file extends the value class by one computed property
for each source.  The body of a function checks the guards in order, then tries the branches in
order, and ends with the failure when no branch is always taken.
-/
import ShaderBindings.Fault
import ShaderBindings.Swift.Host

namespace ShaderBindings.Swift

/-! ## Lookups in the module -/

/-- The enumeration with a sequence number, which has to be in the module. -/
def enumOf (m : BindingModule) (id : Nat) : Except Fault EnumIdentity :=
  match m.enum? id with
  | some e => .ok e
  | none => .error (.unregisteredEnum id)

/-- The type of a parameter or a result. -/
def typeOf (m : BindingModule) : ParamType → Except Fault TypeExpr
  | .primitive dataType => .ok (constantType dataType)
  | .enumerated id => (enumOf m id).map fun e => .named e.name
  | .generic => .ok (.named genericPlaceholder)
  | .category c => .ok (.named (className c))

/-- The expression for the default of a parameter, when the host can express it. -/
def defaultOf (m : BindingModule) (p : Param) : Except Fault (Option Expr) :=
  match p.default? with
  | none => .ok none
  | some l =>
    match p.type, l with
    | .enumerated id, .string s =>
      (enumOf m id).map fun e => some (.member (.identifier e.name) (lowerCamel s))
    | .primitive dataType, l => .ok (constantExpr? l dataType)
    | .category _, l => .ok (valueExpr? l p.dataType)
    | _, _ => .ok none

def parameterOf (m : BindingModule) (p : Param) : Except Fault Parameter := do
  let type ← typeOf m p.type
  let default ← defaultOf m p
  .ok
    { label? := if p.labelling = .named then some p.name else none
      name := p.name
      type := type
      default? := default }

/-! ## Expressions of a body -/

def paramName (b : Binding) (index : Nat) : String := (b.params[index]?.map (·.name)).getD ""

def reportedType (name : String) : Expr := .member (.identifier name) "dataType"

/-- The condition that a check is passed. -/
def checkExpr (b : Binding) (c : TypeCheck) : Expr :=
  .binary (reportedType (paramName b c.param)) .equal (dataTypeExpr c.dataType)

/-- The condition that all checks are passed, the first one and the rest. -/
def checksExpr (b : Binding) (first : TypeCheck) (rest : List TypeCheck) : Expr :=
  rest.foldl (fun e c => .binary e .and (checkExpr b c)) (checkExpr b first)

/-- A result that is made from a source. -/
def construct (result : TypeExpr) (source : Expr) : Expr :=
  .call (.identifier result.text) [.labelled "source" source]

/-- The names of the parameters that are values of the graph. -/
def connectedNames (b : Binding) : List String :=
  (b.params.filter fun p => p.wiring = .connection).map (·.name)

/-- A result that stands for a failure with a message. -/
def failure (b : Binding) (result : TypeExpr) (message : List Segment) : Expr :=
  construct result
    (.call (.implicitMember "error")
      [.plain (.interpolated message),
        .labelled "values" (.array ((connectedNames b).map .identifier))])

/-- A constant of the host's value model. -/
def constantValue (className caseName : String) (args : List Arg) : Expr :=
  .call (.identifier className)
    [.labelled "source"
      (.call (.implicitMember "constant") [.plain (.call (.implicitMember caseName) args)])]

/-- The value that is wired to an input for a parameter. -/
def connectionExpr (p : Param) : Expr :=
  match p.wiring with
  | .connection => .identifier p.name
  | .enumConstant =>
    constantValue "SGString" "string" [.plain (.member (.identifier p.name) "rawValue")]
  | .constant dataType =>
    let className := ((DataType.intrinsic? dataType).map className).getD "SGValue"
    let runtime := DataType.runtime dataType
    let colorSpace : List Arg :=
      if runtime = "color3f" || runtime = "color4f" then
        [.labelled "colorSpace" (.constant .nil)]
      else []
    constantValue className runtime (.plain (.identifier p.name) :: colorSpace)

/-! ## Statements of a body -/

/-- The name that a body gives to the inputs of a node. -/
def inputsName : String := "inputs"

def inputExpr (b : Binding) (node : String) (input : NodeInput) : Except Fault Expr :=
  match b.params[input.param]? with
  | some p =>
    .ok (.call (.implicitMember "init")
      [.labelled "name" (.string input.name), .labelled "connection" (connectionExpr p)])
  | none => .error (.missingParameter node input.name input.param)

/-- The name that an output has when nothing else is said. -/
def usualOutput : String := "out"

def nodeExpr (branch : Branch) : Expr :=
  let name : List Arg :=
    if branch.outputName = usualOutput then []
    else [.labelled "name" (.string branch.outputName)]
  .multilineCall (.identifier "SGNode")
    [.labelled "nodeType" (.string branch.nodeId),
      .labelled "inputs" (.identifier inputsName),
      .labelled "outputs"
        (.array
          [.call (.implicitMember "init")
            (name ++ [.labelled "dataType" (dataTypeExpr branch.outputDataType)])])]

def outputExpr (branch : Branch) : Expr :=
  let name : List Arg :=
    if branch.outputName = usualOutput then [] else [.plain (.string branch.outputName)]
  .call (.implicitMember "nodeOutput") (.plain (nodeExpr branch) :: name)

/-- The statements that build the node of a branch and return its output. -/
def branchBody (b : Binding) (result : TypeExpr) (branch : Branch) : Except Fault (List Stmt) := do
  let items ← branch.inputs.mapM (inputExpr b branch.nodeId)
  .ok
    [.letArray inputsName (.array (.named "SGNode.Input")) items,
      .ret (construct result (outputExpr branch))]

/-- The statement for a check that every call has to pass. -/
def guardStmt (b : Binding) (result : TypeExpr) (check : TypeCheck) : Stmt :=
  let name := paramName b check.param
  .guardElse (checkExpr b check)
    [.ret (failure b result
      [.text ("Invalid " ++ b.name ++ " input. Expected " ++ name ++ " data type to be "
          ++ DataType.runtime check.dataType ++ ", but got "),
        .value (reportedType name)])]

/-- The statements for the branches.  A branch without conditions ends them. -/
def branchStmts (b : Binding) (result : TypeExpr) : List Branch → Except Fault (List Stmt)
  | [] => .ok []
  | branch :: rest => do
    let body ← branchBody b result branch
    match branch.conditions with
    | [] => .ok body
    | first :: others =>
      let following ← branchStmts b result rest
      .ok (.cond (checksExpr b first others) body :: following)

/-- The pieces that report the types of some parameters, each after its separator. -/
def reportedSegments (b : Binding) : String → List Nat → List Segment
  | _, [] => []
  | separator, index :: rest =>
    let name := paramName b index
    .text (separator ++ name ++ " ") :: .value (reportedType name) :: reportedSegments b ", " rest

/-- The statement for a call that fits no branch. -/
def fallbackStmt (b : Binding) (result : TypeExpr) (reported : List Nat) : Stmt :=
  .ret (failure b result
    (.text ("Invalid " ++ b.name ++ " input. Unsupported data types:")
      :: reportedSegments b " " reported))

def bodyOf (b : Binding) (result : TypeExpr) : Except Fault (List Stmt) := do
  let branches ← branchStmts b result b.branches
  .ok (b.guards.map (guardStmt b result) ++ branches
    ++ (b.fallback?.map (fallbackStmt b result)).toList)

/-! ## Declarations -/

/-- The function or computed property of a binding. -/
def functionOf (m : BindingModule) (b : Binding) : Except Fault Function := do
  let parameters ← b.params.mapM (parameterOf m)
  let result ← typeOf m b.returnType
  let body ← bodyOf b result
  .ok
    { doc := b.doc
      attributes := b.availability?.toList.map fun a => "@available(" ++ a ++ ", *)"
      kind := if b.kind = .source then .staticVar else .free
      name := b.name
      typeParameters :=
        b.generic?.toList.map fun g => { name := g.name, bound? := some (className g.bound) }
      parameters := parameters
      returnType := result
      body := body }

def enumerationOf (e : EnumIdentity) : Enumeration :=
  { doc := []
    name := e.name
    rawType := .named "String"
    cases := e.members.map fun member => ⟨lowerCamel member, member⟩ }

/-- The comment at the top of every generated file. -/
def generatedHeader : String := "Autogenerated by opgen. Do not edit."

def imports : List String := ["Foundation", "simd"]

/-- The class that the sources extend. -/
def sourceHost : String := "SGValue"

/-- The two generated files. -/
structure Units where
  operations : File
  sources : File

/-- The generated files of a module. -/
def Units.ofModule (m : BindingModule) : Except Fault Units := do
  let functions ← m.operations.mapM (functionOf m)
  let members ← m.sources.mapM (functionOf m)
  .ok
    { operations :=
        { header := [generatedHeader]
          imports := imports
          enums := m.enums.map enumerationOf
          functions := functions
          extensions := [] }
      sources :=
        { header := [generatedHeader]
          imports := imports
          enums := []
          functions := []
          extensions := [⟨sourceHost, members⟩] } }

end ShaderBindings.Swift
