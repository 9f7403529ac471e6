/-
# Running a generated body

A generated body is a list of statements that ends at the first return.  Running it needs to
know two things of a call: the names of the parameters, and the runtime type of each argument.
The value that is returned is read off the constructors of the host library: a failure with its
message, or an output of a node whose inputs are fed by the arguments.

The readers below are given by the place where an expression stands.  The left side of a
comparison is a value and the right side a case of the host's data types, so that a parameter
may have the name of a type without being taken for it.
-/
import Mathlib.Data.List.Forall2
import ShaderBindings.Binding.Dispatch
import ShaderBindings.Swift.Units

namespace ShaderBindings.Swift

/-! ## What a call returns -/

/-- What reaches an input of a node. -/
inductive Feed where
  /-- The argument of a parameter. -/
  | argument (parameter : String)
  /-- A constant of a class and a runtime type that is made from the argument. -/
  | constant (className runtimeType parameter : String)
  /-- A constant that is made from the raw text of the argument. -/
  | rawText (className runtimeType parameter : String)
deriving DecidableEq, Repr

/-- A node of the graph. -/
structure NodeValue where
  /-- The name of the node in the schema. -/
  nodeType : String
  /-- The inputs by name. -/
  inputs : List (String × Feed)
  /-- The name and the runtime type of the output. -/
  output : String × String
deriving DecidableEq, Repr

/-- The source of the value that a call returns. -/
inductive Answer where
  /-- A failure with a message, which keeps the arguments of some parameters. -/
  | failure (message : String) (parameters : List String)
  /-- An output of a node. -/
  | nodeOutput (node : NodeValue) (output : String)
deriving DecidableEq, Repr

/-- The arrays of inputs that a body has declared. -/
abbrev Locals := List (String × List (String × Feed))

/-- How statements end. -/
inductive Flow where
  /-- The next statement follows, with some declarations in scope. -/
  | next (locals : Locals)
  /-- The function returns a value of a class. -/
  | returned (className : String) (answer : Answer)
deriving DecidableEq, Repr

/-! ## Reading expressions -/

/-- The value of an argument with the given label. -/
def Arg.as? (label? : Option String) : Arg → Option Expr
  | .mk found? value => if found? = label? then some value else none

namespace Expr

/-- A string literal. -/
def text? : Expr → Option String
  | .constant (.string s) => some s
  | _ => none

/-- The items of an array. -/
def items? : Expr → Option (List Expr)
  | .array items => some items
  | _ => none

/-- A case of the host's data types. -/
def dataType? : Expr → Option String
  | .member (.identifier type) name => if type = "SGDataType" then some name else none
  | _ => none

/-- A call of a member of the type that the context asks for. -/
def implicitCall? : Expr → Option (String × List Arg)
  | .call (.implicitMember name) args => some (name, args)
  | _ => none

/-- A value that is made from a source, with its class. -/
def construct? : Expr → Option (String × Expr)
  | .call (.identifier className) [source] => (source.as? (some "source")).map (className, ·)
  | _ => none

/-- A constant of the host's value model: its class, its case and its arguments. -/
def constant? (e : Expr) : Option (String × String × List Arg) := do
  let (className, source) ← e.construct?
  match source.implicitCall? with
  | some ("constant", [arg]) =>
    let (caseName, args) ← (← arg.as? none).implicitCall?
    some (className, caseName, args)
  | _ => none

end Expr

/-- A traversal of optional values succeeds with the values of the items. -/
lemma mapM_eq_some {α β : Type} {f : α → Option β} {l : List α} {ys : List β}
    (h : List.Forall₂ (fun x y => f x = some y) l ys) : l.mapM f = some ys := by
  induction h with
  | nil => rfl
  | cons hy _ ih => simp [List.mapM_cons, hy, ih]

/-- What a body knows of a call. -/
structure Call where
  /-- The names of the parameters. -/
  parameters : List String
  /-- The runtime types of the arguments. -/
  types : ArgumentTypes

namespace Call

variable (call : Call) (locals : Locals)

/-- A parameter that no declaration hides. -/
def argument? : Expr → Option String
  | .identifier name =>
    if name ∈ call.parameters ∧ (locals.lookup name).isNone then some name else none
  | _ => none

/-- The runtime type that an argument reports.  Of several parameters with one name it is the
first. -/
def reported? : Expr → Option String
  | .member e name =>
    if name = "dataType" then
      (call.argument? locals e).map fun p => call.types (call.parameters.idxOf p)
    else none
  | _ => none

/-- The truth of a condition. -/
def truth? : Expr → Option Bool
  | .binary left .equal right => do
    let found ← call.reported? locals left
    let expected ← right.dataType?
    some (found = expected)
  | .binary left .and right => do
    if ← truth? left then truth? right else some false
  | _ => none

/-- The text of a piece of a string literal. -/
def segment? : Segment → Option String
  | .text s => some s
  | .value e => call.reported? locals e

/-- The text of a string literal with values in it. -/
def message? : Expr → Option String
  | .interpolated segments => (segments.mapM (call.segment? locals)).map String.join
  | _ => none

/-- The arguments after the first one of a constant only say that a color has no color space. -/
def isColorSpace : Arg → Bool
  | .mk label? (.constant .nil) => label? = some "colorSpace"
  | _ => false

/-- What the first argument of a constant is. -/
def constantFeed? (className caseName : String) : Expr → Option Feed
  | .member e name =>
    if name = "rawValue" then (call.argument? locals e).map (.rawText className caseName) else none
  | e => (call.argument? locals e).map (.constant className caseName)

/-- What reaches an input. -/
def feed? (e : Expr) : Option Feed :=
  match e.constant? with
  | some (className, caseName, first :: rest) =>
    if rest.all isColorSpace then
      (first.as? none).bind (call.constantFeed? locals className caseName)
    else none
  | _ => (call.argument? locals e).map .argument

/-- An input of a node. -/
def input? (e : Expr) : Option (String × Feed) :=
  match e.implicitCall? with
  | some ("init", [name, connection]) => do
    let name ← (← name.as? (some "name")).text?
    let feed ← call.feed? locals (← connection.as? (some "connection"))
    some (name, feed)
  | _ => none

/-- The declared array that an expression names. -/
def inputs? : Expr → Option (List (String × Feed))
  | .identifier name => locals.lookup name
  | _ => none

/-- An output of a node, whose name is the usual one when it is left out. -/
def output? (e : Expr) : Option (String × String) :=
  match e.implicitCall? with
  | some ("init", [dataType]) => do
    let dataType ← (← dataType.as? (some "dataType")).dataType?
    some (usualOutput, dataType)
  | some ("init", [name, dataType]) => do
    let name ← (← name.as? (some "name")).text?
    let dataType ← (← dataType.as? (some "dataType")).dataType?
    some (name, dataType)
  | _ => none

/-- A node with one output. -/
def node? : Expr → Option NodeValue
  | .multilineCall (.identifier "SGNode") [nodeType, inputs, outputs] => do
    let nodeType ← (← nodeType.as? (some "nodeType")).text?
    let inputs ← inputs? locals (← inputs.as? (some "inputs"))
    match ← (← outputs.as? (some "outputs")).items? with
    | [output] => some ⟨nodeType, inputs, ← output? output⟩
    | _ => none
  | _ => none

/-- The source of a value. -/
def answer? (e : Expr) : Option Answer :=
  match e.implicitCall? with
  | some ("error", [message, values]) => do
    let message ← call.message? locals (← message.as? none)
    let values ← (← values.as? (some "values")).items?
    some (.failure message (← values.mapM (call.argument? locals)))
  | some ("nodeOutput", [node]) => do
    some (.nodeOutput (← node? locals (← node.as? none)) usualOutput)
  | some ("nodeOutput", [node, name]) => do
    some (.nodeOutput (← node? locals (← node.as? none)) (← (← name.as? none).text?))
  | _ => none

/-- The return of a value. -/
def return? (e : Expr) : Option Flow := do
  let (className, source) ← e.construct?
  some (.returned className (← call.answer? locals source))

/-! ## Running statements -/

mutual

/-- How a statement ends, when it can be run.  The declarations of a block end with it, and the
block of a guard has to return. -/
def step (locals : Locals) : Stmt → Option Flow
  | .letArray name _ items => do
    let inputs ← items.mapM (call.input? locals)
    some (.next ((name, inputs) :: locals))
  | .ret value => call.return? locals value
  | .cond condition body => do
    if ← call.truth? locals condition then
      match ← run locals body with
      | .next _ => some (.next locals)
      | .returned className answer => some (.returned className answer)
    else some (.next locals)
  | .guardElse condition body => do
    if ← call.truth? locals condition then some (.next locals)
    else
      match ← run locals body with
      | .next _ => none
      | .returned className answer => some (.returned className answer)

/-- How some statements end, one after the other up to the first return. -/
def run (locals : Locals) : List Stmt → Option Flow
  | [] => some (.next locals)
  | statement :: rest => do
    match ← step locals statement with
    | .next locals => run locals rest
    | .returned className answer => some (.returned className answer)

end

end Call

/-- How the body of a function ends for arguments of the given runtime types. -/
def Function.execute (f : Function) (types : ArgumentTypes) : Option Flow :=
  (Call.mk (f.parameters.map (·.name)) types).run [] f.body

end ShaderBindings.Swift
