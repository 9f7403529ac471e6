/-
# Bindings

A binding is one function or value of the host language that stands for an overload set.  It
lists the parameters, the checks that every call has to pass, the branches that tell the
members of the set apart, and the failure when no branch fits.  Nothing of the schema is needed
beyond it.
-/
import ShaderBindings.Category.Registry
import ShaderBindings.Node.Literal

namespace ShaderBindings

/-- The name of the type parameter of a generic binding. -/
def genericPlaceholder : String := "T"

/-- Whether a binding is a named value or a function. -/
inductive BindingKind where
  /-- A node without inputs, which is a value rather than a call. -/
  | source
  | operation
deriving DecidableEq, Repr

def BindingKind.text : BindingKind → String
  | source => "source"
  | operation => "operation"

/-- Whether an argument has a label. -/
inductive Labelling where
  | positional
  | named
deriving DecidableEq, Repr

/-- The type of a parameter or a result. -/
inductive ParamType where
  /-- The constant of the host language for a schema type. -/
  | primitive (dataType : String)
  | enumerated (id : Nat)
  | generic
  | category (c : Category)
deriving DecidableEq, Repr

/-- How an argument reaches the input of a node. -/
inductive Wiring where
  /-- The argument is a value of the graph. -/
  | connection
  /-- The argument becomes a constant of a schema type. -/
  | constant (dataType : String)
  /-- The raw text of the enumeration member becomes a constant. -/
  | enumConstant
deriving DecidableEq, Repr

structure Param where
  name : String
  labelling : Labelling
  type : ParamType
  /-- The schema type in the first member, which decides how the default is written. -/
  dataType : String
  default? : Option Literal
  wiring : Wiring
deriving DecidableEq

structure GenericParam where
  name : String
  /-- The category whose class bounds it. -/
  bound : Category
deriving DecidableEq, Repr

/-- The check that an argument reports a runtime type. -/
structure TypeCheck where
  /-- The index of the parameter. -/
  param : Nat
  dataType : String
deriving DecidableEq, Repr

/-- An input of a node and the parameter that feeds it. -/
structure NodeInput where
  name : String
  param : Nat
deriving DecidableEq, Repr

/-- One node that a binding may stand for. -/
structure Branch where
  nodeId : String
  /-- The checks that select the branch; without any the branch is always taken. -/
  conditions : List TypeCheck
  inputs : List NodeInput
  outputName : String
  outputDataType : String
deriving DecidableEq, Repr

/-- A function or value of the host language. -/
structure Binding where
  /-- The identifier of the host language. -/
  name : String
  /-- The base of the names of the nodes. -/
  baseName : String
  kind : BindingKind
  doc : List String
  availability? : Option String
  generic? : Option GenericParam
  params : List Param
  returnType : ParamType
  /-- The checks that every call has to pass. -/
  guards : List TypeCheck
  /-- The branches in the order in which they are tried. -/
  branches : List Branch
  /-- The parameters that a failure reports when no branch fits. -/
  fallback? : Option (List Nat)
deriving DecidableEq

def Binding.nodeIds (b : Binding) : List String := b.branches.map (·.nodeId)

/-- All bindings of a run. -/
structure BindingModule where
  enums : List EnumIdentity
  /-- The bindings in the order of their base names. -/
  bindings : List Binding
deriving DecidableEq

namespace BindingModule

def empty : BindingModule := ⟨[], []⟩

def operations (m : BindingModule) : List Binding :=
  m.bindings.filter fun b => b.kind = .operation

def sources (m : BindingModule) : List Binding := m.bindings.filter fun b => b.kind = .source

def enum? (m : BindingModule) (id : Nat) : Option EnumIdentity :=
  m.enums.find? fun e => e.id = id

end BindingModule

end ShaderBindings
