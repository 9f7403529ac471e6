/-
# Node prototypes

A prototype is a node of the schema in typed form: its inputs, its one output, and what the
schema says about it to readers.  Each socket knows the runtime type and the category of its
schema type.
-/
import ShaderBindings.Node.Annotations
import ShaderBindings.Node.Literal

namespace ShaderBindings

/-- An input or an output of a node. -/
structure Socket where
  /-- The name with its namespace, such as `inputs:in1`. -/
  qualifiedName : String
  name : String
  dataType : String
  /-- The type that values of the socket report. -/
  runtimeType : String
  isArray : Bool
  default? : Option Literal
  connectability : Connectability
  members? : Option (List String)
  displayName? : Option String
  category : Category
deriving DecidableEq

/-- The socket takes constants only. -/
def Socket.isInterfaceOnly (p : Socket) : Bool := p.connectability = .interfaceOnly

/-- A node of the schema. -/
structure Prototype where
  /-- The name of the prim, such as `ND_add_float`. -/
  id : String
  /-- The name without the mark of a node, such as `add_float`. -/
  name : String
  inputs : List Socket
  output : Socket
  description? : Option String
  displayName? : Option String
  availability? : Option String
deriving DecidableEq

def Prototype.arity (p : Prototype) : Nat := p.inputs.length

end ShaderBindings
