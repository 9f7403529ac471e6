/-
# The host's names

The classes, types and constructors of the host library: the class of a category, the constant
type of a schema type, the expression for a runtime type, and the expression for a default.
-/
import ShaderBindings.Binding.Basic
import ShaderBindings.Swift.Printer

namespace ShaderBindings.Swift

def className : Category → String
  | .value | .unknown _ => "SGValue"
  | .scalar => "SGScalar"
  | .vector => "SGVector"
  | .color => "SGColor"
  | .matrix => "SGMatrix"
  | .string | .enumerated _ => "SGString"
  | .texture => "SGTexture"
  | .numeric => "SGNumeric"
  | .simd => "SGSIMD"

def simdType (width : Nat) (scalar : String) : TypeExpr :=
  .applied ("SIMD" ++ toString width) [.named scalar]

/-- The constant types of the runtime types that have one of their own. -/
def constantTypes : List (String × TypeExpr) :=
  [("float", .named "Float"),
    ("half", .named "Float16"),
    ("int", .named "Int"),
    ("bool", .named "Bool"),
    ("string", .named "String"),
    ("token", .named "String"),
    ("asset", .named "String"),
    ("vector2f", simdType 2 "Float"),
    ("vector3f", simdType 3 "Float"),
    ("color3f", simdType 3 "Float"),
    ("vector4f", simdType 4 "Float"),
    ("color4f", simdType 4 "Float"),
    ("vector2h", simdType 2 "Float16"),
    ("vector3h", simdType 3 "Float16"),
    ("vector4h", simdType 4 "Float16"),
    ("vector2i", simdType 2 "Int"),
    ("vector3i", simdType 3 "Int"),
    ("vector4i", simdType 4 "Int"),
    ("matrix2d", .named "simd_float2x2"),
    ("matrix3d", .named "simd_float3x3"),
    ("matrix4d", .named "simd_float4x4")]

def constantType (dataType : String) : TypeExpr :=
  let runtime := DataType.runtime dataType
  (constantTypes.lookup runtime).getD (.named (capitalized runtime))

def dataTypeExpr (dataType : String) : Expr :=
  .member (.identifier "SGDataType") (DataType.runtime dataType)

/-! ## Defaults -/

def floatArgs (xs : List Float) : List Arg := xs.map fun x => .plain (.constant (.float x))

def isApplied : TypeExpr → Bool
  | .applied _ _ => true
  | _ => false

/-- The expression for a constant of a schema type.  A tuple needs a vector type. -/
def constantExpr? (l : Literal) (dataType : String) : Option Expr :=
  match l with
  | .bool b => some (.constant (.bool b))
  | .int n => some (.constant (.int n))
  | .float x => some (.constant (.float x))
  | .string s => some (.string s)
  | .tuple components =>
    let type := constantType dataType
    if isApplied type then some (.call (.identifier type.text) (floatArgs components)) else none
  | .matrix rows =>
    let n := toString (rows.length % 256)
    let row (xs : List Float) : Expr :=
      .call (.identifier ("SIMD" ++ n ++ "<Float>")) (floatArgs xs)
    some (.call (.identifier ("simd_float" ++ n ++ "x" ++ n))
      [.labelled "rows" (.array (rows.map row))])

/-- The arguments that make a value of the graph from a default. -/
def valueArgs? (l : Literal) (dataType : String) : Option (List Arg) :=
  let runtime := DataType.runtime dataType
  if ["float", "half", "int", "string"].contains runtime then
    (constantExpr? l dataType).map fun e => [.plain e]
  else if ["vector2f", "vector3f", "vector4f", "color3f", "color4f"].contains runtime then
    match l with
    | .tuple components => some (floatArgs components)
    | _ => none
  else if ["matrix2d", "matrix3d", "matrix4d"].contains runtime then
    match l with
    | .matrix _ => (constantExpr? l dataType).map fun e => [.plain e]
    | _ => none
  else none

def valueExpr? (l : Literal) (dataType : String) : Option Expr :=
  (valueArgs? l dataType).map fun args =>
    .call (.member (.identifier "SGValue") (DataType.runtime dataType)) args

end ShaderBindings.Swift
