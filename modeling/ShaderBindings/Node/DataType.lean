/-
# Data types

A schema type has a runtime type, which is the type that a value of it reports: `float3`,
`normal3f` and `point3f` all report `vector3f`.  A schema type also has an intrinsic category
when it is in the table of categories.  A type that is in neither table reports its name in
lower camel case and has no category.
-/
import ShaderBindings.Category.Basic
import ShaderBindings.Text.Identifier

namespace ShaderBindings.DataType

/-- The runtime types, each with the schema types that report it. -/
def runtimeFamilies : List (String × List String) :=
  [("float", ["float", "double"]),
    ("half", ["half"]),
    ("int", ["int", "uint"]),
    ("bool", ["bool"]),
    ("string", ["string"]),
    ("token", ["token"]),
    ("asset", ["asset"]),
    ("vector2f", ["float2", "double2", "vector2f", "texCoord2f"]),
    ("vector3f",
      ["float3", "double3", "vector3f", "vector3d", "normal3f", "normal3d", "point3f", "point3d",
        "texCoord3f"]),
    ("vector4f", ["float4", "double4", "vector4f"]),
    ("vector2h", ["half2", "texCoord2h"]),
    ("vector3h", ["half3", "vector3h", "normal3h", "point3h", "texCoord3h"]),
    ("vector4h", ["half4"]),
    ("vector2i", ["int2"]),
    ("vector3i", ["int3"]),
    ("vector4i", ["int4"]),
    ("color3f", ["color3f", "color3h", "color3d"]),
    ("color4f", ["color4f", "color4h", "color4d"]),
    ("matrix2d", ["matrix2d", "matrix2f"]),
    ("matrix3d", ["matrix3d", "matrix3f"]),
    ("matrix4d", ["matrix4d", "matrix4f"])]

def runtime (typeName : String) : String :=
  match runtimeFamilies.find? fun family => family.2.contains typeName with
  | some family => family.1
  | none => lowerCamel typeName

/-- The number of components of the runtime type of a vector or color, and the number of rows
of that of a square matrix. -/
def components? (runtimeType : String) : Option Nat :=
  if ["vector2f", "vector2h", "vector2i", "matrix2d"].contains runtimeType then some 2
  else if ["vector3f", "vector3h", "vector3i", "color3f", "matrix3d"].contains runtimeType then
    some 3
  else if ["vector4f", "vector4h", "vector4i", "color4f", "matrix4d"].contains runtimeType then
    some 4
  else none

/-- The categories, each with the schema types that have it. -/
def categoryFamilies : List (Category × List String) :=
  [(.value, ["bool"]),
    (.scalar, ["float", "double", "half", "int", "uint"]),
    (.vector,
      ["float2", "float3", "float4", "half2", "half3", "half4", "int2", "int3", "int4", "double2",
        "double3", "double4", "vector2f", "vector3f", "vector4f", "vector3h", "vector3d",
        "normal3f", "normal3h", "normal3d", "point3f", "point3h", "point3d", "texCoord2f",
        "texCoord3f", "texCoord2h", "texCoord3h"]),
    (.color, ["color3f", "color4f", "color3h", "color4h", "color3d", "color4d"]),
    (.matrix, ["matrix2d", "matrix3d", "matrix4d", "matrix2f", "matrix3f", "matrix4f"]),
    (.string, ["string", "token"]),
    (.texture, ["asset"])]

/-- The category of a schema type that is in the table. -/
def intrinsic? (typeName : String) : Option Category :=
  (categoryFamilies.find? fun family => family.2.contains typeName).map Prod.fst

/-- The category of a schema type.  A type outside the table is a category of its own. -/
def category (typeName : String) : Category := (intrinsic? typeName).getD (.unknown typeName)

def isInteger (typeName : String) : Bool :=
  ["int", "uint", "int2", "int3", "int4"].contains typeName

end ShaderBindings.DataType
