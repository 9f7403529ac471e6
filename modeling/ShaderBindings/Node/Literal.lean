/-
# Default values

A default value is read from JSON for a given schema type.  A number is an integer for the
integer types and a double for all others, so that `0` and `0.0` are one default of a float
input.  An array of numbers is a tuple and an array of arrays of numbers is a matrix.
-/
import ShaderBindings.Json.Basic
import ShaderBindings.Node.DataType

namespace ShaderBindings

/-- A typed default value. -/
inductive Literal where
  | bool (b : Bool)
  /-- An integer that fits in a signed word of 64 bits. -/
  | int (n : Int)
  | float (x : Float)
  | string (s : String)
  | tuple (components : List Float)
  | matrix (rows : List (List Float))
deriving DecidableEq

namespace Literal

/-- The reason why a JSON value is no default. -/
inductive Defect where
  /-- An integer type has a default that is no integer. -/
  | notInteger (n : Json.Number)
  | unsupported (v : Json)
  | notNumber (v : Json)

def Defect.message : Defect → String
  | notInteger n => "default " ++ n.text ++ " is not an integer"
  | unsupported v => "unsupported default value " ++ v.compact
  | notNumber v => "expected a number, got " ++ v.compact

/-- Two literals are of one kind and equal as values: zeros of either sign agree, and no
not-a-number agrees with anything. -/
def agrees : Literal → Literal → Bool
  | bool a, bool b => a = b
  | int a, int b => a = b
  | float a, float b => a == b
  | string a, string b => a = b
  | tuple a, tuple b => a == b
  | matrix a, matrix b => a == b
  | _, _ => false

def number? : Json → Except Defect Float
  | .number n => .ok n.toFloat
  | v => .error (.notNumber v)

def row? : Json → Except Defect (List Float)
  | .array items => items.mapM number?
  | v => .error (.notNumber v)

/-- The default that a JSON value means for a property of the given type.  Null means that
there is no default. -/
def ofJson? (v : Json) (typeName : String) : Except Defect (Option Literal) :=
  match v with
  | .null => .ok none
  | .bool b => .ok (some (bool b))
  | .number n =>
    if DataType.isInteger typeName then
      match n.int? with
      | some i => .ok (some (int i))
      | none => .error (.notInteger n)
    else .ok (some (float n.toFloat))
  | .string s => .ok (some (string s))
  | .array items =>
    if items.all Json.isNumber then (items.mapM number?).map fun xs => some (tuple xs)
    else if items.all Json.isArray then (items.mapM row?).map fun rows => some (matrix rows)
    else .error (.unsupported v)
  | .object _ => .error (.unsupported v)

end Literal

end ShaderBindings
