/-
# Categories

A category is an abstraction of schema types in the host's value model.  Each type of the
schema has one category; an enumeration is a category of its own for each set of members, and a
type that no table knows is a category of its own as well.
-/

namespace ShaderBindings

/-- An abstraction of schema types. -/
inductive Category where
  | value
  | scalar
  | vector
  | color
  | matrix
  | string
  | texture
  /-- Numbers of any shape. -/
  | numeric
  /-- Colors and vectors. -/
  | simd
  /-- The enumeration with the given sequence number. -/
  | enumerated (id : Nat)
  /-- A schema type outside the table. -/
  | unknown (raw : String)
deriving DecidableEq, Repr

namespace Category

/-- The rank of a category in lists; a lower rank comes first. -/
def precedence : Category → Nat
  | matrix => 0
  | color => 1
  | vector => 2
  | scalar => 3
  | string => 4
  | value => 5
  | texture => 6
  | numeric => 7
  | simd => 8
  | enumerated _ => 9
  | unknown _ => 10

def isNumeric : Category → Bool
  | scalar | vector | color | matrix | numeric | simd => true
  | _ => false

/-- The category holds short vectors of numbers. -/
def isSimd : Category → Bool
  | vector | color | simd => true
  | _ => false

/-- The category widens to the most general one without loss worth a warning. -/
def isBaseFamily : Category → Bool
  | scalar | vector | color | matrix | string | texture | numeric | simd => true
  | _ => false

def isEnumerated : Category → Bool
  | enumerated _ => true
  | _ => false

def text : Category → String
  | value => "Value"
  | scalar => "Scalar"
  | vector => "Vector"
  | color => "Color"
  | matrix => "Matrix"
  | string => "String"
  | texture => "Texture"
  | numeric => "Numeric"
  | simd => "Simd"
  | enumerated id => "Enum#" ++ toString id
  | unknown raw => "Opaque(" ++ raw ++ ")"

/-- The order of categories in lists: by precedence, then by sequence number, then by name. -/
def atMost : Category → Category → Bool
  | enumerated a, enumerated b => a ≤ b
  | unknown a, unknown b => a ≤ b
  | a, b => a.precedence ≤ b.precedence

end Category

end ShaderBindings
