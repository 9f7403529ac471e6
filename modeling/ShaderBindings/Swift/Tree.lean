/-
# Swift declarations as trees

The part of Swift that generated sources use: types, expressions, statements, and the
declarations of functions, enumerations, extensions and files.
-/

namespace ShaderBindings.Swift

inductive TypeExpr where
  /-- A name, such as `SGScalar`. -/
  | named (name : String)
  /-- A generic type with arguments, such as `SIMD3<Float>`. -/
  | applied (base : String) (args : List TypeExpr)
  | array (item : TypeExpr)
deriving Inhabited

inductive Constant where
  | string (s : String)
  | float (x : Float)
  | int (n : Int)
  | bool (b : Bool)
  | nil
deriving DecidableEq

inductive Operator where
  | equal
  | and
deriving DecidableEq, Repr

mutual

inductive Expr where
  | identifier (name : String)
  | constant (c : Constant)
  /-- A member of a value. -/
  | member (object : Expr) (name : String)
  /-- A member of the type that the context asks for. -/
  | implicitMember (name : String)
  /-- A call on one line. -/
  | call (callee : Expr) (args : List Arg)
  /-- A call with one argument on each line. -/
  | multilineCall (callee : Expr) (args : List Arg)
  | array (items : List Expr)
  /-- A string literal with values in it. -/
  | interpolated (segments : List Segment)
  | binary (left : Expr) (op : Operator) (right : Expr)

inductive Arg where
  | mk (label? : Option String) (value : Expr)

/-- A piece of a string literal. -/
inductive Segment where
  | text (s : String)
  | value (e : Expr)

end

instance : Inhabited Expr := ⟨.constant .nil⟩

instance : Inhabited Arg := ⟨.mk none default⟩

instance : Inhabited Segment := ⟨.text ""⟩

namespace Expr

def string (s : String) : Expr := .constant (.string s)

end Expr

namespace Arg

def labelled (label : String) (value : Expr) : Arg := .mk (some label) value

def plain (value : Expr) : Arg := .mk none value

end Arg

inductive Stmt where
  /-- The declaration of a constant array with one item on each line. -/
  | letArray (name : String) (type : TypeExpr) (items : List Expr)
  | ret (value : Expr)
  /-- Statements under a condition. -/
  | cond (condition : Expr) (body : List Stmt)
  /-- Statements that leave the function unless a condition holds. -/
  | guardElse (condition : Expr) (body : List Stmt)
deriving Inhabited

structure Parameter where
  /-- The argument label; without one the argument stands alone. -/
  label? : Option String
  name : String
  type : TypeExpr
  default? : Option Expr

structure TypeParameter where
  name : String
  /-- The class that bounds it. -/
  bound? : Option String

inductive FunctionKind where
  | free
  | staticVar
deriving DecidableEq, Repr

/-- A function or a computed property. -/
structure Function where
  doc : List String
  attributes : List String
  kind : FunctionKind
  name : String
  typeParameters : List TypeParameter
  parameters : List Parameter
  returnType : TypeExpr
  body : List Stmt

structure EnumCase where
  name : String
  rawValue : String
deriving DecidableEq, Repr

structure Enumeration where
  doc : List String
  name : String
  rawType : TypeExpr
  cases : List EnumCase

structure Extension where
  /-- The type that is extended. -/
  extended : String
  members : List Function

structure File where
  header : List String
  imports : List String
  enums : List Enumeration
  functions : List Function
  extensions : List Extension

end ShaderBindings.Swift
