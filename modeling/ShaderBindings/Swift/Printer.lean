/-
# The text of Swift declarations

Each tree has one text.  A statement or function is printed at a level, which indents each of
its lines by four blanks; an expression takes the level of the statement around it, and only
the calls with one argument on each line use it.
-/
import ShaderBindings.Decimal.Layout
import ShaderBindings.Swift.Lexical
import ShaderBindings.Swift.Tree

namespace ShaderBindings.Swift

def indent (level : Nat) : String := String.ofList (List.replicate (4 * level) ' ')

def commaList (items : List String) : String := ", ".intercalate items

/-! ## Types -/

namespace TypeExpr

mutual

def text : TypeExpr → String
  | named name => name
  | applied base args => base ++ "<" ++ commaList (texts args) ++ ">"
  | array item => "[" ++ item.text ++ "]"

def texts : List TypeExpr → List String
  | [] => []
  | t :: rest => t.text :: texts rest

end

end TypeExpr

def TypeParameter.text (p : TypeParameter) : String :=
  match p.bound? with
  | some bound => p.name ++ ": " ++ bound
  | none => p.name

/-! ## Expressions -/

def Constant.text : Constant → String
  | string s => quote s
  | float x => Decimal.floatLiteral.print x
  | int n => toString n
  | bool b => if b then "true" else "false"
  | nil => "nil"

def Operator.text : Operator → String
  | equal => "=="
  | and => "&&"

/-- The text of an argument whose value has the given text. -/
def labelledText (label? : Option String) (value : String) : String :=
  match label? with
  | some label => label ++ ": " ++ value
  | none => value

namespace Expr

mutual

/-- The text of an expression inside a statement at the given level. -/
def text (level : Nat) : Expr → String
  | identifier name => Swift.identifier name
  | constant c => c.text
  | member object name => text level object ++ "." ++ Swift.identifier name
  | implicitMember name => "." ++ name
  | call callee args => text level callee ++ "(" ++ commaList (argTexts level args) ++ ")"
  | multilineCall callee args =>
    text level callee ++ "(\n" ++ ",\n".intercalate (argLines (level + 1) args) ++ ")"
  | array items => "[" ++ commaList (texts level items) ++ "]"
  | interpolated segments => "\"" ++ segmentsText level segments ++ "\""
  | binary left op right => text level left ++ " " ++ op.text ++ " " ++ text level right

def texts (level : Nat) : List Expr → List String
  | [] => []
  | e :: rest => text level e :: texts level rest

def argText (level : Nat) : Arg → String
  | .mk label? value => labelledText label? (text level value)

def argTexts (level : Nat) : List Arg → List String
  | [] => []
  | a :: rest => argText level a :: argTexts level rest

def argLines (level : Nat) : List Arg → List String
  | [] => []
  | a :: rest => (indent level ++ argText level a) :: argLines level rest

def segmentText (level : Nat) : Segment → String
  | .text s => escape s
  | .value e => "\\(" ++ text level e ++ ")"

def segmentsText (level : Nat) : List Segment → String
  | [] => ""
  | s :: rest => segmentText level s ++ segmentsText level rest

end

end Expr

/-! ## Statements -/

namespace Stmt

def itemLines (level : Nat) : List Expr → String
  | [] => ""
  | e :: rest => indent level ++ e.text level ++ ",\n" ++ itemLines level rest

mutual

/-- The lines of a statement at the given level. -/
def text (level : Nat) : Stmt → String
  | letArray name type items =>
    indent level ++ "let " ++ identifier name ++ ": " ++ type.text ++ " = "
      ++ (if items.isEmpty then "[]\n"
        else "[\n" ++ itemLines (level + 1) items ++ indent level ++ "]\n")
  | ret value => indent level ++ "return " ++ value.text level ++ "\n"
  | cond condition body =>
    indent level ++ "if " ++ condition.text level ++ " \x7b\n" ++ texts (level + 1) body
      ++ indent level ++ "\x7d\n"
  | guardElse condition body =>
    indent level ++ "guard " ++ condition.text level ++ " else \x7b\n" ++ texts (level + 1) body
      ++ indent level ++ "\x7d\n"

def texts (level : Nat) : List Stmt → String
  | [] => ""
  | s :: rest => s.text level ++ texts level rest

end

end Stmt

/-! ## Declarations -/

namespace Parameter

/-- The label and the name of a parameter, written once when they are equal. -/
def head (p : Parameter) : String :=
  match p.label? with
  | none => "_ " ++ identifier p.name
  | some label =>
    if label = p.name then identifier p.name
    else identifier label ++ " " ++ identifier p.name

def text (p : Parameter) : String :=
  match p.default? with
  | some value => p.head ++ ": " ++ p.type.text ++ " = " ++ value.text 0
  | none => p.head ++ ": " ++ p.type.text

end Parameter

/-- Some lines, each indented and after a common mark. -/
def markedLines (level : Nat) (mark : String) (lines : List String) : String :=
  String.join (lines.map fun line => indent level ++ mark ++ line ++ "\n")

namespace Function

/-- The type parameters of a function between angle brackets. -/
def typeParameterText (f : Function) : String :=
  if f.typeParameters.isEmpty then ""
  else "<" ++ commaList (f.typeParameters.map TypeParameter.text) ++ ">"

/-- The line that declares a function, up to its opening brace. -/
def signature (f : Function) : String :=
  match f.kind with
  | .free =>
    "public func " ++ identifier f.name ++ f.typeParameterText ++ "("
      ++ commaList (f.parameters.map Parameter.text) ++ ") -> " ++ f.returnType.text ++ " \x7b\n"
  | .staticVar => "static var " ++ identifier f.name ++ ": " ++ f.returnType.text ++ " \x7b\n"

def text (level : Nat) (f : Function) : String :=
  markedLines level "/// " f.doc ++ markedLines level "" f.attributes
    ++ indent level ++ f.signature ++ Stmt.texts (level + 1) f.body ++ indent level ++ "\x7d\n"

end Function

def EnumCase.text (c : EnumCase) : String :=
  "case " ++ identifier c.name ++ " = " ++ quote c.rawValue

def Enumeration.text (e : Enumeration) : String :=
  markedLines 0 "/// " e.doc ++ "public enum " ++ e.name ++ ": " ++ e.rawType.text ++ " \x7b\n"
    ++ markedLines 1 "" (e.cases.map EnumCase.text) ++ "\x7d\n"

/-- The lines of an extension, with an empty line between two members. -/
def Extension.text (e : Extension) : String :=
  "public extension " ++ e.extended ++ " \x7b\n"
    ++ "\n".intercalate (e.members.map (Function.text 1)) ++ "\x7d\n"

/-- The text of a file, with an empty line before each declaration. -/
def File.text (f : File) : String :=
  markedLines 0 "// " f.header ++ markedLines 0 "import " f.imports
    ++ String.join
      ((f.enums.map Enumeration.text ++ f.functions.map (Function.text 0)
        ++ f.extensions.map Extension.text).map fun block => "\n" ++ block)

end ShaderBindings.Swift
