/-
# Identifiers from schema names

A schema name is free text, usually in snake case.  An identifier keeps its ASCII letters and
digits: the name falls into words, the maximal runs of such characters, and every word after
the first begins with an uppercase letter.  A name without words becomes `_empty`, and an
underscore keeps an identifier from starting with a digit.
-/
import ShaderBindings.Text.Uppercase

namespace ShaderBindings.Text

def isWordChar (c : Char) : Bool := c.isAlphanum

/-- The maximal runs of ASCII letters and digits, in order. -/
def words (s : List Char) : List (List Char) :=
  (s.splitOnP fun c => !isWordChar c).filter fun word => !word.isEmpty

/-- The identifier made of the given words, without regard to its first character. -/
def joinWords : List (List Char) → List Char
  | [] => ['_', 'e', 'm', 'p', 't', 'y']
  | word :: rest => word ++ rest.flatMap capitalize

/-- An underscore before a text that starts with a digit. -/
def guardDigit : List Char → List Char
  | [] => []
  | c :: s => if c.isDigit then '_' :: c :: s else c :: s

def camel (s : List Char) : List Char := guardDigit (joinWords (words s))

end ShaderBindings.Text

namespace ShaderBindings

/-- The lower camel case identifier of a schema name, `geomcolorColor3` for
`geomcolor_color3`. -/
def lowerCamel (name : String) : String := String.ofList (Text.camel name.toList)

def capitalized (text : String) : String := String.ofList (Text.capitalize text.toList)

end ShaderBindings
