/-
# Swift words and literals

A name that is a reserved word is written between backquotes where an identifier stands.  The
content of a string literal escapes backslashes, quotes, line feeds, tabs and carriage returns,
so a literal ends where it should and starts no interpolation.
-/

namespace ShaderBindings.Swift

def reservedWords : List String :=
  ["as", "associatedtype", "break", "case", "catch", "class", "continue", "default", "defer",
    "deinit", "do", "else", "enum", "extension", "fallthrough", "false", "fileprivate", "for",
    "func", "guard", "if", "import", "in", "init", "inout", "internal", "is", "let", "nil",
    "operator", "private", "protocol", "public", "repeat", "rethrows", "return", "self", "Self",
    "static", "struct", "subscript", "super", "switch", "throw", "throws", "true", "try",
    "typealias", "var", "where", "while"]

/-- A name where an identifier stands. -/
def identifier (name : String) : String :=
  if reservedWords.contains name then "\x60" ++ name ++ "\x60" else name

def escapeChar : Char → List Char
  | '\\' => ['\\', '\\']
  | '"' => ['\\', '"']
  | '\n' => ['\\', 'n']
  | '\t' => ['\\', 't']
  | '\r' => ['\\', 'r']
  | c => [c]

def escape (s : String) : String := String.ofList (s.toList.flatMap escapeChar)

def quote (s : String) : String := "\"" ++ escape s ++ "\""

end ShaderBindings.Swift
