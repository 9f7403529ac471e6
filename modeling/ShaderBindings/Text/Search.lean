/-
# Finding a text inside another

Texts are lists of characters here, so a mark that is looked for is a list as well.  `after?`
takes a leading mark off, `before?` a trailing one, and `cutAt?` cuts a text at the first
occurrence of a mark.
-/

namespace ShaderBindings.Text

/-- What follows `mark` when the text starts with it. -/
def after? (mark s : List Char) : Option (List Char) :=
  if mark.isPrefixOf s then some (s.drop mark.length) else none

/-- What precedes `mark` when the text ends with it. -/
def before? (mark s : List Char) : Option (List Char) :=
  if mark.isSuffixOf s then some (s.take (s.length - mark.length)) else none

/-- The text before the first occurrence of `mark` and the text after that occurrence. -/
def cutAt? (mark : List Char) : List Char → Option (List Char × List Char)
  | [] => if mark.isEmpty then some ([], []) else none
  | c :: s =>
    match after? mark (c :: s) with
    | some rest => some ([], rest)
    | none => (cutAt? mark s).map fun cut => (c :: cut.1, cut.2)

def contains (mark s : List Char) : Bool := (cutAt? mark s).isSome

/-- The lines of a text, each with the line break that ends it.  A carriage return, a line
feed and the two in this order each count as one line break. -/
def lines : List Char → List (List Char)
  | [] => []
  | '\r' :: '\n' :: s => ['\r', '\n'] :: lines s
  | c :: s =>
    if c = '\n' || c = '\r' then [c] :: lines s
    else
      match lines s with
      | [] => [[c]]
      | line :: rest => (c :: line) :: rest

end ShaderBindings.Text
