/-
# Descriptions of nodes

A description loses the blanks around it and one remark in parentheses at its end.  The remark
starts at the parenthesis that matches the last character.
-/
import ShaderBindings.Text.Blank

namespace ShaderBindings.Text

/-- Reads a text backwards, from inside `depth` open remarks, up to the parenthesis that opens
the outermost one, and gives what stands before it, still backwards. -/
def beforeRemark? (depth : Nat) : List Char → Option (List Char)
  | [] => none
  | ')' :: rest => beforeRemark? (depth + 1) rest
  | '(' :: rest => if depth ≤ 1 then some rest else beforeRemark? (depth - 1) rest
  | _ :: rest => beforeRemark? depth rest

/-- A text without the remark in parentheses at its end and the blanks before the remark. -/
def dropRemark (s : List Char) : List Char :=
  match s.reverse with
  | ')' :: rest =>
    match beforeRemark? 1 rest with
    | some before => trimEnd before.reverse
    | none => s
  | _ => s

end ShaderBindings.Text

namespace ShaderBindings

/-- The description without surrounding blanks and without a trailing remark.  Nothing may be
left of it. -/
def cleanDescription? (text : String) : Option String :=
  match Text.dropRemark (Text.trim text.toList) with
  | [] => none
  | s => some (String.ofList s)

end ShaderBindings
