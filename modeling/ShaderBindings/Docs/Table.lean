/-
# The table of bindings

The documentation lists the bindings in a Markdown table: one row for each binding, with its
name, its kind and the nodes that it stands for.
-/
import ShaderBindings.Binding.Basic

namespace ShaderBindings.Docs

/-- A text as code. -/
def code (s : String) : String := "\x60" ++ s ++ "\x60"

def tableHead : String := "| Binding | Kind | Node types |\n| --- | --- | --- |\n"

def tableRow (b : Binding) : String :=
  "| " ++ code b.name ++ " | " ++ b.kind.text ++ " | " ++ ", ".intercalate (b.nodeIds.map code)
    ++ " |\n"

/-- The table of a module. -/
def table (m : BindingModule) : String := tableHead ++ String.join (m.bindings.map tableRow)

end ShaderBindings.Docs
