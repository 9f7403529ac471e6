/-
# Description tables

A description table gives prose to nodes by their names.  It is written as one JSON object
whose values are strings.
-/
import ShaderBindings.Json.Document

namespace ShaderBindings.Schema

/-- The descriptions of nodes, by node name. -/
abbrev Descriptions := Dictionary String

/-- The description table that a text describes.  A repeated name keeps its last
description. -/
def Descriptions.ofText? (text : String) : Option Descriptions := do
  match ← Json.Document.ofText? text with
  | .object members =>
    let entries ← members.mapM fun member => do
      match member with
      | (some key, .string (some value)) => some (key, value)
      | _ => none
    some (Dictionary.ofList entries)
  | _ => none

end ShaderBindings.Schema
