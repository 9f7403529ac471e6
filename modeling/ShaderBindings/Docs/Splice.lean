/-
# Splicing a table into a document

A document holds the table between two anchors.  Splicing replaces what stands between the
first begin anchor and the first end anchor after it, and keeps the rest of the document as it
is.  A document without these anchors, or with a second begin anchor after them, is refused.
-/
import ShaderBindings.Text.Search

namespace ShaderBindings.Docs

def beginAnchor : List Char := "<!-- BEGIN OPGEN TABLE -->".toList

def endAnchor : List Char := "<!-- END OPGEN TABLE -->".toList

/-- The reason why a document is refused. -/
inductive AnchorDefect where
  | missingBegin
  | missingEnd
  | endBeforeBegin
  | repeatedBegin
deriving DecidableEq, Repr

def AnchorDefect.message : AnchorDefect → String
  | missingBegin => "missing begin anchor"
  | missingEnd => "missing end anchor"
  | endBeforeBegin => "end anchor precedes begin anchor"
  | repeatedBegin => "more than one begin anchor"

def terminated (s : List Char) : List Char :=
  if s.getLast? = some '\n' then s else s ++ ['\n']

/-- The characters of a document around the place of the table: what precedes the begin anchor,
and what follows the end anchor. -/
def surroundings (document : List Char) : Except AnchorDefect (List Char × List Char) :=
  match Text.cutAt? beginAnchor document with
  | none => .error .missingBegin
  | some (before, rest) =>
    match Text.cutAt? endAnchor rest with
    | none =>
      if Text.contains endAnchor document then .error .endBeforeBegin else .error .missingEnd
    | some (_, after) =>
      if Text.contains beginAnchor after then .error .repeatedBegin else .ok (before, after)

def spliceChars (document table : List Char) : Except AnchorDefect (List Char) :=
  (surroundings document).map fun (before, after) =>
    before ++ beginAnchor ++ '\n' :: terminated table ++ endAnchor ++ after

/-- The document with the table between its anchors. -/
def splice (document table : String) : Except AnchorDefect String :=
  (spliceChars document.toList table.toList).map String.ofList

end ShaderBindings.Docs
