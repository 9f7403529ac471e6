/-
# Joins of categories

The join of some categories is their least common abstraction: vectors and colors are short
vectors, these and the other numbers are numbers, and every category is a value.  A join that
mixes unrelated categories is a value all the same, but it is reported.
-/
import ShaderBindings.Category.Basic
import ShaderBindings.Diagnostic
import ShaderBindings.Fault

namespace ShaderBindings.Category

def distinct (cs : List Category) : List Category := cs.eraseDups

/-- The join of a list of categories.  The empty list has none. -/
def join? (cs : List Category) : Option Category :=
  match distinct cs with
  | [] => none
  | [c] => some c
  | cs =>
    if cs.all isSimd then some simd
    else if cs.all isNumeric then some numeric
    else some value

/-- The join is a mere widening: the categories differ, are not all numeric, and are not values
and base families with at least one value among them. -/
def isWidening (cs : List Category) : Bool :=
  match distinct cs with
  | [] => false
  | [_] => false
  | cs =>
    !(cs.all isNumeric || (cs.contains value && cs.all fun c => c = value || c.isBaseFamily))

def texts (cs : List Category) : List String := ((distinct cs).mergeSort atMost).map text

def joinReport (context : String) (cs : List Category) : Diagnostics :=
  if cs.isEmpty then [.internal context "join of an empty category set"]
  else if isWidening cs then [.unjoinableCategories context (texts cs)]
  else []

def join (context : String) (cs : List Category) : Reported (Except Fault Category) where
  value :=
    match join? cs with
    | some c => .ok c
    | none => .error (.emptyJoin context)
  diagnostics := joinReport context cs

end ShaderBindings.Category
