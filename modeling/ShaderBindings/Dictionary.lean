/-
# Dictionaries in key order

A dictionary is a list of entries whose keys increase strictly in the order of strings, that
is, by code point.  Listing the entries is then listing the keys in order, and two
dictionaries with the same entries are equal.
-/

namespace ShaderBindings

/-- A list of entries in increasing key order. -/
abbrev Dictionary (α : Type _) := List (String × α)

namespace Dictionary

variable {α β : Type _}

def keys (d : Dictionary α) : List String := d.map Prod.fst

def values (d : Dictionary α) : List α := d.map Prod.snd

def get? (d : Dictionary α) (key : String) : Option α := List.lookup key d

/-- The dictionary in which `key` holds what `f` makes of its former value, if it had one. -/
def alter (key : String) (f : Option α → α) : Dictionary α → Dictionary α
  | [] => [(key, f none)]
  | entry :: rest =>
    if key < entry.1 then (key, f none) :: entry :: rest
    else if key = entry.1 then (key, f (some entry.2)) :: rest
    else entry :: alter key f rest

def insert (d : Dictionary α) (key : String) (value : α) : Dictionary α :=
  d.alter key fun _ => value

def erase (d : Dictionary α) (key : String) : Dictionary α :=
  d.filter fun entry => entry.1 != key

/-- The dictionary of a list of entries; a repeated key keeps its last value. -/
def ofList (entries : List (String × α)) : Dictionary α :=
  entries.foldl (fun d entry => d.insert entry.1 entry.2) []

def Sorted (d : Dictionary α) : Prop := d.Pairwise fun a b => a.1 < b.1

end Dictionary

end ShaderBindings
