/-
# Overload sets

The prototypes whose names have one base form an overload set.  Grouping collects the sets by
base and checks them.  A set whose members differ in the number of inputs is reported and
dropped.  A set of several members that report the same runtime types at every input is
dissolved: each member becomes a set of its own under its full name, unless that name is taken.
-/
import ShaderBindings.Diagnostic
import ShaderBindings.Dictionary
import ShaderBindings.Node.Prototype
import ShaderBindings.Overload.Suffix

namespace ShaderBindings

structure OverloadMember where
  /-- The type suffix of its name. -/
  suffix? : Option String
  prototype : Prototype
deriving DecidableEq

/-- Prototypes that share one binding. -/
structure OverloadSet where
  baseName : String
  /-- The members in the order of the schema. -/
  members : List OverloadMember
deriving DecidableEq

namespace OverloadSet

def prototypes (s : OverloadSet) : List Prototype := s.members.map (·.prototype)

/-- The number of inputs of the first member. -/
def arity (s : OverloadSet) : Nat :=
  match s.members with
  | [] => 0
  | first :: _ => first.prototype.arity

/-- The set has exactly one member. -/
def isSingle (s : OverloadSet) : Bool := s.members.length = 1

/-- Two prototypes report the same runtime types at the inputs that both have. -/
def sameInputs (a b : Prototype) : Bool :=
  (a.inputs.zip b.inputs).all fun sockets => sockets.1.runtimeType = sockets.2.runtimeType

/-- Every member reports the runtime types of the first one. -/
def isIndistinguishable (s : OverloadSet) : Bool :=
  match s.prototypes with
  | [] => true
  | first :: rest => rest.all fun p => sameInputs p first

/-- The diagnostics for the members that have another number of inputs than the first one. -/
def arityMismatches (base : String) (s : OverloadSet) : Diagnostics :=
  (s.prototypes.filter fun p => p.arity != s.arity).map fun p =>
    .arityMismatch base p.id s.arity p.arity

end OverloadSet

/-- The overload sets of a run, by base name. -/
abbrev OverloadSets := Dictionary OverloadSet

namespace OverloadSets

def collectOne (sets : OverloadSets) (p : Prototype) : OverloadSets :=
  let split := splitSuffix p.name
  sets.alter split.1 fun found =>
    let set := found.getD ⟨split.1, []⟩
    { set with members := set.members ++ [⟨split.2, p⟩] }

/-- The sets of some prototypes by the bases of their names. -/
def collect (prototypes : List Prototype) : OverloadSets := prototypes.foldl collectOne []

/-- The sets whose members agree on the number of inputs, with a report on the others. -/
def dropMismatched (sets : OverloadSets) : Reported OverloadSets where
  value := sets.filter fun entry => (entry.2.arityMismatches entry.1).isEmpty
  diagnostics := sets.flatMap fun entry => entry.2.arityMismatches entry.1

/-- The set that stands alone for one member, under the full name of the prototype. -/
def single (p : Prototype) : OverloadSet := ⟨p.name, [⟨none, p⟩]⟩

/-- The sets after a member of a dissolved set.  The member is dropped with a report when its
full name is taken. -/
def addSingle (sets : OverloadSets) (p : Prototype) : Reported OverloadSets :=
  match sets.get? p.name with
  | some found =>
    ⟨sets, [.duplicateBinding p.name ((found.prototypes.head?.map (·.id)).getD "") p.id]⟩
  | none => ⟨sets.insert p.name (single p), []⟩

def addSingles (sets : OverloadSets) : List Prototype → Reported OverloadSets
  | [] => ⟨sets, []⟩
  | p :: rest =>
    let added := addSingle sets p
    let all := addSingles added.value rest
    ⟨all.value, added.diagnostics ++ all.diagnostics⟩

def dissolvable (sets : OverloadSets) : List String :=
  Dictionary.keys (sets.filter fun entry => !entry.2.isSingle && entry.2.isIndistinguishable)

def dissolveOne (sets : OverloadSets) (base : String) : Reported OverloadSets :=
  match sets.get? base with
  | some set => addSingles (sets.erase base) set.prototypes
  | none => ⟨sets, []⟩

def dissolveAll (sets : OverloadSets) : List String → Reported OverloadSets
  | [] => ⟨sets, []⟩
  | base :: rest =>
    let one := dissolveOne sets base
    let all := dissolveAll one.value rest
    ⟨all.value, one.diagnostics ++ all.diagnostics⟩

/-- The sets after all those that no input tells apart are dissolved. -/
def dissolve (sets : OverloadSets) : Reported OverloadSets := dissolveAll sets (dissolvable sets)

end OverloadSets

/-- The overload sets of some prototypes, with the problems of grouping. -/
def group (prototypes : List Prototype) : Reported OverloadSets :=
  let kept := OverloadSets.dropMismatched (OverloadSets.collect prototypes)
  let dissolved := OverloadSets.dissolve kept.value
  ⟨dissolved.value, kept.diagnostics ++ dissolved.diagnostics⟩

end ShaderBindings
