/-
# Sessions

A session is the state of one run: whether it is strict, the enumerations that it has
registered and the diagnostics that it has reported.  A run loads the nodes of a stage, groups
them into overload sets and makes one binding of each set.  A set without a binding is reported
and skipped, so that the remaining sets still report their problems.
-/
import ShaderBindings.Binding.Synthesis
import ShaderBindings.Node.Admission

namespace ShaderBindings

/-- The state of a run. -/
structure Session where
  /-- Overloads that no input tells apart are fatal. -/
  strict : Bool
  ledger : Ledger
deriving DecidableEq, Repr

namespace Session

def new (strict : Bool) : Session := ⟨strict, Ledger.empty⟩

def report (s : Session) (ds : Diagnostics) : Session := { s with ledger := s.ledger.report ds }

/-! ## Loading -/

/-- The prototypes of some prims, from first to last, with the ledger after them.  The first
prim that is refused ends the loading; what has been registered and reported before it
stays. -/
def loadPrims (descriptions : Schema.Descriptions) :
    List Schema.Prim → Ledger → Except InvalidMetadata (List Prototype) × Ledger
  | [], l => (.ok [], l)
  | prim :: rest, l =>
    match load prim descriptions l with
    | (.error e, l) => (.error e, l)
    | (.ok none, l) => loadPrims descriptions rest l
    | (.ok (some p), l) =>
      match loadPrims descriptions rest l with
      | (.ok ps, l) => (.ok (p :: ps), l)
      | (.error e, l) => (.error e, l)

def loadStage (s : Session) (stage : Schema.Stage) (descriptions : Schema.Descriptions) :
    Except InvalidMetadata (List Prototype) × Session :=
  let (prototypes, ledger) := loadPrims descriptions stage.nodes s.ledger
  (prototypes, { s with ledger := ledger })

def buildOverloads (s : Session) (prototypes : List Prototype) : OverloadSets × Session :=
  let grouped := group prototypes
  (grouped.value, s.report grouped.diagnostics)

/-! ## Bindings of all sets -/

def bindingOf (strict : Bool) (enums : EnumRegistry) (set : OverloadSet) :
    Reported (Except Fault Binding) :=
  let analyzed := set.analyze
  match analyzed.value with
  | .error fault => ⟨.error fault, analyzed.diagnostics⟩
  | .ok analysis =>
    let synthesized := set.synthesize analysis enums strict
    ⟨synthesized.value, analyzed.diagnostics ++ synthesized.diagnostics⟩

/-- The report on a set without a binding, unless a fatal diagnostic tells of it already. -/
def faultReport (set : OverloadSet) (fault : Fault) (ds : Diagnostics) : Diagnostics :=
  if ds.hasFatal then []
  else [.internal ("overload '" ++ set.baseName ++ "'") fault.display]

/-- The bindings after that of one more set.  A binding whose name is taken is reported and
dropped. -/
def addBinding (strict : Bool) (enums : EnumRegistry) (bindings : List Binding)
    (set : OverloadSet) : Reported (List Binding) :=
  let made := bindingOf strict enums set
  match made.value with
  | .error fault => ⟨bindings, made.diagnostics ++ faultReport set fault made.diagnostics⟩
  | .ok b =>
    match bindings.find? fun first => first.name = b.name with
    | some first =>
      ⟨bindings, made.diagnostics ++ [.duplicateBinding b.name first.baseName b.baseName]⟩
    | none => ⟨bindings ++ [b], made.diagnostics⟩

def addBindings (strict : Bool) (enums : EnumRegistry) (bindings : List Binding) :
    List OverloadSet → Reported (List Binding)
  | [] => ⟨bindings, []⟩
  | set :: rest =>
    let one := addBinding strict enums bindings set
    let all := addBindings strict enums one.value rest
    ⟨all.value, one.diagnostics ++ all.diagnostics⟩

/-- The bindings of all sets in the order of their names, with the session after them. -/
def synthesizeAll (s : Session) (sets : OverloadSets) : BindingModule × Session :=
  let made := addBindings s.strict s.ledger.enums [] sets.values
  (⟨s.ledger.enums.identities, made.value⟩, s.report made.diagnostics)

/-! ## Runs -/

/-- The bindings of a stage, with the session after the run. -/
def run (s : Session) (stage : Schema.Stage) (descriptions : Schema.Descriptions) :
    Except InvalidMetadata BindingModule × Session :=
  match s.loadStage stage descriptions with
  | (.error e, s) => (.error e, s)
  | (.ok prototypes, s) =>
    let (sets, s) := s.buildOverloads prototypes
    let (module, s) := s.synthesizeAll sets
    (.ok module, s)

end Session

end ShaderBindings
