/-
# Dispatch

The meaning of a binding, without regard to the host language.  A call gives each parameter an
argument of some runtime type.  The guards are checked in order, and the first one that does not
hold ends the call.  Then the branches are tried in order, and the first one whose conditions
all hold is taken.  A call that fits no branch fails with a report on the types of the
parameters that the fallback names.
-/
import ShaderBindings.Binding.Basic

namespace ShaderBindings

/-- The runtime types of the arguments of a call, by the index of the parameter. -/
abbrev ArgumentTypes := Nat → String

/-- What becomes of a call. -/
inductive Dispatch where
  /-- A guard does not hold. -/
  | violated (guard : TypeCheck)
  /-- A branch is taken. -/
  | taken (branch : Branch)
  /-- No branch fits, and the types of some parameters are reported. -/
  | unmatched (reported : List Nat)
  /-- No branch fits, and the binding has nothing to report. -/
  | unanswered
deriving DecidableEq, Repr

def TypeCheck.holds (types : ArgumentTypes) (c : TypeCheck) : Bool := types c.param = c.dataType

def Branch.fits (types : ArgumentTypes) (b : Branch) : Bool :=
  b.conditions.all (TypeCheck.holds types)

namespace Binding

/-- The first guard that does not hold. -/
def violated? (b : Binding) (types : ArgumentTypes) : Option TypeCheck :=
  b.guards.find? fun guard => !guard.holds types

/-- The first branch whose conditions all hold. -/
def fitting? (b : Binding) (types : ArgumentTypes) : Option Branch :=
  b.branches.find? (Branch.fits types)

/-- What becomes of a call whose arguments have the given runtime types. -/
def dispatch (b : Binding) (types : ArgumentTypes) : Dispatch :=
  match b.violated? types with
  | some guard => .violated guard
  | none =>
    match b.fitting? types with
    | some branch => .taken branch
    | none =>
      match b.fallback? with
      | some reported => .unmatched reported
      | none => .unanswered

end Binding

end ShaderBindings
