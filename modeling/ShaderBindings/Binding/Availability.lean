/-
# Availability

An availability is free text such as `iOS 18.1`.  Two of them are compared by the numbers that
they contain, from first to last, and then as texts.  A binding whose members declare several
has the greatest of them.
-/
import ShaderBindings.Decimal.Digits

namespace ShaderBindings.Availability

/-- The numbers in a text, from first to last.  A run of digits that does not fit in 64 bits is
no number. -/
def versionKey (s : String) : List Nat :=
  (s.toList.splitOnP fun c => !c.isDigit).filterMap fun digits =>
    if digits.isEmpty then none
    else
      let n := Decimal.natOfDigits digits
      if n < UInt64.size then some n else none

/-- The first text is at most the second one, by their numbers and then as texts. -/
def atMost (a b : String) : Bool :=
  match compare (versionKey a) (versionKey b) with
  | .lt => true
  | .gt => false
  | .eq => a ≤ b

/-- The greatest of some texts. -/
def greatest? : List String → Option String
  | [] => none
  | a :: rest =>
    match greatest? rest with
    | none => some a
    | some b => if atMost a b then some b else some a

end ShaderBindings.Availability
