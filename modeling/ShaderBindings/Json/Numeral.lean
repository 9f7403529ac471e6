/-
# JSON numerals

A numeral is the text of a JSON number, split into its parts.  Its value is an integer when it
has neither a fraction nor an exponent and fits in 64 bits.  Any other value is a double: the
leading digits that fit in 64 bits form the significand, which is rounded to a double and then
multiplied or divided by powers of ten, each step rounded to nearest.  A numeral beyond the
largest double has no value.
-/
import ShaderBindings.Json.Basic
import ShaderBindings.Decimal.Digits

namespace ShaderBindings.Json

structure Numeral where
  negative : Bool
  /-- The digits before the point. -/
  whole : List Char
  /-- The digits after the point, when there is one. -/
  fraction : Option (List Char)
  /-- The sign and the digits after the exponent mark, when there is one.  The flag says that
  the sign is a minus. -/
  exponent : Option (Bool × List Char)
deriving DecidableEq, Repr

namespace Numeral

/-! ## Shape -/

/-- A point and the digits after it.  A point without digits is refused. -/
def readFraction? : List Char → Option (Option (List Char) × List Char)
  | '.' :: rest =>
    let digits := rest.takeWhile Char.isDigit
    if digits.isEmpty then none else some (some digits, rest.dropWhile Char.isDigit)
  | rest => some (none, rest)

/-- An exponent mark with its sign and digits.  A mark without digits is refused. -/
def readExponent? : List Char → Option (Option (Bool × List Char) × List Char)
  | [] => some (none, [])
  | c :: rest =>
    if c = 'e' || c = 'E' then
      let signed := Decimal.signAndRest rest
      let digits := signed.2.takeWhile Char.isDigit
      if digits.isEmpty then none
      else some (some (signed.1, digits), signed.2.dropWhile Char.isDigit)
    else some (none, c :: rest)

/-- The digits before the point do not start with a zero unless it is the only one. -/
def isWhole : List Char → Bool
  | [] => false
  | ['0'] => true
  | c :: _ => c != '0'

/-- A minus sign and what follows it.  The flag says that there is one. -/
def minusAndRest : List Char → Bool × List Char
  | '-' :: rest => (true, rest)
  | rest => (false, rest)

/-- The numeral at the start of a text, and what follows it. -/
def read? (text : List Char) : Option (Numeral × List Char) :=
  let signed := minusAndRest text
  let whole := signed.2.takeWhile Char.isDigit
  if isWhole whole then do
    let (fraction, rest) ← readFraction? (signed.2.dropWhile Char.isDigit)
    let (exponent, rest) ← readExponent? rest
    some (⟨signed.1, whole, fraction, exponent⟩, rest)
  else none

theorem length_dropWhile_lt {p : Char → Bool} {s : List Char}
    (h : s.takeWhile p ≠ []) : (s.dropWhile p).length < s.length := by
  have hs : (s.takeWhile p).length + (s.dropWhile p).length = s.length := by
    rw [← List.length_append, List.takeWhile_append_dropWhile]
  have := List.length_pos_iff.2 h
  omega

theorem length_le_of_readFraction? {s rest : List Char} {fraction : Option (List Char)}
    (h : readFraction? s = some (fraction, rest)) : rest.length ≤ s.length := by
  unfold readFraction? at h
  split at h
  · rename_i t
    dsimp only at h
    split at h
    · simp at h
    · simp only [Option.some.injEq, Prod.mk.injEq] at h
      have := (List.dropWhile_sublist (l := t) Char.isDigit).length_le
      simp only [List.length_cons, ← h.2]
      omega
  · simp_all

theorem length_le_of_readExponent? {s rest : List Char} {exponent : Option (Bool × List Char)}
    (h : readExponent? s = some (exponent, rest)) : rest.length ≤ s.length := by
  unfold readExponent? at h
  split at h
  · simp_all
  · rename_i c t
    have hsign : (Decimal.signAndRest t).2.length ≤ t.length := by
      unfold Decimal.signAndRest
      split <;> simp
    split at h
    · dsimp only at h
      split at h
      · simp at h
      · simp only [Option.some.injEq, Prod.mk.injEq] at h
        have := (List.dropWhile_sublist (l := (Decimal.signAndRest t).2) Char.isDigit).length_le
        simp only [List.length_cons, ← h.2]
        omega
    · simp_all

theorem length_lt_of_read? {s rest : List Char} {n : Numeral}
    (h : read? s = some (n, rest)) : rest.length < s.length := by
  have hsign : (minusAndRest s).2.length ≤ s.length := by
    unfold minusAndRest
    split <;> simp
  unfold read? at h
  dsimp only at h
  split at h
  · rename_i hw
    have hne : (minusAndRest s).2.takeWhile Char.isDigit ≠ [] := by
      intro hnil
      simp [hnil, isWhole] at hw
    have hdrop := length_dropWhile_lt hne
    simp only [Option.bind_eq_bind, Option.bind_eq_some_iff] at h
    obtain ⟨⟨fraction, t⟩, hf, ⟨exponent, u⟩, he, hu⟩ := h
    have hfraction := length_le_of_readFraction? hf
    have hexponent := length_le_of_readExponent? he
    dsimp only at hexponent
    simp only [Option.some.injEq, Prod.mk.injEq] at hu
    rw [← hu.2]
    omega
  · simp at h

/-! ## Value -/

/-- The significand extended by digits while it fits in 64 bits, with the number of digits that
are left over. -/
def extend (significand : Nat) : List Char → Nat × Nat
  | [] => (significand, 0)
  | c :: rest =>
    let next := 10 * significand + (c.toNat - '0'.toNat)
    if next < UInt64.size then extend next rest else (significand, rest.length + 1)

def powerOfTen (n : Nat) : Float := Float.ofScientific 1 false n

/-- The double `x / 10 ^ n`, divided in steps of at most `10 ^ 308`. -/
def shiftDown (x : Float) (n : Nat) : Float :=
  if n ≤ 308 then x / powerOfTen n
  else if x == Float.ofNat 0 then x
  else shiftDown (x / powerOfTen 308) (n - 308)
termination_by n

/-- The double `x * 10 ^ n`, unless it exceeds every finite double. -/
def shiftUp? (x : Float) (n : Nat) : Option Float :=
  if n ≤ 308 then
    let y := x * powerOfTen n
    if y.isInf then none else some y
  else if x == Float.ofNat 0 then some x
  else none

def scale? (significand : Nat) (exponent : Int) : Option Float :=
  if 0 ≤ exponent then shiftUp? (Float.ofNat significand) exponent.toNat
  else some (shiftDown (Float.ofNat significand) (-exponent).toNat)

/-- The greatest exponent that is taken as it stands. -/
def exponentBound : Nat := 0x7FFFFFFF

/-- The double of a numeral without its sign.  An exponent out of bounds gives zero when it is
negative or the significand is zero, and no value otherwise. -/
def magnitude? (n : Numeral) : Option Float :=
  let (significand, spare) := extend 0 n.whole
  let fraction := n.fraction.getD []
  let (significand, ignored) := extend significand fraction
  let start : Int := (spare : Int) - ((fraction.length : Int) - (ignored : Int))
  match n.exponent with
  | none => scale? significand start
  | some (negative, digits) =>
    let exponent := Decimal.natOfDigits digits
    if exponentBound < exponent then
      if significand = 0 || negative then some (Float.ofNat 0) else none
    else
      let exponent : Int := if negative then -exponent else exponent
      scale? significand (max (-0x80000000) (min 0x7FFFFFFF (start + exponent)))

/-- The integer of a numeral without fraction and exponent, when it fits in 64 bits.  Minus
zero is left to the doubles. -/
def integer? (n : Numeral) : Option Int :=
  match n.fraction, n.exponent with
  | none, none =>
    let magnitude := Decimal.natOfDigits n.whole
    if n.negative then
      if 0 < magnitude && magnitude ≤ 0x8000000000000000 then some (-magnitude) else none
    else if magnitude < UInt64.size then some magnitude else none
  | _, _ => none

def value? (n : Numeral) : Option Number :=
  match n.integer? with
  | some i => some (.integer i)
  | none => n.magnitude?.map fun x => .real (if n.negative then -x else x)

end Numeral

end ShaderBindings.Json
