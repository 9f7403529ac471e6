/-
# Decimal text of a double

How the digits of a double are laid out is a set of decisions: between which exponents the
number is written without an exponent, and which of two equally near decimals is taken.  A
`Layout` records them, and the two layouts that are written stand at the end of this file.  An
integral number keeps a `.0` in both.
-/
import ShaderBindings.Decimal.Shortest

namespace ShaderBindings.Decimal

/-- The decisions of one decimal format. -/
structure Layout where
  /-- What is taken of two equally near decimals. -/
  tie : Tie
  /-- The exponents of the leading digit that are written positionally; every exponent is when
  there are no bounds. -/
  positional : Option (Int × Int)
deriving DecidableEq, Repr

namespace Layout

/-- The digits of `d` with the point at its place and no exponent. -/
def positionalText (d : Scaled) : String :=
  let digits := (toString d.significand).toList
  if 0 ≤ d.exponent then
    String.ofList (digits ++ List.replicate d.exponent.toNat '0') ++ ".0"
  else
    let places := (-d.exponent).toNat
    if places < digits.length then
      let whole := digits.length - places
      String.ofList (digits.take whole ++ '.' :: digits.drop whole)
    else
      String.ofList ('0' :: '.' :: List.replicate (places - digits.length) '0' ++ digits)

/-- The digits of `d` with the point after the first one and an exponent that shows its
sign. -/
def scientificText (d : Scaled) (leading : Int) : String :=
  let point : List Char → List Char
    | [] => []
    | [c] => [c]
    | c :: rest => c :: '.' :: rest
  String.ofList (point (toString d.significand).toList)
    ++ (if 0 ≤ leading then "e+" else "e-") ++ toString leading.natAbs

def text (l : Layout) (d : Scaled) : String :=
  let leading : Int := ((toString d.significand).length : Int) - 1 + d.exponent
  match l.positional with
  | none => positionalText d
  | some (least, greatest) =>
    if least ≤ leading && leading ≤ greatest then positionalText d
    else scientificText d leading

def print (l : Layout) (x : Float) : String :=
  let (fraction, exponent) := fields x
  let sign := if signed x then "-" else ""
  if exponent = 2047 then
    if fraction = 0 then sign ++ "inf" else "NaN"
  else if exponent = 0 && fraction = 0 then sign ++ "0.0"
  else sign ++ l.text (shortest l.tie x)

end Layout

/-- A Swift float literal: no exponent, and a `.0` that keeps an integral number apart from an
integer literal. -/
def floatLiteral : Layout := ⟨.up, none⟩

/-- A number of a JSON text: positional between `1e-5` and `1e+16`, with a `.0` on integral
numbers. -/
def jsonNumber : Layout := ⟨.even, some (-5, 15)⟩

end ShaderBindings.Decimal
