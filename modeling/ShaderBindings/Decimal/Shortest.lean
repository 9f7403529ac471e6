/-
# The fewest digits that read back

A finite double is `m * 2 ^ q`.  The reals that round to it form an interval whose ends lie
halfway to the neighbouring doubles; the ends belong to it exactly when `m` is even.  The
shortest decimal of the double is sought on the grids `10 ^ e`, from coarse to fine: on each
grid only the two neighbours of the double itself can lie in the interval, the first grid with
a hit gives the fewest digits, and of two hits the nearer one is taken.  All of it is exact
arithmetic on natural numbers.
-/

namespace ShaderBindings.Decimal

/-- The decimal number `significand * 10 ^ exponent`. -/
structure Scaled where
  /-- The digits, read as a natural number. -/
  significand : Nat
  exponent : Int
deriving DecidableEq, Repr

/-- What is taken when two decimals of the same length are equally near. -/
inductive Tie where
  /-- The decimal with the even last digit. -/
  | even
  /-- The larger decimal. -/
  | up
deriving DecidableEq, Repr

/-- The reals that round to one positive double, as fractions over one denominator. -/
structure Interval where
  value : Nat
  low : Nat
  high : Nat
  scale : Nat
  /-- The ends belong to the interval. -/
  closed : Bool
deriving DecidableEq, Repr

namespace Interval

/-- The fraction `n / 1` lies in the interval. -/
def holds (i : Interval) (n : Nat) : Bool :=
  if i.closed then i.low ≤ n * i.scale && n * i.scale ≤ i.high
  else i.low < n * i.scale && n * i.scale < i.high

/-- The interval with all its fractions divided by `10 ^ e`. -/
def onGrid (i : Interval) (e : Int) : Interval :=
  if 0 ≤ e then { i with scale := i.scale * Nat.pow 10 e.toNat }
  else
    let p := Nat.pow 10 (-e).toNat
    { i with value := i.value * p, low := i.low * p, high := i.high * p }

/-- The nearer of the two integers `n` and `n + 1` around the value. -/
def nearer (i : Interval) (tie : Tie) (n : Nat) : Nat :=
  match compare (2 * i.value) ((2 * n + 1) * i.scale) with
  | .lt => n
  | .gt => n + 1
  | .eq =>
    match tie with
    | .up => n + 1
    | .even => if n % 2 = 0 then n else n + 1

/-- The integer of the interval that is nearest to its value, when there is one. -/
def nearest? (i : Interval) (tie : Tie) : Option Nat :=
  let n := i.value / i.scale
  match i.holds n && n != 0, i.holds (n + 1) with
  | true, true => some (i.nearer tie n)
  | true, false => some n
  | false, true => some (n + 1)
  | false, false => none

/-- An exponent of ten above the value and within a few steps of it. -/
def ceiling (i : Interval) : Int :=
  ((i.value.log2 : Int) - (i.scale.log2 : Int) + 1) * 30103 / 100000 + 2

end Interval

/-- The number of values of the fraction field of a double. -/
def fractions : Nat := 0x10000000000000

/-- The bits of a double without its sign: the fraction field and the exponent field. -/
def fields (x : Float) : Nat × Nat :=
  let bits := x.toBits.toNat
  (bits % fractions, bits / fractions % 0x800)

def signed (x : Float) : Bool := x.toBits.toNat / 0x8000000000000000 % 2 = 1

/-- The interval of the reals that round to a finite double other than zero, without regard to
its sign. -/
def interval (x : Float) : Interval :=
  let (fraction, exponent) := fields x
  let m := if exponent = 0 then fraction else fractions + fraction
  let q : Int := (if exponent = 0 then 1 else (exponent : Int)) - 1075
  let below := if fraction = 0 && exponent > 1 then 1 else 2
  let up := Nat.pow 2 (q - 2).toNat
  { value := 4 * m * up
    low := (4 * m - below) * up
    high := (4 * m + 2) * up
    scale := Nat.pow 2 (2 - q).toNat
    closed := m % 2 = 0 }

/-- The shortest decimal that reads back as a finite double other than zero, without regard to
its sign.  Seventeen digits always suffice, so a hit lies within the grids that are tried. -/
def shortest (tie : Tie) (x : Float) : Scaled :=
  let i := interval x
  let grids := (List.range 24).map fun (k : Nat) => i.ceiling - k
  (grids.findSome? fun e => ((i.onGrid e).nearest? tie).map fun n => Scaled.mk n e).getD ⟨0, 0⟩

end ShaderBindings.Decimal
