/-
# Digits and signs

Numbers in texts are written with decimal digits, and some of them behind a sign.
-/

namespace ShaderBindings.Decimal

def natOfDigits (digits : List Char) : Nat :=
  digits.foldl (fun n c => 10 * n + (c.toNat - '0'.toNat)) 0

/-- A sign and what follows it.  The flag says that the sign is a minus. -/
def signAndRest : List Char → Bool × List Char
  | '-' :: rest => (true, rest)
  | '+' :: rest => (false, rest)
  | rest => (false, rest)

end ShaderBindings.Decimal
