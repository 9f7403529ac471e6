/-
# Blank characters and trimming

A character is blank when it has the Unicode property White_Space.  The property holds of
twenty-five code points, so the whole of it stands here as ten closed ranges.  Trimming takes
the blank characters off one end of a text or off both.
-/

namespace ShaderBindings.Text

/-- The code points with the property White_Space, as closed ranges in increasing order. -/
def blankRanges : List (Nat × Nat) :=
  [(0x9, 0xD), (0x20, 0x20), (0x85, 0x85), (0xA0, 0xA0), (0x1680, 0x1680), (0x2000, 0x200A),
    (0x2028, 0x2029), (0x202F, 0x202F), (0x205F, 0x205F), (0x3000, 0x3000)]

/-- The character has the property White_Space. -/
def isBlank (c : Char) : Bool :=
  blankRanges.any fun range => range.1 ≤ c.toNat && c.toNat ≤ range.2

def trimStart (s : List Char) : List Char := s.dropWhile isBlank

def trimEnd (s : List Char) : List Char := (s.reverse.dropWhile isBlank).reverse

/-- The text without its leading and trailing blank characters. -/
def trim (s : List Char) : List Char := trimEnd (trimStart s)

end ShaderBindings.Text
