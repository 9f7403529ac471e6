/-
# JSON tokens

A JSON text is a sequence of marks, words, numerals and string literals, with blanks between
them.  A string literal that names half of a surrogate pair is a token all the same, since such
a literal is refused only where its text is used; its text is then `none`.
-/
import ShaderBindings.Json.Numeral
import ShaderBindings.Text.Search

namespace ShaderBindings.Json

inductive Token where
  | openArray
  | closeArray
  | openObject
  | closeObject
  | comma
  | colon
  | null
  | bool (b : Bool)
  | numeral (n : Numeral)
  | string (text : Option String)
deriving DecidableEq, Repr

namespace Token

/-! ## String literals -/

def hexValue? (c : Char) : Option Nat :=
  if '0' ≤ c && c ≤ '9' then some (c.toNat - '0'.toNat)
  else if 'a' ≤ c && c ≤ 'f' then some (c.toNat - 'a'.toNat + 10)
  else if 'A' ≤ c && c ≤ 'F' then some (c.toNat - 'A'.toNat + 10)
  else none

/-- The value of four digits in base sixteen. -/
def unit? (a b c d : Char) : Option Nat := do
  let a ← hexValue? a
  let b ← hexValue? b
  let c ← hexValue? c
  let d ← hexValue? d
  return ((a * 16 + b) * 16 + c) * 16 + d

def shortEscape? : Char → Option Char
  | '"' => some '"'
  | '\\' => some '\\'
  | '/' => some '/'
  | 'b' => some (Char.ofNat 8)
  | 'f' => some (Char.ofNat 12)
  | 'n' => some '\n'
  | 'r' => some '\r'
  | 't' => some '\t'
  | _ => none

/-- The pieces of a string literal: a code point, or a unit of 16 bits that was written as an
escape.  The text that is read starts after the opening quote, and the rest starts after the
closing one. -/
def pieces? : List Char → Option (List (Nat ⊕ Char) × List Char)
  | [] => none
  | '"' :: rest => some ([], rest)
  | '\\' :: 'u' :: a :: b :: c :: d :: rest =>
    match unit? a b c d, pieces? rest with
    | some unit, some (pieces, rest) => some (.inl unit :: pieces, rest)
    | _, _ => none
  | '\\' :: e :: rest =>
    match shortEscape? e, pieces? rest with
    | some c, some (pieces, rest) => some (.inr c :: pieces, rest)
    | _, _ => none
  | c :: rest =>
    if c.toNat < 32 || c = '\\' then none
    else (pieces? rest).map fun (pieces, rest) => (.inr c :: pieces, rest)

def isHigh (unit : Nat) : Bool := 0xD800 ≤ unit && unit < 0xDC00

def isLow (unit : Nat) : Bool := 0xDC00 ≤ unit && unit < 0xE000

/-- The characters of the pieces, when every unit is a character or one half of a pair. -/
def characters? : List (Nat ⊕ Char) → Option (List Char)
  | [] => some []
  | .inr c :: rest => (characters? rest).map (c :: ·)
  | .inl high :: .inl low :: rest =>
    if isHigh high && isLow low then
      (characters? rest).map
        (Char.ofNat (0x10000 + (high - 0xD800) * 0x400 + (low - 0xDC00)) :: ·)
    else if isHigh high || isLow high then none
    else (characters? (.inl low :: rest)).map (Char.ofNat high :: ·)
  | .inl unit :: rest =>
    if isHigh unit || isLow unit then none
    else (characters? rest).map (Char.ofNat unit :: ·)

theorem length_lt_of_pieces? {s rest : List Char} {pieces : List (Nat ⊕ Char)}
    (h : pieces? s = some (pieces, rest)) : rest.length < s.length := by
  fun_induction pieces? s generalizing pieces rest with
  | case1 => simp at h
  | case2 => simp_all
  | case3 _ _ _ _ _ _ _ _ hr _ ih =>
    simp only [Option.some.injEq, Prod.mk.injEq] at h
    have := ih hr
    simp only [List.length_cons, ← h.2]
    omega
  | case4 => simp at h
  | case5 _ _ _ _ _ _ hr _ ih =>
    simp only [Option.some.injEq, Prod.mk.injEq] at h
    have := ih hr
    simp only [List.length_cons, ← h.2]
    omega
  | case6 => simp at h
  | case7 => simp at h
  | case8 _ _ _ _ _ _ ih =>
    simp only [Option.map_eq_some_iff] at h
    obtain ⟨⟨p, r⟩, hr, hp⟩ := h
    simp only [Prod.mk.injEq] at hp
    have := ih hr
    simp only [List.length_cons, ← hp.2]
    omega

/-! ## Token sequences -/

def isSpace (c : Char) : Bool := c = ' ' || c = '\n' || c = '\r' || c = '\t'

def mark? : Char → Option Token
  | '[' => some .openArray
  | ']' => some .closeArray
  | '\x7b' => some .openObject
  | '\x7d' => some .closeObject
  | ',' => some .comma
  | ':' => some .colon
  | _ => none

/-- The token at the start of a text that starts with the character `c`, and what follows the
token. -/
def scan? (c : Char) (rest : List Char) : Option (Token × List Char) :=
  match mark? c with
  | some token => some (token, rest)
  | none =>
    match c with
    | '"' => (pieces? rest).map fun (pieces, rest) =>
        (.string ((characters? pieces).map String.ofList), rest)
    | 'n' => (Text.after? ['u', 'l', 'l'] rest).map fun rest => (.null, rest)
    | 't' => (Text.after? ['r', 'u', 'e'] rest).map fun rest => (.bool true, rest)
    | 'f' => (Text.after? ['a', 'l', 's', 'e'] rest).map fun rest => (.bool false, rest)
    | c => (Numeral.read? (c :: rest)).map fun (n, rest) => (.numeral n, rest)

theorem length_le_of_after? {mark s rest : List Char} (h : Text.after? mark s = some rest) :
    rest.length ≤ s.length := by
  unfold Text.after? at h
  split at h <;> simp_all
  rw [← h, List.length_drop]
  omega

theorem length_le_of_scan? {c : Char} {s rest : List Char} {token : Token}
    (h : scan? c s = some (token, rest)) : rest.length ≤ s.length := by
  unfold scan? at h
  split at h
  · simp_all
  · split at h
    · simp only [Option.map_eq_some_iff, Prod.mk.injEq] at h
      obtain ⟨⟨p, r⟩, hr, -, rfl⟩ := h
      exact Nat.le_of_lt (length_lt_of_pieces? hr)
    · simp only [Option.map_eq_some_iff, Prod.mk.injEq] at h
      obtain ⟨r, hr, -, rfl⟩ := h
      exact length_le_of_after? hr
    · simp only [Option.map_eq_some_iff, Prod.mk.injEq] at h
      obtain ⟨r, hr, -, rfl⟩ := h
      exact length_le_of_after? hr
    · simp only [Option.map_eq_some_iff, Prod.mk.injEq] at h
      obtain ⟨r, hr, -, rfl⟩ := h
      exact length_le_of_after? hr
    · simp only [Option.map_eq_some_iff, Prod.mk.injEq] at h
      obtain ⟨⟨n, r⟩, hr, -, rfl⟩ := h
      exact Nat.le_of_lt_succ (Numeral.length_lt_of_read? hr)

/-- The tokens of a text, when all of it falls into tokens and blanks. -/
def sequence? (text : List Char) : Option (List Token) :=
  match text with
  | [] => some []
  | c :: rest =>
    if isSpace c then sequence? rest
    else
      match _h : scan? c rest with
      | none => none
      | some (token, rest) => (sequence? rest).map (token :: ·)
termination_by text.length
decreasing_by
  · simp
  · have := length_le_of_scan? _h
    simp only [List.length_cons]
    omega

end Token

end ShaderBindings.Json
