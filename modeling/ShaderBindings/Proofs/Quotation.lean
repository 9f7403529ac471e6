/-
# String literals read back

A string literal is read from behind its opening quote.  A backslash gives the character behind it
another meaning, or opens a value in front of a parenthesis; a quote without a backslash closes the
literal, and no line break may come before (`readContent?`).

A character is printed as it is, or else as a backslash and a character that means it there
(`escapeChar_cases`).  So a printed literal is read as the text that it was made of, up to the quote
that was printed last: nothing in the text ends the literal earlier or opens a value in it
(`literals_read`).
-/
import Mathlib.Algebra.Group.Nat.Even
import Mathlib.Data.List.DropRight
import ShaderBindings.Swift.Printer

namespace ShaderBindings.Swift

/-! ## Reading -/

/-- The meaning of a character behind a backslash. -/
def unescape? : Char → Option Char
  | '\\' => some '\\'
  | '"' => some '"'
  | 'n' => some '\n'
  | 't' => some '\t'
  | 'r' => some '\r'
  | _ => none

/-- Where the content of a string literal stops. -/
inductive ContentEnd where
  /-- A quote closes the literal in front of the rest. -/
  | closed (rest : List Char)
  /-- The text of a value begins with the rest. -/
  | opened (rest : List Char)
deriving DecidableEq

/-- The meaning of the content of a string literal, and where the content stops.  There is none when
a line break or an unknown escape comes before. -/
def readContent? : List Char → Option (List Char × ContentEnd)
  | [] => none
  | '"' :: rest => some ([], .closed rest)
  | '\\' :: '(' :: rest => some ([], .opened rest)
  | '\\' :: c :: rest => do
    let meant ← unescape? c
    let (content, stop) ← readContent? rest
    some (meant :: content, stop)
  | c :: rest =>
    if c = '\n' ∨ c = '\r' then none
    else do
      let (content, stop) ← readContent? rest
      some (c :: content, stop)

/-- The text is a string literal that means `s`. -/
structure IsLiteralOf (text s : String) : Prop where
  /-- The literal is read up to its last quote, whatever follows. -/
  read : ∀ rest, ∃ content, text.toList ++ rest = '"' :: content ∧
    readContent? content = some (s.toList, .closed rest)
  /-- Line breaks and tabs are written by escapes only. -/
  escaped : ∀ c ∈ ['\n', '\r', '\t'], c ∉ text.toList
  /-- A parenthesis stands behind an even number of backslashes, so it opens no value. -/
  even_backslashes : ∀ front back, text.toList = front ++ '(' :: back →
    Even (front.rtakeWhile (· = '\\')).length

/-! ## The text of a character -/

/-- A character is printed as it is, or else behind a backslash as the one that means it there. -/
lemma escapeChar_cases (c : Char) :
    (c ∉ ['\\', '"', '\n', '\t', '\r'] ∧ escapeChar c = [c]) ∨
      ∃ d ∈ ['\\', '"', 'n', 't', 'r'], unescape? d = some c ∧ escapeChar c = ['\\', d] := by
  unfold escapeChar
  split
  case h_6 hbackslash hquote hfeed htab hreturn =>
    refine Or.inl ⟨?_, rfl⟩
    simp only [List.mem_cons, List.not_mem_nil, or_false, not_or]
    exact ⟨hbackslash, hquote, hfeed, htab, hreturn⟩
  all_goals exact Or.inr ⟨_, by decide, rfl, rfl⟩

lemma readContent?_escapeChar (c : Char) (rest : List Char) :
    readContent? (escapeChar c ++ rest)
      = (readContent? rest).map fun found => (c :: found.1, found.2) := by
  rcases escapeChar_cases c with ⟨hplain, htext⟩ | ⟨d, hd, hmeant, htext⟩
  · simp only [List.mem_cons, List.not_mem_nil, or_false, not_or] at hplain
    obtain ⟨hbackslash, hquote, hfeed, -, hreturn⟩ := hplain
    rw [htext, List.singleton_append, readContent?, if_neg (not_or.2 ⟨hfeed, hreturn⟩)]
    · rcases readContent? rest with _ | found
      · rfl
      · rfl
    · exact hquote
    · exact fun _ h => absurd h hbackslash
    · exact fun _ _ h => absurd h hbackslash
  · have hopen : d ≠ '(' := by
      rintro rfl
      exact absurd hd (by decide)
    rw [htext, List.cons_append, List.singleton_append, readContent?, hmeant]
    · rcases readContent? rest with _ | found
      · rfl
      · rfl
    · exact hopen

/-- A parenthesis stands in the text of a parenthesis only. -/
lemma eq_of_mem_escapeChar {c : Char} (h : '(' ∈ escapeChar c) : c = '(' := by
  rcases escapeChar_cases c with ⟨-, htext⟩ | ⟨d, hd, -, htext⟩
  · rw [htext, List.mem_singleton] at h
    exact h.symm
  · rw [htext, List.mem_pair] at h
    rcases h with h | rfl
    · exact absurd h (by decide)
    · exact absurd hd (by decide)

/-! ## The text of a string -/

lemma readContent?_flatMap_escapeChar (s rest : List Char) :
    readContent? (s.flatMap escapeChar ++ '"' :: rest) = some (s, .closed rest) := by
  induction s with
  | nil => rfl
  | cons c s ih =>
    rw [List.flatMap_cons, List.append_assoc, readContent?_escapeChar, ih]
    rfl

lemma notMem_flatMap_escapeChar {mark : Char} (hmark : mark ∈ ['\n', '\r', '\t'])
    (s : List Char) : mark ∉ s.flatMap escapeChar := by
  rw [List.mem_flatMap]
  rintro ⟨c, -, hc⟩
  rcases escapeChar_cases c with ⟨hplain, htext⟩ | ⟨d, hd, -, htext⟩
  · rw [htext, List.mem_singleton] at hc
    subst hc
    simp only [List.mem_cons, List.not_mem_nil, or_false] at hmark hplain
    tauto
  · have hletters : ∀ mark ∈ ['\n', '\r', '\t'], mark ∉ ['\\', '"', 'n', 't', 'r'] := by simp
    rw [htext, List.mem_pair] at hc
    rcases hc with rfl | rfl
    · exact hletters _ hmark List.mem_cons_self
    · exact hletters _ hmark hd

/-- The backslashes behind which a string goes on come in pairs. -/
lemma even_backslashes_flatMap_escapeChar (s : List Char) :
    Even (('"' :: s.flatMap escapeChar).rtakeWhile (· = '\\')).length := by
  induction s using List.reverseRecOn with
  | nil => decide
  | append_singleton s c ih =>
    rw [List.flatMap_append, List.flatMap_singleton, ← List.cons_append]
    rcases escapeChar_cases c with ⟨hplain, htext⟩ | ⟨d, hd, -, htext⟩
    · have hc : c ≠ '\\' := by
        rintro rfl
        exact hplain List.mem_cons_self
      rw [htext, List.rtakeWhile_concat_neg _ _ _ (by simpa using hc)]
      exact Even.zero
    · have hpair : ('"' :: s.flatMap escapeChar) ++ ['\\', d]
          = ('"' :: s.flatMap escapeChar) ++ ['\\'] ++ [d] := by simp
      rw [htext, hpair]
      by_cases hbackslash : d = '\\'
      -- two more backslashes
      · subst hbackslash
        rw [List.rtakeWhile_concat_pos _ _ _ (by decide),
          List.rtakeWhile_concat_pos _ _ _ (by decide), List.length_append, List.length_append]
        exact ih.add (by decide : Even 2)
      · rw [List.rtakeWhile_concat_neg _ _ _ (by simpa using hbackslash)]
        exact Even.zero

/-- What stands in front of a parenthesis is the text of the characters in front of it. -/
lemma exists_eq_flatMap_escapeChar {s front back : List Char}
    (h : s.flatMap escapeChar = front ++ '(' :: back) :
    ∃ t : List Char, front = t.flatMap escapeChar := by
  induction s generalizing front with
  | nil => exact absurd h (by simp)
  | cons c s ih =>
    rw [List.flatMap_cons] at h
    rcases List.append_eq_append_iff.1 h with ⟨more, hfront, hrest⟩ | ⟨more, hc, hrest⟩
    · obtain ⟨t, rfl⟩ := ih hrest
      exact ⟨c :: t, hfront⟩
    · rcases more with _ | ⟨d, more⟩
      · exact ⟨[c], by simpa using hc.symm⟩
      -- the parenthesis belongs to the text of the first character
      · obtain ⟨rfl, -⟩ := List.cons.inj hrest
        obtain rfl : c = '(' := eq_of_mem_escapeChar (by simp [hc])
        rcases front with _ | ⟨d, front⟩
        · exact ⟨[], rfl⟩
        · have htext : escapeChar '(' = ['('] := rfl
          rw [htext] at hc
          exact absurd (List.cons.inj hc).2 (by simp)

/-! ## Literals -/

lemma toList_escape (s : String) : (escape s).toList = s.toList.flatMap escapeChar :=
  String.toList_ofList

lemma toList_quote (s : String) :
    (quote s).toList = '"' :: (s.toList.flatMap escapeChar ++ ['"']) := by
  rw [quote, String.toList_append, String.toList_append, toList_escape]
  rfl

lemma isLiteralOf_quote (s : String) : IsLiteralOf (quote s) s where
  read := by
    intro rest
    refine ⟨s.toList.flatMap escapeChar ++ '"' :: rest, ?_, readContent?_flatMap_escapeChar _ _⟩
    rw [toList_quote, List.cons_append, List.append_assoc, List.singleton_append]
  escaped := by
    intro c hc hmem
    rw [toList_quote, List.mem_cons, List.mem_append, List.mem_singleton] at hmem
    have hquote : c ≠ '"' := by
      rintro rfl
      exact absurd hc (by decide)
    rcases hmem with h | h | h
    · exact hquote h
    · exact notMem_flatMap_escapeChar hc _ h
    · exact hquote h
  even_backslashes := by
    intro front back h
    rw [toList_quote] at h
    rcases front with _ | ⟨q, front⟩
    · exact absurd (List.cons.inj h).1 (by decide)
    · rw [List.cons_append] at h
      obtain ⟨rfl, hbehind⟩ := List.cons.inj h
      rcases List.append_eq_append_iff.1 hbehind with ⟨more, -, hrest⟩ | ⟨more, hcontent, hrest⟩
      -- nothing but the last quote stands behind the content
      · rcases more with _ | ⟨d, more⟩
        · exact absurd (List.cons.inj hrest).1 (by decide)
        · exact absurd (List.cons.inj hrest).2 (by simp)
      · rcases more with _ | ⟨d, more⟩
        · exact absurd (List.cons.inj hrest).1 (by decide)
        · obtain ⟨rfl, -⟩ := List.cons.inj hrest
          obtain ⟨t, rfl⟩ := exists_eq_flatMap_escapeChar hcontent
          exact even_backslashes_flatMap_escapeChar t

namespace Expr

lemma segmentsText_map_text (level : Nat) (parts : List String) :
    segmentsText level (parts.map .text) = escape (String.join parts) := by
  refine String.toList_injective ?_
  rw [toList_escape, String.toList_join]
  induction parts with
  | nil => rfl
  | cons part parts ih =>
    rw [List.map_cons, segmentsText, segmentText, String.toList_append, ih, toList_escape,
      List.flatMap_cons, List.flatMap_append]

/-- A literal in parts is printed as the literal of the whole. -/
lemma text_interpolated_map_text (level : Nat) (parts : List String) :
    (interpolated (parts.map .text)).text level = quote (String.join parts) := by
  rw [text, segmentsText_map_text, quote]

end Expr

/-- **String literals survive printing.**  The text of a string literal is read as the string, up to
its last quote and whatever follows, and so is a literal in parts without values, which means the
parts one after another.  The texts have no raw line break or tab and open no value. -/
theorem literals_read :
    (∀ s, IsLiteralOf (Constant.string s).text s) ∧
      ∀ level parts, IsLiteralOf ((Expr.interpolated (parts.map .text)).text level)
        (String.join parts) := by
  constructor
  · exact isLiteralOf_quote
  · intro level parts
    rw [Expr.text_interpolated_map_text]
    exact isLiteralOf_quote _

example : readContent? "a\\\\(b)\\\" c\" + d".toList
    = some ("a\\(b)\" c".toList, .closed " + d".toList) := by decide

end ShaderBindings.Swift
