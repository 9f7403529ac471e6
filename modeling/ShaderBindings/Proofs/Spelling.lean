/-
# The spelling of identifiers

The identifier of a text is made from its words.  Here it is spelled out character by character:
the letters and digits are kept in their order, and one that begins a word behind another word is
put in uppercase (`letters`).  `joinWords_words` relates the two descriptions; it goes along the
text and treats the word that is open and the later ones at once.

So two texts have one identifier exactly when they have the same letters (`lowerCamel_eq_iff`), and
an identifier is its own identifier exactly when there are letters (`lowerCamel_lowerCamel_iff`).
-/
import Mathlib.Data.List.Basic
import Mathlib.Data.String.Basic
import ShaderBindings.Text.Identifier

namespace ShaderBindings

namespace Text

/-- The letters and digits of a text.  `broken` tells that a word has ended in front of it. -/
def lettersFrom (broken : Bool) : List Char → List Char
  | [] => []
  | c :: rest =>
    if isWordChar c then (if broken then c.toUpper else c) :: lettersFrom false rest
    else lettersFrom true rest

/-- The letters and digits of a text.  Every word but the first begins with an uppercase letter. -/
def letters (s : List Char) : List Char := lettersFrom false (s.dropWhile fun c => !isWordChar c)

/-! ## Letters and digits -/

lemma toNat_lt_of_isWordChar {c : Char} (h : isWordChar c = true) : c.toNat < 128 := by
  -- the classes of characters, written out
  change ((decide (c.val ≥ 65 ∧ c.val ≤ 90) || (c.val ≥ 97 && c.val ≤ 122))
    || (c.val ≥ 48 && c.val ≤ 57)) = true at h
  simp only [Bool.or_eq_true, Bool.and_eq_true, decide_eq_true_eq, ge_iff_le,
    UInt32.le_iff_toNat_le] at h
  change (((65 ≤ c.toNat ∧ c.toNat ≤ 90) ∨ (97 ≤ c.toNat ∧ c.toNat ≤ 122))
    ∨ (48 ≤ c.toNat ∧ c.toNat ≤ 57)) at h
  omega

lemma isWordChar_toUpper {c : Char} (h : isWordChar c = true) : isWordChar c.toUpper = true := by
  have hall : ∀ n < 128, isWordChar (Char.ofNat n) = true →
      isWordChar (Char.ofNat n).toUpper = true := by decide +kernel
  have hc := hall c.toNat (toNat_lt_of_isWordChar h)
  rw [Char.ofNat_toNat] at hc
  exact hc h

/-- A word is capitalized by its first character alone. -/
lemma capitalize_cons {c : Char} (h : isWordChar c = true) (rest : List Char) :
    capitalize (c :: rest) = c.toUpper :: rest := by
  rw [capitalize, uppercase, if_pos (toNat_lt_of_isWordChar h), List.singleton_append]

lemma lettersFrom_cons_of_isWordChar {c : Char} (h : isWordChar c = true) (broken : Bool)
    (rest : List Char) :
    lettersFrom broken (c :: rest)
      = (if broken then c.toUpper else c) :: lettersFrom false rest := by
  rw [lettersFrom, if_pos h]

lemma lettersFrom_cons_of_not {c : Char} (h : isWordChar c = false) (broken : Bool)
    (rest : List Char) : lettersFrom broken (c :: rest) = lettersFrom true rest := by
  rw [lettersFrom, if_neg (by simp [h])]

/-- What stands in front of the first word is skipped. -/
lemma letters_cons_of_not {c : Char} (h : isWordChar c = false) (rest : List Char) :
    letters (c :: rest) = letters rest := by
  rw [letters, List.dropWhile_cons_of_pos (by simp [h])]
  rfl

lemma letters_cons_of_isWordChar {c : Char} (h : isWordChar c = true) (rest : List Char) :
    letters (c :: rest) = c :: lettersFrom false rest := by
  rw [letters, List.dropWhile_cons_of_neg (by simp [h]), lettersFrom_cons_of_isWordChar h]
  rfl

lemma isWordChar_of_mem_lettersFrom {s : List Char} {broken : Bool} {c : Char}
    (hc : c ∈ lettersFrom broken s) : isWordChar c = true := by
  induction s generalizing broken with
  | nil => exact absurd hc List.not_mem_nil
  | cons d rest ih =>
    rcases hd : isWordChar d with _ | _
    · rw [lettersFrom_cons_of_not hd] at hc
      exact ih hc
    · rw [lettersFrom_cons_of_isWordChar hd, List.mem_cons] at hc
      rcases hc with rfl | hc
      · cases broken with
        | false => exact hd
        | true => exact isWordChar_toUpper hd
      · exact ih hc

/-- A single word is spelled as it is. -/
lemma lettersFrom_false_of_forall {s : List Char} (h : ∀ c ∈ s, isWordChar c = true) :
    lettersFrom false s = s := by
  induction s with
  | nil => rfl
  | cons c rest ih =>
    rw [List.forall_mem_cons] at h
    rw [lettersFrom_cons_of_isWordChar h.1, ih h.2]
    rfl

/-! ## Words -/

/-- The word that is open and the words behind it are spelled one after the other. -/
lemma lettersFrom_eq (s : List Char) :
    ∃ word others, (s.splitOnP fun c => !isWordChar c) = word :: others ∧
      lettersFrom true s
        = ((word :: others).filter fun word => !word.isEmpty).flatMap capitalize ∧
      lettersFrom false s
        = word ++ (others.filter fun word => !word.isEmpty).flatMap capitalize := by
  induction s with
  | nil => exact ⟨[], [], rfl, rfl, rfl⟩
  | cons c rest ih =>
    obtain ⟨word, others, hsplit, hbroken, hopen⟩ := ih
    rw [List.splitOnP_cons_eq_if_modifyHead, hsplit]
    rcases hc : isWordChar c with _ | _
    -- the character ends the open word
    · refine ⟨[], word :: others, by simp, ?_, ?_⟩
      · rw [lettersFrom_cons_of_not hc, hbroken]
        rfl
      · rw [lettersFrom_cons_of_not hc, hbroken, List.nil_append]
    -- the character belongs to the open word
    · refine ⟨c :: word, others, by simp, ?_, ?_⟩
      · rw [lettersFrom_cons_of_isWordChar hc, hopen, List.filter_cons_of_pos (by simp),
          List.flatMap_cons, capitalize_cons hc]
        rfl
      · rw [lettersFrom_cons_of_isWordChar hc, hopen]
        rfl

/-- The identifier of a text is spelled by its letters, when it has some. -/
lemma joinWords_words (s : List Char) :
    joinWords (words s) = if letters s = [] then joinWords [] else letters s := by
  induction s with
  | nil => rfl
  | cons c rest ih =>
    rcases hc : isWordChar c with _ | _
    -- characters in front of the first word do not count
    · have hwords : words (c :: rest) = words rest := by
        rw [words, List.splitOnP_cons_eq_if_modifyHead, if_pos (by simp [hc])]
        rfl
      rw [hwords, letters_cons_of_not hc]
      exact ih
    -- the first word begins
    · obtain ⟨word, others, hsplit, -, hopen⟩ := lettersFrom_eq rest
      rw [letters_cons_of_isWordChar hc, if_neg (List.cons_ne_nil _ _), hopen, words,
        List.splitOnP_cons_eq_if_modifyHead, if_neg (by simp [hc]), hsplit, List.modifyHead_cons,
        List.filter_cons_of_pos (by simp), joinWords, List.cons_append]

lemma isWordChar_of_mem_letters {s : List Char} {c : Char} (hc : c ∈ letters s) :
    isWordChar c = true := isWordChar_of_mem_lettersFrom hc

/-! ## Identifiers -/

lemma camel_of_letters_ne_nil {s : List Char} (h : letters s ≠ []) :
    camel s = guardDigit (letters s) := by
  rw [camel, joinWords_words, if_neg h]

/-- Without letters there is one identifier for all texts. -/
lemma camel_of_letters_eq_nil {s : List Char} (h : letters s = []) : camel s = joinWords [] := by
  rw [camel, joinWords_words, if_pos h]
  rfl

/-- The underscore in front of a digit is no letter. -/
lemma letters_guardDigit {s : List Char} (h : ∀ c ∈ s, isWordChar c = true) :
    letters (guardDigit s) = s := by
  cases s with
  | nil => rfl
  | cons c rest =>
    rw [List.forall_mem_cons] at h
    have hword : letters (c :: rest) = c :: rest := by
      rw [letters_cons_of_isWordChar h.1, lettersFrom_false_of_forall h.2]
    rw [guardDigit]
    split_ifs
    · rw [letters_cons_of_not (by decide), hword]
    · exact hword

lemma eq_or_mem_of_mem_guardDigit {s : List Char} {c : Char} (h : c ∈ guardDigit s) :
    c = '_' ∨ c ∈ s := by
  cases s with
  | nil => exact absurd h List.not_mem_nil
  | cons d rest =>
    rw [guardDigit] at h
    split_ifs at h
    · exact List.mem_cons.1 h
    · exact Or.inr h

/-- No letters are spelled like the identifier of the texts without letters. -/
lemma guardDigit_ne {s : List Char} (h : ∀ c ∈ s, isWordChar c = true) :
    guardDigit s ≠ joinWords [] := by
  cases s with
  | nil => decide
  | cons c rest =>
    rw [guardDigit, joinWords]
    split_ifs with hdigit
    · intro heq
      obtain ⟨-, hrest⟩ := List.cons.inj heq
      obtain ⟨rfl, -⟩ := List.cons.inj hrest
      exact absurd hdigit (by decide)
    · intro heq
      obtain ⟨rfl, -⟩ := List.cons.inj heq
      exact absurd (h '_' List.mem_cons_self) (by decide)

lemma camel_eq_joinWords_nil_iff {s : List Char} : camel s = joinWords [] ↔ letters s = [] := by
  constructor
  · intro h
    by_contra hne
    rw [camel_of_letters_ne_nil hne] at h
    exact guardDigit_ne (fun _ => isWordChar_of_mem_letters) h
  · exact camel_of_letters_eq_nil

lemma letters_camel {s : List Char} (h : letters s ≠ []) : letters (camel s) = letters s := by
  rw [camel_of_letters_ne_nil h, letters_guardDigit fun _ => isWordChar_of_mem_letters]

/-- The identifier tells the letters. -/
lemma camel_eq_iff {s t : List Char} : camel s = camel t ↔ letters s = letters t := by
  constructor
  · intro h
    by_cases hs : letters s = []
    · rw [hs, camel_eq_joinWords_nil_iff.1 (h.symm.trans (camel_of_letters_eq_nil hs))]
    · have ht : letters t ≠ [] := by
        intro ht
        exact hs (camel_eq_joinWords_nil_iff.1 (h.trans (camel_of_letters_eq_nil ht)))
      rw [← letters_camel hs, h, letters_camel ht]
  · intro h
    rw [camel, camel, joinWords_words, joinWords_words, h]

lemma camel_camel_iff {s : List Char} : camel (camel s) = camel s ↔ letters s ≠ [] := by
  constructor
  · intro h hnil
    rw [camel_of_letters_eq_nil hnil] at h
    exact absurd h (by decide)
  · intro h
    exact camel_eq_iff.2 (letters_camel h)

end Text

/-- An identifier consists of letters, digits and underscores. -/
lemma isWordChar_of_mem_lowerCamel {s : String} {c : Char} (h : c ∈ (lowerCamel s).toList) :
    Text.isWordChar c = true ∨ c = '_' := by
  rw [lowerCamel, String.toList_ofList] at h
  by_cases hnil : Text.letters s.toList = []
  · rw [Text.camel_of_letters_eq_nil hnil] at h
    have hempty : (Text.joinWords []).all (fun d => Text.isWordChar d || d == '_') = true := by
      decide
    simpa using List.all_eq_true.1 hempty c h
  · rw [Text.camel_of_letters_ne_nil hnil] at h
    rcases Text.eq_or_mem_of_mem_guardDigit h with rfl | h
    · exact Or.inr rfl
    · exact Or.inl (Text.isWordChar_of_mem_letters h)

/-- Two names have one identifier when they have the same letters. -/
lemma lowerCamel_eq_iff {s t : String} :
    lowerCamel s = lowerCamel t ↔ Text.letters s.toList = Text.letters t.toList := by
  rw [lowerCamel, lowerCamel, String.ofList_inj, Text.camel_eq_iff]

/-- An identifier is its own identifier, when its name has letters. -/
lemma lowerCamel_lowerCamel_iff {s : String} :
    lowerCamel (lowerCamel s) = lowerCamel s ↔ Text.letters s.toList ≠ [] := by
  rw [lowerCamel, lowerCamel, String.toList_ofList, String.ofList_inj, Text.camel_camel_iff]

end ShaderBindings
