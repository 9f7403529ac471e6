/-
# Identifiers keep the letters of a name

An identifier holds the letters and digits of its name, each at the place that the ones in front of
it leave, and in uppercase when it begins a word behind another one (`Spells`).  Going along the
name, it is enough to remember whether a word has ended just now (`brokenAfter`), since the
separators in front of the first word are skipped.

With the underscore in front of a digit, and the one identifier of all names without letters and
digits, this says what the identifier of every name is (`lowerCamel_isIdentifierOf`).
-/
import ShaderBindings.Proofs.Spelling

namespace ShaderBindings

namespace Text

/-! ## Letters by their places -/

/-- A word stands in the text, and another one begins behind the text if a letter follows. -/
def isBetweenWords (front : List Char) : Bool :=
  front.any isWordChar && !front.getLast?.any isWordChar

/-- The text `t` holds the letters and digits of `s` in their order.  One that begins a word behind
another word is in uppercase, and the others are as they are. -/
structure Spells (s t : List Char) : Prop where
  length_eq : t.length = s.countP isWordChar
  getElem?_eq : ∀ front c back, s = front ++ c :: back → isWordChar c = true →
    t[front.countP isWordChar]? = some (if isBetweenWords front then c.toUpper else c)

/-- Whether a word has ended in front of what follows the text. -/
def brokenAfter (broken : Bool) : List Char → Bool
  | [] => broken
  | c :: rest => brokenAfter (!isWordChar c) rest

lemma lettersFrom_append (broken : Bool) (front back : List Char) :
    lettersFrom broken (front ++ back)
      = lettersFrom broken front ++ lettersFrom (brokenAfter broken front) back := by
  induction front generalizing broken with
  | nil => rfl
  | cons c front ih =>
    rw [List.cons_append, brokenAfter]
    rcases hc : isWordChar c with _ | _
    · rw [lettersFrom_cons_of_not hc, lettersFrom_cons_of_not hc, ih]
      rfl
    · rw [lettersFrom_cons_of_isWordChar hc, lettersFrom_cons_of_isWordChar hc, ih]
      rfl

lemma length_lettersFrom (broken : Bool) (s : List Char) :
    (lettersFrom broken s).length = s.countP isWordChar := by
  induction s generalizing broken with
  | nil => rfl
  | cons c s ih =>
    rcases hc : isWordChar c with _ | _
    · rw [lettersFrom_cons_of_not hc, List.countP_cons_of_neg (by simp [hc]), ih]
    · rw [lettersFrom_cons_of_isWordChar hc, List.countP_cons_of_pos hc, List.length_cons, ih]

/-- What is in front of the first word has no letters. -/
lemma countP_dropWhile (s : List Char) :
    (s.dropWhile fun c => !isWordChar c).countP isWordChar = s.countP isWordChar := by
  induction s with
  | nil => rfl
  | cons c s ih =>
    rcases hc : isWordChar c with _ | _
    · rw [List.dropWhile_cons_of_pos (by simp [hc]), List.countP_cons_of_neg (by simp [hc]), ih]
    · rw [List.dropWhile_cons_of_neg (by simp [hc])]

lemma brokenAfter_cons (broken : Bool) (c : Char) (rest : List Char) :
    brokenAfter broken (c :: rest) = !(c :: rest).getLast?.any isWordChar := by
  induction rest generalizing broken c with
  | nil => rfl
  | cons d rest ih =>
    rw [brokenAfter, ih, List.getLast?_cons_cons]

/-- Behind the separators in front, a word has ended when another one can begin. -/
lemma brokenAfter_dropWhile (front : List Char) :
    brokenAfter false (front.dropWhile fun c => !isWordChar c) = isBetweenWords front := by
  induction front with
  | nil => rfl
  | cons c front ih =>
    rcases hc : isWordChar c with _ | _
    · rw [List.dropWhile_cons_of_pos (by simp [hc]), ih]
      rcases front with _ | ⟨d, front⟩
      · simp [isBetweenWords, hc]
      · simp [isBetweenWords, hc, List.getLast?_cons_cons]
    · rw [List.dropWhile_cons_of_neg (by simp [hc]), brokenAfter_cons, isBetweenWords,
        List.any_cons, hc, Bool.true_or, Bool.true_and]

lemma spells_letters (s : List Char) : Spells s (letters s) where
  length_eq := by rw [letters, length_lettersFrom, countP_dropWhile]
  getElem?_eq := by
    rintro front c back rfl hc
    -- the separators that are skipped stand in front of the letter
    have hskip : ((front ++ c :: back).dropWhile fun c => !isWordChar c)
        = (front.dropWhile fun c => !isWordChar c) ++ c :: back := by
      rw [List.dropWhile_append, List.dropWhile_cons_of_neg (by simp [hc])]
      split_ifs with hempty
      · rw [List.isEmpty_iff.1 hempty, List.nil_append]
      · rfl
    have hplace : (lettersFrom false (front.dropWhile fun c => !isWordChar c)).length
        = front.countP isWordChar := by
      rw [length_lettersFrom, countP_dropWhile]
    rw [letters, hskip, lettersFrom_append, brokenAfter_dropWhile,
      List.getElem?_append_right (by rw [hplace]), hplace, Nat.sub_self,
      lettersFrom_cons_of_isWordChar hc]
    rfl

/-- The first letter stays as it is. -/
lemma head?_letters (s : List Char) : (letters s).head? = s.find? isWordChar := by
  induction s with
  | nil => rfl
  | cons c s ih =>
    rcases hc : isWordChar c with _ | _
    · rw [letters_cons_of_not hc, ih, List.find?_cons_of_neg (by simp [hc])]
    · rw [letters_cons_of_isWordChar hc, List.head?_cons, List.find?_cons_of_pos hc]

lemma letters_eq_nil_iff {s : List Char} : letters s = [] ↔ ∀ c ∈ s, isWordChar c = false := by
  rw [← List.length_eq_zero_iff, (spells_letters s).length_eq, List.countP_eq_zero]
  simp

/-! ## Identifiers -/

/-- The text behind its first underscore, if it begins with one. -/
def withoutUnderscore : List Char → List Char
  | '_' :: rest => rest
  | s => s

/-- What the identifier `t` of a name `s` is. -/
structure IsIdentifierOf (s t : List Char) : Prop where
  /-- It begins with a letter or an underscore and goes on with letters and digits. -/
  shape : ∃ c rest, t = c :: rest ∧ (c.isAlpha = true ∨ c = '_') ∧
    ∀ d ∈ rest, d.isAlphanum = true
  /-- The underscore is there when the first letter or digit of the name is a digit. -/
  guarded_iff : ∀ c, s.find? isWordChar = some c → (t.head? = some '_' ↔ c.isDigit = true)
  spelled : (∃ c ∈ s, isWordChar c = true) → Spells s (withoutUnderscore t)
  /-- Names without letters and digits have one identifier. -/
  empty : (∀ c ∈ s, isWordChar c = false) → t = "_empty".toList

lemma ne_underscore_of_isWordChar {c : Char} (h : isWordChar c = true) : c ≠ '_' := by
  rintro rfl
  exact absurd h (by decide)

lemma withoutUnderscore_cons {c : Char} (h : isWordChar c = true) (rest : List Char) :
    withoutUnderscore (c :: rest) = c :: rest := by
  rw [withoutUnderscore]
  exact fun _ heq => absurd (List.cons.inj heq).1 (ne_underscore_of_isWordChar h)

lemma isIdentifierOf_camel (s : List Char) : IsIdentifierOf s (camel s) := by
  rcases hletters : letters s with _ | ⟨first, rest⟩
  · have hnone := letters_eq_nil_iff.1 hletters
    rw [camel_of_letters_eq_nil hletters]
    constructor
    · exact ⟨'_', _, rfl, Or.inr rfl, List.all_eq_true.1 rfl⟩
    · intro c hc
      exact absurd (List.find?_some hc) (by simp [hnone c (List.mem_of_find?_eq_some hc)])
    · rintro ⟨c, hmem, hc⟩
      exact absurd hc (by simp [hnone c hmem])
    · exact fun _ => rfl
  · have hspells := spells_letters s
    have hword : ∀ c ∈ first :: rest, isWordChar c = true := by
      rw [← hletters]
      exact fun _ => isWordChar_of_mem_letters
    have hfind : s.find? isWordChar = some first := by
      rw [← head?_letters, hletters]
      rfl
    have hfirst := hword first List.mem_cons_self
    rw [hletters] at hspells
    rw [camel_of_letters_ne_nil (by simp [hletters]), hletters, guardDigit]
    split_ifs with hdigit
    -- the underscore keeps the identifier from starting with a digit
    · constructor
      · exact ⟨'_', first :: rest, rfl, Or.inr rfl, hword⟩
      · intro c hc
        obtain rfl := Option.some.inj (hfind.symm.trans hc)
        exact ⟨fun _ => hdigit, fun _ => rfl⟩
      · exact fun _ => hspells
      · intro hnone
        exact absurd (letters_eq_nil_iff.2 hnone) (by simp [hletters])
    · constructor
      · refine ⟨first, rest, rfl, Or.inl ?_, fun d hd => hword d (List.mem_cons_of_mem _ hd)⟩
        have halphanum : (first.isAlpha || first.isDigit) = true := hfirst
        simpa [hdigit] using halphanum
      · intro c hc
        obtain rfl := Option.some.inj (hfind.symm.trans hc)
        constructor
        · intro hhead
          exact absurd (Option.some.inj hhead) (ne_underscore_of_isWordChar hfirst)
        · exact fun h => absurd h hdigit
      · intro _
        rw [withoutUnderscore_cons hfirst]
        exact hspells
      · intro hnone
        exact absurd (letters_eq_nil_iff.2 hnone) (by simp [hletters])

end Text

/-- **An identifier keeps the letters and digits of its name.**  The identifier of a name is a
letter or an underscore with letters and digits behind it.  Without the underscore, which stands in
front of a digit only, it holds the letters and digits of the name in their order, and all that
changes is that a word behind another one begins in uppercase.  Names without letters and digits
have the identifier `_empty`. -/
theorem lowerCamel_isIdentifierOf (name : String) :
    Text.IsIdentifierOf name.toList (lowerCamel name).toList := by
  rw [lowerCamel, String.toList_ofList]
  exact Text.isIdentifierOf_camel _

example : lowerCamel "2d__noise-é_x" = "_2dNoiseX" := by decide

end ShaderBindings
