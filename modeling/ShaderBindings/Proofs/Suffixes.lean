/-
# The suffix of a name

A type suffix is an underscore and a text behind it that has no other underscore.  So the last
underscore of a name tells where a suffix can begin, and a name is a base and a suffix in one way at
most (`IsSplit.unique`).  Hence the order in which the suffixes are tried does not matter, and the
split of a name is told by the names and suffixes alone (`splitAmong_cases`).
-/
import Mathlib.Data.List.Basic
import Mathlib.Data.String.Basic
import ShaderBindings.Overload.Suffix

namespace ShaderBindings

/-! ## Bases and suffixes -/

/-- A name consists of a base that is not empty and one of the suffixes. -/
structure IsSplit (suffixes : List String) (name base suffix : String) : Prop where
  mem : suffix ∈ suffixes
  eq : name = base ++ suffix
  base_ne : base ≠ ""

/-- The base and the suffix of a name when the suffixes are tried in the given order. -/
def splitAmong (suffixes : List String) (name : String) : String × Option String :=
  (suffixes.findSome? fun suffix =>
    (baseBefore? name suffix).map fun base => (base, some suffix)).getD (name, none)

lemma splitAmong_typeSuffixes (name : String) : splitAmong typeSuffixes name = splitSuffix name :=
  rfl

variable {suffixes suffixes' : List String} {name base base' suffix suffix' : String}

lemma Text.before?_eq_some_iff {mark s front : List Char} :
    Text.before? mark s = some front ↔ s = front ++ mark := by
  rw [Text.before?]
  constructor
  · intro h
    split_ifs at h with hsuffix
    · obtain ⟨front', rfl⟩ := List.isSuffixOf_iff_suffix.1 hsuffix
      have hfront : front' = front := by simpa using h
      rw [hfront]
  · rintro rfl
    rw [if_pos (List.isSuffixOf_iff_suffix.2 (List.suffix_append _ _))]
    simp

lemma baseBefore?_eq_some_iff :
    baseBefore? name suffix = some base ↔ name = base ++ suffix ∧ base ≠ "" := by
  have hchars : name = base ++ suffix ↔ name.toList = base.toList ++ suffix.toList := by
    rw [← String.toList_append, String.toList_inj]
  rw [baseBefore?, hchars, ← Text.before?_eq_some_iff]
  rcases hfront : Text.before? suffix.toList name.toList with _ | front
  · simp
  rcases front with _ | ⟨c, front⟩
  · constructor
    · intro h
      exact absurd h (by simp)
    · rintro ⟨h, hne⟩
      exact absurd (String.toList_eq_nil_iff.1 (Option.some.inj h).symm) hne
  · constructor
    · intro h
      obtain rfl := Option.some.inj h
      exact ⟨by rw [String.toList_ofList], fun hempty => by
        simpa using congrArg String.toList hempty⟩
    · rintro ⟨h, -⟩
      show some (String.ofList (c :: front)) = some base
      rw [Option.some.inj h, String.ofList_toList]

/-- The split of a name is a base and a suffix of it when there are some, and else the name
itself. -/
lemma splitAmong_cases (suffixes : List String) (name : String) :
    (∃ base suffix, IsSplit suffixes name base suffix ∧
        splitAmong suffixes name = (base, some suffix)) ∨
      (∀ base suffix, ¬ IsSplit suffixes name base suffix) ∧
        splitAmong suffixes name = (name, none) := by
  rw [splitAmong]
  rcases hfound : suffixes.findSome? fun suffix =>
      (baseBefore? name suffix).map fun base => (base, some suffix) with _ | split
  · refine Or.inr ⟨fun base suffix h => ?_, rfl⟩
    have hnone := List.findSome?_eq_none_iff.1 hfound suffix h.mem
    rw [baseBefore?_eq_some_iff.2 ⟨h.eq, h.base_ne⟩] at hnone
    exact absurd hnone (by simp)
  · obtain ⟨suffix, hmem, hsplit⟩ := List.exists_of_findSome?_eq_some hfound
    obtain ⟨base, hbase, rfl⟩ := Option.map_eq_some_iff.1 hsplit
    obtain ⟨heq, hne⟩ := baseBefore?_eq_some_iff.1 hbase
    exact Or.inl ⟨base, suffix, ⟨hmem, heq, hne⟩, rfl⟩

/-- A base and a suffix make up the name. -/
lemma splitSuffix_append (name : String) :
    (splitSuffix name).1 ++ (splitSuffix name).2.getD "" = name := by
  rcases splitAmong_cases typeSuffixes name with ⟨base, suffix, hsplit, heq⟩ | ⟨-, heq⟩
  · rw [← splitAmong_typeSuffixes, heq]
    exact hsplit.eq.symm
  · rw [← splitAmong_typeSuffixes, heq]
    exact String.append_empty

/-! ## The last underscore -/

/-- The text is an underscore and a text behind it without underscores. -/
def IsTag (suffix : String) : Prop := ∃ word, suffix.toList = '_' :: word ∧ '_' ∉ word

lemma isTag_of_mem (h : suffix ∈ typeSuffixes) : IsTag suffix := by
  have htags : ∀ suffix ∈ typeSuffixes,
      suffix.toList.head? = some '_' ∧ '_' ∉ suffix.toList.tail := by decide
  obtain ⟨hhead, htail⟩ := htags suffix h
  exact ⟨suffix.toList.tail, List.eq_cons_of_mem_head? hhead, htail⟩

/-- The last underscore stands at one place. -/
lemma eq_of_append_cons_eq {front front' word word' : List Char} (hword : '_' ∉ word)
    (hword' : '_' ∉ word') (h : front ++ '_' :: word = front' ++ '_' :: word') :
    front = front' ∧ word = word' := by
  rcases List.append_eq_append_iff.1 h with ⟨more, hfront, hrest⟩ | ⟨more, hfront, hrest⟩
  · rcases more with _ | ⟨c, more⟩
    · exact ⟨by simpa using hfront.symm, (List.cons.inj hrest).2⟩
    · exact absurd ((List.cons.inj hrest).2 ▸ by simp) hword
  · rcases more with _ | ⟨c, more⟩
    · exact ⟨by simpa using hfront, (List.cons.inj hrest).2.symm⟩
    · exact absurd ((List.cons.inj hrest).2 ▸ by simp) hword'

lemma eq_of_append_tag_eq (hsuffix : IsTag suffix) (hsuffix' : IsTag suffix')
    (h : base ++ suffix = base' ++ suffix') : base = base' ∧ suffix = suffix' := by
  obtain ⟨word, htag, hword⟩ := hsuffix
  obtain ⟨word', htag', hword'⟩ := hsuffix'
  have hchars := congrArg String.toList h
  rw [String.toList_append, String.toList_append, htag, htag'] at hchars
  obtain ⟨hbase, rfl⟩ := eq_of_append_cons_eq hword hword' hchars
  exact ⟨String.toList_injective hbase, String.toList_injective (htag.trans htag'.symm)⟩

/-- **A name is a base and a type suffix in one way at most.** -/
lemma IsSplit.unique (h : IsSplit typeSuffixes name base suffix)
    (h' : IsSplit typeSuffixes name base' suffix') : base = base' ∧ suffix = suffix' :=
  eq_of_append_tag_eq (isTag_of_mem h.mem) (isTag_of_mem h'.mem) (h.eq.symm.trans h'.eq)

/-! ## The split of a name -/

lemma splitSuffix_eq_some_iff :
    splitSuffix name = (base, some suffix) ↔ IsSplit typeSuffixes name base suffix := by
  rw [← splitAmong_typeSuffixes]
  rcases splitAmong_cases typeSuffixes name with ⟨base', suffix', hsplit, heq⟩ | ⟨hnone, heq⟩
  · rw [heq]
    constructor
    · intro h
      obtain ⟨rfl, hsuffix⟩ := Prod.mk.inj h
      obtain rfl := Option.some.inj hsuffix
      exact hsplit
    · intro h
      obtain ⟨rfl, rfl⟩ := hsplit.unique h
      rfl
  · rw [heq]
    exact ⟨fun h => absurd h (by simp), fun h => absurd h (hnone base suffix)⟩

lemma splitSuffix_eq_none_iff :
    splitSuffix name = (name, none) ↔ ∀ base suffix, ¬ IsSplit typeSuffixes name base suffix := by
  rw [← splitAmong_typeSuffixes]
  rcases splitAmong_cases typeSuffixes name with ⟨base, suffix, hsplit, heq⟩ | ⟨hnone, heq⟩
  · rw [heq]
    exact ⟨fun h => absurd h (by simp), fun h => absurd hsplit (h base suffix)⟩
  · exact ⟨fun _ => hnone, fun _ => heq⟩

/-- The order in which the suffixes are tried does not matter. -/
lemma splitAmong_of_perm (h : suffixes.Perm typeSuffixes) (name : String) :
    splitAmong suffixes name = splitSuffix name := by
  rcases splitAmong_cases suffixes name with ⟨base, suffix, hsplit, heq⟩ | ⟨hnone, heq⟩
  · rw [heq, eq_comm, splitSuffix_eq_some_iff]
    exact ⟨h.subset hsplit.mem, hsplit.eq, hsplit.base_ne⟩
  · rw [heq, eq_comm, splitSuffix_eq_none_iff]
    intro base suffix hsplit
    exact hnone base suffix ⟨h.symm.subset hsplit.mem, hsplit.eq, hsplit.base_ne⟩

/-- What the split of a name tells. -/
structure SplitsUniquely (name : String) : Prop where
  eq_some_iff : ∀ base suffix,
    splitSuffix name = (base, some suffix) ↔ IsSplit typeSuffixes name base suffix
  unique : ∀ base suffix base' suffix', IsSplit typeSuffixes name base suffix →
    IsSplit typeSuffixes name base' suffix' → base = base' ∧ suffix = suffix'
  /-- A name without a suffix is its own base. -/
  eq_none_iff :
    splitSuffix name = (name, none) ↔ ∀ base suffix, ¬ IsSplit typeSuffixes name base suffix
  /-- Trying the suffixes in another order gives the same split. -/
  reordered : ∀ suffixes : List String, suffixes.Perm typeSuffixes →
    splitAmong suffixes name = splitSuffix name
  rebuilt : (splitSuffix name).1 ++ (splitSuffix name).2.getD "" = name

/-- **The split of a name is the only one.**  A name is split into a base that is not empty and a
type suffix exactly when it consists of these two, which it does in one way at most, and stays whole
when it does in no way.  The order of the suffixes does not matter, and the parts make up the
name. -/
theorem splitSuffix_splitsUniquely (name : String) : SplitsUniquely name where
  eq_some_iff := fun _ _ => splitSuffix_eq_some_iff
  unique := fun _ _ _ _ h h' => h.unique h'
  eq_none_iff := splitSuffix_eq_none_iff
  reordered := fun _ h => splitAmong_of_perm h name
  rebuilt := splitSuffix_append name

example : splitSuffix "mix_color3FA" = ("mix", some "_color3FA") := by decide

example : splitSuffix "_float" = ("_float", none) := by decide

end ShaderBindings
