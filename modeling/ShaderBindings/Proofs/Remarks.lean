/-
# Remarks at the end of descriptions

A remark is a pair of parentheses at the end of a text with a balanced text between them.  The scan
that looks for it goes backwards and counts the parentheses that are still to be opened.  Over a
balanced text the count comes back to where it was (`beforeRemark?_append`), so the scan stops at
the parenthesis that opens the remark.  When it stops at all, then what it has passed leaves as many
parentheses open as it counts (`exists_opens`), so that it stops at no other place.

Hence a text has at most one remark, and cleaning takes off exactly this one
(`cleanDescription?_isCleaned`).
-/
import Mathlib.Data.List.Basic
import ShaderBindings.Node.Prose

namespace ShaderBindings.Text

/-! ## Balanced texts -/

/-- Every parenthesis in the text has its partner. -/
inductive Balanced : List Char → Prop
  | nil : Balanced []
  | plain {c : Char} {s : List Char} : c ≠ '(' → c ≠ ')' → Balanced s → Balanced (c :: s)
  | parens {m s : List Char} : Balanced m → Balanced s → Balanced ('(' :: (m ++ ')' :: s))

/-- The text `t` ends in a remark `m`, and `p` stands before it. -/
structure HasRemark (t p m : List Char) : Prop where
  balanced : Balanced m
  eq : t = p ++ '(' :: (m ++ [')'])

/-- All parentheses are closed in the text but for `depth` that are open at its end. -/
inductive Opens : Nat → List Char → Prop
  | balanced {s : List Char} : Balanced s → Opens 0 s
  | succ {depth : Nat} {s m : List Char} : Opens depth s → Balanced m →
      Opens (depth + 1) (s ++ '(' :: m)

variable {s t p m : List Char} {c : Char} {depth : Nat}

lemma Balanced.append (hs : Balanced s) (ht : Balanced t) : Balanced (s ++ t) := by
  induction hs with
  | nil => exact ht
  | plain hopen hclose _ ih => exact .plain hopen hclose ih
  | parens hm _ _ ih =>
    rw [List.cons_append, List.append_assoc, List.cons_append]
    exact .parens hm ih

lemma Opens.append (hs : Opens depth s) (ht : Balanced t) : Opens depth (s ++ t) := by
  cases hs with
  | balanced hs => exact .balanced (hs.append ht)
  | succ hs hm =>
    rw [List.append_assoc, List.cons_append]
    exact .succ hs (hm.append ht)

/-- A closing parenthesis closes the last one that is open. -/
lemma Opens.close (hs : Opens (depth + 1) s) : Opens depth (s ++ [')']) := by
  cases hs with
  | succ hs hm =>
    rw [List.append_assoc, List.cons_append]
    exact hs.append (.parens hm .nil)

/-! ## The scan -/

/-- The scan passes a balanced text. -/
lemma beforeRemark?_append (hm : Balanced m) (rest : List Char) :
    beforeRemark? (depth + 1) (m.reverse ++ rest) = beforeRemark? (depth + 1) rest := by
  induction hm generalizing depth rest with
  | nil => rfl
  | @plain c s hopen hclose _ ih =>
    rw [List.reverse_cons, List.append_assoc, ih, List.singleton_append, beforeRemark?]
    · exact hclose
    · exact hopen
  | @parens m s _ _ ihm ihs =>
    calc beforeRemark? (depth + 1) (('(' :: (m ++ ')' :: s)).reverse ++ rest)
        = beforeRemark? (depth + 1) (s.reverse ++ ')' :: (m.reverse ++ '(' :: rest)) := by simp
      _ = beforeRemark? (depth + 1 + 1) (m.reverse ++ '(' :: rest) := by rw [ihs, beforeRemark?]
      _ = beforeRemark? (depth + 1) rest := by
        rw [ihm, beforeRemark?, if_neg (by omega), Nat.add_sub_cancel]

/-- The scan stops at the parenthesis that opens a remark. -/
lemma beforeRemark?_of_balanced (hm : Balanced m) (p : List Char) :
    beforeRemark? 1 (m.reverse ++ '(' :: p.reverse) = some p.reverse := by
  rw [beforeRemark?_append hm, beforeRemark?, if_pos (Nat.le_refl 1)]

/-- Where the scan stops, what it has passed leaves the parentheses open that it counts. -/
lemma exists_opens {rest before : List Char} (hpos : 1 ≤ depth)
    (h : beforeRemark? depth rest = some before) :
    ∃ w, rest.reverse = before.reverse ++ '(' :: w ∧ Opens (depth - 1) w := by
  fun_induction beforeRemark? depth rest with
  | case1 => exact absurd h (by simp)
  | case2 depth rest ih =>
    obtain ⟨w, hrest, hw⟩ := ih (by omega) h
    refine ⟨w ++ [')'], by simp [hrest], Opens.close ?_⟩
    rwa [Nat.sub_add_cancel hpos]
  | case3 depth rest hdepth =>
    obtain rfl := Option.some.inj h
    refine ⟨[], by simp, ?_⟩
    rw [Nat.sub_eq_zero_of_le hdepth]
    exact .balanced .nil
  | case4 depth rest hdepth ih =>
    obtain ⟨w, hrest, hw⟩ := ih (by omega) h
    refine ⟨w ++ ['('], by simp [hrest], ?_⟩
    have hsucc : depth - 1 = depth - 1 - 1 + 1 := by omega
    rw [hsucc]
    exact .succ hw .nil
  | case5 depth c rest hclose hopen ih =>
    obtain ⟨w, hrest, hw⟩ := ih hpos h
    exact ⟨w ++ [c], by simp [hrest], hw.append (.plain hopen hclose .nil)⟩

/-! ## Dropping the remark -/

lemma reverse_of_hasRemark (h : HasRemark t p m) :
    t.reverse = ')' :: (m.reverse ++ '(' :: p.reverse) := by
  rw [h.eq]
  simp

/-- A text has at most one remark. -/
lemma HasRemark.unique {p' m' : List Char} (h : HasRemark t p m) (h' : HasRemark t p' m') :
    p = p' ∧ m = m' := by
  have hrest : m.reverse ++ '(' :: p.reverse = m'.reverse ++ '(' :: p'.reverse :=
    (List.cons.inj ((reverse_of_hasRemark h).symm.trans (reverse_of_hasRemark h'))).2
  have hbefore := beforeRemark?_of_balanced h.balanced p
  rw [hrest, beforeRemark?_of_balanced h'.balanced p'] at hbefore
  obtain rfl : p' = p := List.reverse_injective (Option.some.inj hbefore)
  exact ⟨rfl, List.reverse_injective (List.append_cancel_right hrest)⟩

lemma dropRemark_of_hasRemark (h : HasRemark t p m) : dropRemark t = trimEnd p := by
  rw [dropRemark, reverse_of_hasRemark h]
  simp only [beforeRemark?_of_balanced h.balanced, List.reverse_reverse]

lemma dropRemark_of_forall_not (h : ∀ p m, ¬ HasRemark t p m) : dropRemark t = t := by
  rw [dropRemark]
  split
  · rename_i rest hreverse
    split
    · rename_i before hbefore
      obtain ⟨w, hrest, hw⟩ := exists_opens (Nat.le_refl 1) hbefore
      cases hw with
      | balanced hw =>
        refine absurd ⟨hw, ?_⟩ (h before.reverse w)
        rw [← List.reverse_reverse t, hreverse, List.reverse_cons, hrest, List.append_assoc,
          List.cons_append]
    · rfl
  · rfl

/-! ## Trimming -/

/-- The text neither starts nor ends with a blank character. -/
structure IsTrimmed (s : List Char) : Prop where
  head : ∀ c, s.head? = some c → isBlank c = false
  last : ∀ c, s.getLast? = some c → isBlank c = false

lemma trimEnd_prefix_self (s : List Char) : trimEnd s <+: s := by
  have hsuffix := List.dropWhile_suffix isBlank (l := s.reverse)
  rw [← List.reverse_prefix, List.reverse_reverse] at hsuffix
  exact hsuffix

lemma isBlank_getLast_trimEnd (h : (trimEnd s).getLast? = some c) : isBlank c = false := by
  rw [trimEnd, List.getLast?_reverse] at h
  have hhead := List.head?_dropWhile_not isBlank s.reverse
  rw [h] at hhead
  simpa using hhead

/-- A part at the beginning starts as the whole does. -/
lemma head?_prefix_eq_some (h : s <+: t) (hc : s.head? = some c) : t.head? = some c := by
  obtain ⟨rest, rfl⟩ := h
  rw [List.head?_append, hc, Option.some_or]

lemma isTrimmed_trimEnd (ht : IsTrimmed t) (h : s <+: t) : IsTrimmed (trimEnd s) where
  head := fun _ hc => ht.head _ (head?_prefix_eq_some ((trimEnd_prefix_self s).trans h) hc)
  last := fun _ hc => isBlank_getLast_trimEnd hc

lemma isTrimmed_trim (s : List Char) : IsTrimmed (trim s) where
  head := by
    intro c hc
    have hstart : (trimStart s).head? = some c := head?_prefix_eq_some (trimEnd_prefix_self _) hc
    have hhead := List.head?_dropWhile_not isBlank s
    rw [trimStart] at hstart
    rw [hstart] at hhead
    simpa using hhead
  last := fun _ hc => isBlank_getLast_trimEnd hc

end ShaderBindings.Text

namespace ShaderBindings

open Text

/-- The text, unless it is empty. -/
def nonEmpty? (s : List Char) : Option String := if s = [] then none else some (String.ofList s)

/-- What cleaning makes of a description, `t` being the description without the blanks around
it. -/
structure IsCleaned (t : List Char) (cleaned? : Option String) : Prop where
  /-- A remark is dropped with the blanks before it. -/
  dropped : ∀ p m, HasRemark t p m → cleaned? = nonEmpty? (trimEnd p)
  /-- A text without a remark stays. -/
  kept : (∀ p m, ¬ HasRemark t p m) → cleaned? = nonEmpty? t
  /-- There is no more than one remark to drop. -/
  unique : ∀ p m p' m', HasRemark t p m → HasRemark t p' m' → p = p' ∧ m = m'
  /-- What is left is a part at the beginning. -/
  isPrefix : ∀ d, cleaned? = some d → d.toList <+: t
  /-- What is left has no blanks around it. -/
  isTrimmed : ∀ d, cleaned? = some d → IsTrimmed d.toList

lemma cleanDescription?_eq (text : String) :
    cleanDescription? text = nonEmpty? (dropRemark (trim text.toList)) := by
  rw [cleanDescription?, nonEmpty?]
  split
  · rename_i hempty
    rw [if_pos hempty]
  · rename_i hempty
    rw [if_neg hempty]

lemma toList_of_nonEmpty? {s : List Char} {d : String} (h : nonEmpty? s = some d) :
    d.toList = s := by
  rw [nonEmpty?] at h
  split_ifs at h
  rw [← Option.some.inj h, String.toList_ofList]

/-- What is left without the remark is a trimmed part at the beginning. -/
lemma dropRemark_prefix_and_isTrimmed {t : List Char} (ht : IsTrimmed t) :
    dropRemark t <+: t ∧ IsTrimmed (dropRemark t) := by
  by_cases hremark : ∃ p m, HasRemark t p m
  · obtain ⟨p, m, h⟩ := hremark
    have hp : p <+: t := ⟨_, h.eq.symm⟩
    rw [dropRemark_of_hasRemark h]
    exact ⟨(trimEnd_prefix_self p).trans hp, isTrimmed_trimEnd ht hp⟩
  · have hnone : ∀ p m, ¬ HasRemark t p m := fun p m h => hremark ⟨p, m, h⟩
    rw [dropRemark_of_forall_not hnone]
    exact ⟨List.prefix_rfl, ht⟩

/-- **Cleaning removes one balanced remark at the end.**  A description whose trimmed form ends in
parentheses with a balanced text between them loses these and the blanks before them, and there is
only one such pair of parentheses.  Any other description stays as it is trimmed.  What is left is a
part of the trimmed form at its beginning and trimmed itself, and it is nothing when it is empty. -/
theorem cleanDescription?_isCleaned (text : String) :
    IsCleaned (trim text.toList) (cleanDescription? text) := by
  obtain ⟨hfront, htrimmed⟩ := dropRemark_prefix_and_isTrimmed (isTrimmed_trim text.toList)
  rw [cleanDescription?_eq]
  refine ⟨fun p m h => ?_, fun hnone => ?_, fun p m p' m' h h' => h.unique h', fun d hd => ?_,
    fun d hd => ?_⟩
  · rw [dropRemark_of_hasRemark h]
  · rw [dropRemark_of_forall_not hnone]
  · rwa [toList_of_nonEmpty? hd]
  · rwa [toList_of_nonEmpty? hd]

example : cleanDescription? " Noise (Perlin (improved)) " = some "Noise" := by decide

example : cleanDescription? "Noise) (Perlin))" = some "Noise) (Perlin))" := by decide

end ShaderBindings
