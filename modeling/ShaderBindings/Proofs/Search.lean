/-
# Occurrences of a mark

A text is cut at the first occurrence of a mark: it falls into what stands before that occurrence,
the mark itself, and the rest (`FirstAt`).  `cutAt?_eq_some_iff` says that the search finds this cut
and no other one.  Two more lemmas tell where the first occurrence stands in a text that is put
together from parts.
-/
import Mathlib.Data.List.Infix
import ShaderBindings.Text.Search

namespace ShaderBindings

namespace Text

/-- The first occurrence of `mark` in `s` stands behind `before` and in front of `rest`. -/
structure FirstAt (mark s before rest : List Char) : Prop where
  eq : s = before ++ mark ++ rest
  /-- No occurrence begins earlier. -/
  first : ∀ before' rest', s = before' ++ mark ++ rest' → before.length ≤ before'.length

variable {mark s before rest : List Char}

/-- There is one first occurrence. -/
lemma FirstAt.unique {before' rest' : List Char} (h : FirstAt mark s before rest)
    (h' : FirstAt mark s before' rest') : before = before' ∧ rest = rest' := by
  have hlength : before.length = before'.length :=
    le_antisymm (h.first before' rest' h'.eq) (h'.first before rest h.eq)
  have heq : before ++ (mark ++ rest) = before' ++ (mark ++ rest') := by
    rw [← List.append_assoc, ← List.append_assoc, ← h.eq, ← h'.eq]
  obtain ⟨hbefore, hmarked⟩ := List.append_inj heq hlength
  exact ⟨hbefore, List.append_cancel_left hmarked⟩

/-! ## The search -/

lemma after?_eq_some_iff : after? mark s = some rest ↔ s = mark ++ rest := by
  rw [after?]
  constructor
  · intro h
    split_ifs at h with hstart
    obtain ⟨tail, rfl⟩ := List.isPrefixOf_iff_prefix.1 hstart
    rw [← Option.some.inj h, List.drop_left]
  · rintro rfl
    rw [if_pos (List.isPrefixOf_iff_prefix.2 (List.prefix_append mark rest)), List.drop_left]

lemma after?_eq_none_iff : after? mark s = none ↔ ¬ mark <+: s := by
  rw [after?, ← List.isPrefixOf_iff_prefix]
  split_ifs with hstart <;> simp [hstart]

lemma cutAt?_append (hmark : mark ≠ []) (rest : List Char) :
    cutAt? mark (mark ++ rest) = some ([], rest) := by
  obtain ⟨c, tail, rfl⟩ := List.exists_cons_of_ne_nil hmark
  rw [List.cons_append, cutAt?, after?_eq_some_iff.2 (List.cons_append).symm]

lemma cutAt?_cons {c : Char} (h : ¬ mark <+: c :: s) :
    cutAt? mark (c :: s) = (cutAt? mark s).map fun cut => (c :: cut.1, cut.2) := by
  rw [cutAt?, after?_eq_none_iff.2 h]

/-- The text is cut around an occurrence of the mark. -/
lemma eq_of_cutAt? (h : cutAt? mark s = some (before, rest)) : s = before ++ mark ++ rest := by
  induction s generalizing before with
  | nil =>
    rw [cutAt?] at h
    split_ifs at h with hmark
    obtain ⟨rfl, rfl⟩ := Prod.mk.inj (Option.some.inj h)
    rw [List.isEmpty_iff.1 hmark]
    rfl
  | cons c s ih =>
    by_cases hstart : mark <+: c :: s
    · obtain ⟨tail, htail⟩ := hstart
      rw [cutAt?, after?_eq_some_iff.2 htail.symm] at h
      obtain ⟨rfl, rfl⟩ := Prod.mk.inj (Option.some.inj h)
      exact htail.symm
    · rw [cutAt?_cons hstart] at h
      obtain ⟨cut, hcut, heq⟩ := Option.map_eq_some_iff.1 h
      obtain ⟨rfl, rfl⟩ := Prod.mk.inj heq
      rw [ih hcut]
      rfl

lemma length_le_of_cutAt? (h : cutAt? mark s = some (before, rest)) {before' rest' : List Char}
    (heq : s = before' ++ mark ++ rest') : before.length ≤ before'.length := by
  induction s generalizing before before' with
  | nil =>
    rw [cutAt?] at h
    split_ifs at h
    rw [← (Prod.mk.inj (Option.some.inj h)).1]
    exact Nat.zero_le _
  | cons c s ih =>
    by_cases hstart : mark <+: c :: s
    -- the mark stands at the front, before which there is nothing
    · obtain ⟨tail, htail⟩ := hstart
      rw [cutAt?, after?_eq_some_iff.2 htail.symm] at h
      rw [← (Prod.mk.inj (Option.some.inj h)).1]
      exact Nat.zero_le _
    · rw [cutAt?_cons hstart] at h
      obtain ⟨cut, hcut, hcons⟩ := Option.map_eq_some_iff.1 h
      obtain ⟨rfl, rfl⟩ := Prod.mk.inj hcons
      cases before' with
      | nil => exact absurd ⟨rest', heq.symm⟩ hstart
      | cons c' before' =>
        rw [List.cons_append, List.cons_append, List.cons.injEq] at heq
        exact Nat.succ_le_succ (ih hcut heq.2)

/-- The first occurrence stays the first one when the text behind it changes. -/
lemma cutAt?_congr (hmark : mark ≠ [])
    (h : cutAt? mark (before ++ mark ++ rest) = some (before, rest))
    (rest' : List Char) : cutAt? mark (before ++ mark ++ rest') = some (before, rest') := by
  induction before with
  | nil => exact cutAt?_append hmark rest'
  | cons c before ih =>
    rw [List.cons_append, List.cons_append] at h ⊢
    have hnone : ¬ mark <+: c :: (before ++ mark ++ rest) := by
      rintro ⟨tail, htail⟩
      rw [cutAt?, after?_eq_some_iff.2 htail.symm] at h
      exact absurd (Prod.mk.inj (Option.some.inj h)).1 (by simp)
    -- an occurrence that starts here ends before the text that changes
    have hnone' : ¬ mark <+: c :: (before ++ mark ++ rest') := by
      intro hstart
      have hkept : mark <+: c :: (before ++ mark) :=
        List.prefix_of_prefix_length_le hstart (List.prefix_append (c :: (before ++ mark)) rest')
          (by simp; omega)
      exact hnone (hkept.trans (List.prefix_append (c :: (before ++ mark)) rest))
    rw [cutAt?_cons hnone] at h
    rw [cutAt?_cons hnone']
    obtain ⟨cut, hcut, heq⟩ := Option.map_eq_some_iff.1 h
    obtain ⟨hbefore, hrest⟩ := Prod.mk.inj heq
    rw [List.cons.injEq] at hbefore
    rw [ih (by rw [hcut, ← hbefore.2, ← hrest])]
    rfl

lemma contains_eq_true_iff (hmark : mark ≠ []) : contains mark s = true ↔ mark <:+: s := by
  rw [contains]
  constructor
  · intro h
    obtain ⟨⟨before, rest⟩, hcut⟩ := Option.isSome_iff_exists.1 h
    exact ⟨before, rest, (eq_of_cutAt? hcut).symm⟩
  · intro h
    induction s with
    | nil => exact absurd (List.infix_nil.1 h) hmark
    | cons c s ih =>
      by_cases hstart : mark <+: c :: s
      · obtain ⟨tail, htail⟩ := hstart
        rw [← htail, cutAt?_append hmark]
        rfl
      · rw [cutAt?_cons hstart]
        have hheld := (List.infix_cons_iff.1 h).resolve_left hstart
        simpa using ih hheld

/-- **The search finds the first occurrence.** -/
lemma cutAt?_eq_some_iff (hmark : mark ≠ []) :
    cutAt? mark s = some (before, rest) ↔ FirstAt mark s before rest := by
  have hfirst : ∀ cut, cutAt? mark s = some cut → FirstAt mark s cut.1 cut.2 :=
    fun cut h => ⟨eq_of_cutAt? h, fun before' rest' => length_le_of_cutAt? h⟩
  constructor
  · exact fun h => hfirst _ h
  · intro h
    have hheld : contains mark s = true := (contains_eq_true_iff hmark).2 ⟨before, rest, h.eq.symm⟩
    obtain ⟨cut, hcut⟩ := Option.isSome_iff_exists.1 hheld
    obtain ⟨rfl, rfl⟩ := h.unique (hfirst cut hcut)
    exact hcut

/-- When no mark lies in a text that ends in a character foreign to the mark, then the first mark of
the text and what follows is the one behind it. -/
lemma cutAt?_of_not_infix {stop : Char} (hmark : mark ≠ []) (hstop : stop ∉ mark)
    (hlast : ∀ c ∈ s.getLast?, c = stop) (h : ¬ mark <:+: s) (rest : List Char) :
    cutAt? mark (s ++ (mark ++ rest)) = some (s, rest) := by
  induction s with
  | nil => exact cutAt?_append hmark rest
  | cons c s ih =>
    have hnone : ¬ mark <+: c :: (s ++ (mark ++ rest)) := by
      intro hstart
      have hwhole : c :: s <+: c :: (s ++ (mark ++ rest)) := List.prefix_append (c :: s) _
      rcases List.prefix_or_prefix_of_prefix hstart hwhole with hinside | houtside
      · exact h hinside.isInfix
      · obtain ⟨x, hx⟩ : ∃ x, (c :: s).getLast? = some x :=
          ⟨_, List.getLast?_eq_some_getLast (List.cons_ne_nil c s)⟩
        have hmem := houtside.subset (List.mem_of_getLast? hx)
        rw [hlast x hx] at hmem
        exact hstop hmem
    have hlast' : ∀ x ∈ s.getLast?, x = stop := by
      intro x hx
      refine hlast x ?_
      rw [Option.mem_def] at hx ⊢
      rw [List.getLast?_cons, hx]
      rfl
    rw [List.cons_append, cutAt?_cons hnone,
      ih hlast' fun hheld => h (hheld.trans (List.suffix_cons c s).isInfix)]
    rfl

end Text

end ShaderBindings
