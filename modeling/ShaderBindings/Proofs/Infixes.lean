/-
# Parts of a text

A text that is appended to others, or joined with others, stands in the whole without a gap.  And a
text in which some character does not occur stands on one side of that character.
-/
import Mathlib.Data.List.Infix

namespace ShaderBindings

variable {x a b : String} {l : List String}

lemma infix_append_of_left (h : x.toList <:+: a.toList) : x.toList <:+: (a ++ b).toList := by
  rw [String.toList_append]
  exact h.trans (List.prefix_append _ _).isInfix

lemma infix_append_of_right (h : x.toList <:+: b.toList) : x.toList <:+: (a ++ b).toList := by
  rw [String.toList_append]
  exact h.trans (List.suffix_append _ _).isInfix

lemma infix_join (h : x ∈ l) : x.toList <:+: (String.join l).toList := by
  rw [String.toList_join, List.flatMap_def]
  exact List.infix_of_mem_flatten (List.mem_map_of_mem h)

lemma mem_intersperse {α : Type} {l : List α} {x : α} (separator : α) (hx : x ∈ l) :
    x ∈ l.intersperse separator := by
  induction l with
  | nil => exact absurd hx List.not_mem_nil
  | cons first rest ih =>
    rcases rest with _ | ⟨second, rest⟩
    · exact hx
    · rw [List.intersperse_cons_cons]
      rcases List.mem_cons.1 hx with rfl | hx
      · exact List.mem_cons_self
      · exact List.mem_cons_of_mem _ (List.mem_cons_of_mem _ (ih hx))

lemma infix_intercalate {separator : String} (h : x ∈ l) :
    x.toList <:+: (separator.intercalate l).toList := by
  rw [String.toList_intercalate, List.intercalate]
  exact List.infix_of_mem_flatten (mem_intersperse _ (List.mem_map_of_mem h))

lemma not_infix_of_notMem {mark s : List Char} {c : Char} (hc : c ∈ mark) (hs : c ∉ s) :
    ¬ mark <:+: s := fun h => hs (h.subset hc)

lemma infix_append_cons_iff {mark s t : List Char} {c : Char} (hmark : mark ≠ []) (hc : c ∉ mark) :
    mark <:+: s ++ c :: t ↔ mark <:+: s ∨ mark <:+: t := by
  constructor
  · intro h
    rcases List.infix_append_iff.1 h with h | h | ⟨front, back, rfl, hfront, hback⟩
    · exact Or.inl h
    · rcases List.infix_cons_iff.1 h with hprefix | h
      · rcases mark with _ | ⟨d, mark⟩
        · exact absurd rfl hmark
        · obtain ⟨rfl, -⟩ := List.cons_prefix_cons.1 hprefix
          exact absurd List.mem_cons_self hc
      · exact Or.inr h
    -- what reaches over the seam begins with the character there
    · rcases back with _ | ⟨d, back⟩
      · rw [List.append_nil]
        exact Or.inl hfront.isInfix
      · obtain ⟨rfl, -⟩ := List.cons_prefix_cons.1 hback
        exact absurd (List.mem_append_right front List.mem_cons_self) hc
  · rintro (h | h)
    · exact h.trans (List.prefix_append s _).isInfix
    · exact h.trans ((List.suffix_cons c t).trans (List.suffix_append s _)).isInfix

end ShaderBindings
