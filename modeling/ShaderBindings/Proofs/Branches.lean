/-
# The branches of a binding

A prototype gets a branch unless an earlier one agrees with it at every discriminating position.
The prototypes with a branch are the *leaders* of the list: the first ones of the classes of
prototypes that agree.  Every call that one prototype of a class fits is fitted by the leader, so
looking for a fitting prototype among the leaders is looking for it in the whole list.
-/
import Mathlib.Data.List.Basic
import ShaderBindings.Binding.Dispatch
import ShaderBindings.Binding.Synthesis

namespace ShaderBindings

open OverloadSet

/-- Two prototypes report the same runtime types at some input positions. -/
def Prototype.Agree (positions : List Nat) (p q : Prototype) : Prop :=
  ∀ index ∈ positions, runtimeTypeAt p index = runtimeTypeAt q index

instance (positions : List Nat) (p q : Prototype) : Decidable (p.Agree positions q) :=
  inferInstanceAs (Decidable (∀ index ∈ positions, _))

/-- Prototypes that agree are told apart by no call. -/
lemma Prototype.Agree.forall_eq_iff {positions : List Nat} {p q : Prototype}
    (hpq : p.Agree positions q) {types : ArgumentTypes} :
    (∀ index ∈ positions, types index = runtimeTypeAt p index)
      ↔ ∀ index ∈ positions, types index = runtimeTypeAt q index :=
  forall₂_congr fun index hindex => by rw [hpq index hindex]

namespace OverloadSet

variable {positions : List Nat} {p q : Prototype} {ps : List Prototype} {earlier : List Branch}

lemma conditions_eq_iff :
    conditions positions p = conditions positions q ↔ p.Agree positions q := by
  simp [conditions, Prototype.Agree]

lemma fits_branch_iff {types : ArgumentTypes} :
    (branch positions p).fits types = true
      ↔ ∀ index ∈ positions, types index = runtimeTypeAt p index := by
  simp [Branch.fits, branch, conditions, TypeCheck.holds]

/-- The branches with the conditions of a prototype. -/
lemma shadow?_isSome_iff :
    (shadow? positions earlier p).isSome ↔
      ∃ b ∈ earlier, b.conditions = conditions positions p := by
  simp [shadow?, List.find?_isSome]

/-! ## Leaders -/

/-- The prototypes that no earlier one agrees with at some positions. -/
def leaders (positions : List Nat) : List Prototype → List Prototype
  | [] => []
  | p :: rest => p :: (leaders positions rest).filter fun q => !decide (p.Agree positions q)

lemma leaders_sublist (positions : List Nat) (ps : List Prototype) :
    (leaders positions ps).Sublist ps := by
  induction ps with
  | nil => exact List.Sublist.refl _
  | cons p rest ih => exact (List.filter_sublist.trans ih).cons_cons p

lemma mem_of_mem_leaders (h : p ∈ leaders positions ps) : p ∈ ps :=
  (leaders_sublist positions ps).subset h

/-- The first prototype is a leader. -/
lemma leaders_ne_nil (positions : List Nat) (h : ps ≠ []) : leaders positions ps ≠ [] := by
  obtain ⟨p, rest, rfl⟩ := List.exists_cons_of_ne_nil h
  exact List.cons_ne_nil _ _

/-- No two leaders agree. -/
lemma leaders_pairwise (positions : List Nat) (ps : List Prototype) :
    (leaders positions ps).Pairwise fun p q => ¬ p.Agree positions q := by
  induction ps with
  | nil => exact List.Pairwise.nil
  | cons p rest ih =>
    refine List.pairwise_cons.2 ⟨fun q hq => ?_, ih.filter _⟩
    simpa using (List.mem_filter.1 hq).2

/-- The first prototype with a property that agreeing prototypes share is a leader. -/
lemma find?_leaders {P : Prototype → Bool}
    (hP : ∀ p q, p.Agree positions q → P p = P q) (ps : List Prototype) :
    (leaders positions ps).find? P = ps.find? P := by
  induction ps with
  | nil => rfl
  | cons p rest ih =>
    rw [leaders, List.find?_cons, List.find?_cons]
    cases hp : P p with
    | true => rfl
    | false =>
      -- the prototypes that agree with `p` have the property as little as `p` has it
      simp only [List.find?_filter, ← ih]
      congr 1
      funext q
      by_cases hpq : p.Agree positions q
      · simp [hpq, ← hP p q hpq, hp]
      · simp [hpq]

/-- The first prototype that agrees with a given one is a leader. -/
lemma exists_first_leader (positions : List Nat) (hp : p ∈ ps) :
    ∃ first ∈ leaders positions ps, ps.find? (fun q => p.Agree positions q) = some first := by
  have hself : (ps.find? fun q => p.Agree positions q).isSome :=
    List.find?_isSome.2 ⟨p, hp, decide_eq_true fun _ _ => rfl⟩
  obtain ⟨first, hfirst⟩ := Option.isSome_iff_exists.1 hself
  refine ⟨first, List.mem_of_find?_eq_some ((find?_leaders (fun q r hqr => ?_) ps).trans hfirst),
    hfirst⟩
  rw [decide_eq_decide]
  exact hqr.forall_eq_iff

/-- Extending some branches by those of more prototypes adds the branches of the leaders that
no earlier branch shadows. -/
lemma extendBranches_eq (positions : List Nat) (earlier : List Branch) (ps : List Prototype) :
    extendBranches positions earlier ps
      = earlier ++ ((leaders positions ps).filter fun p =>
          !(shadow? positions earlier p).isSome).map (branch positions) := by
  induction ps generalizing earlier with
  | nil => simp [extendBranches, leaders]
  | cons p rest ih =>
    rw [extendBranches, leaders]
    rcases hshadow : shadow? positions earlier p with _ | b
    · simp only [ih, hshadow, Option.isSome_none, Bool.not_false, List.filter_cons_of_pos,
        List.map_cons, List.append_assoc, List.cons_append, List.nil_append, List.filter_filter]
      congr 4
      funext q
      rw [Bool.eq_iff_iff]
      simp only [Bool.not_eq_true', Bool.and_eq_true, ← Bool.not_eq_true, shadow?_isSome_iff,
        List.mem_append, List.mem_singleton, decide_eq_true_eq, ← conditions_eq_iff]
      constructor
      · intro h
        exact ⟨fun ⟨b, hb, hc⟩ => h ⟨b, Or.inl hb, hc⟩, fun hc => h ⟨_, Or.inr rfl, hc⟩⟩
      · rintro ⟨h₁, h₂⟩ ⟨b, hb | rfl, hc⟩
        · exact h₁ ⟨b, hb, hc⟩
        · exact h₂ hc
    · have hsome : (shadow? positions earlier p).isSome = true := by rw [hshadow]; rfl
      obtain ⟨c, hmem, hc⟩ := shadow?_isSome_iff.1 hsome
      rw [List.filter_cons_of_neg (by simp [hsome]), List.filter_filter]
      simp only [ih]
      congr 2
      refine List.filter_congr fun q _ => ?_
      rw [Bool.eq_iff_iff]
      simp only [Bool.not_eq_true', Bool.and_eq_true, ← Bool.not_eq_true, shadow?_isSome_iff,
        decide_eq_true_eq, ← conditions_eq_iff]
      exact ⟨fun h => ⟨h, fun hpq => h ⟨c, hmem, hc.trans hpq⟩⟩, fun h => h.1⟩

/-- The branches of a binding are those of the leaders among the members. -/
lemma branches_eq (positions : List Nat) (ps : List Prototype) :
    extendBranches positions [] ps = (leaders positions ps).map (branch positions) := by
  rw [extendBranches_eq, List.nil_append]
  congr 1
  exact List.filter_eq_self.2 fun p _ => rfl

end OverloadSet

end ShaderBindings
