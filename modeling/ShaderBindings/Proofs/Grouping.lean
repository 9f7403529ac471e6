/-
# Grouping

Grouping passes through three stages, and each of them is described by what it keeps.

* Collecting files every prototype under the base of its name: `get?_collect` says what stands
  under each key, and `collect_perm` that no prototype is lost or doubled.
* Dropping removes the sets whose members differ in the number of inputs.
* Dissolving replaces a set by its members, one by one.  A member whose full name is taken is
  lost, and each loss is reported (`balanced_dissolveAll`).

Together they give the shape of the sets that grouping returns (`wellGrouped_of_mem_group`) and
the balance of the prototypes that go in (`group_perm`).
-/
import Mathlib.Data.List.Forall2
import Mathlib.Data.List.Induction
import ShaderBindings.Overload.Grouping
import ShaderBindings.Proofs.Dictionary

namespace ShaderBindings

open Dictionary
open scoped List

/-- The prototypes of all sets. -/
def OverloadSets.prototypes (sets : OverloadSets) : List Prototype :=
  sets.flatMap fun entry => entry.2.prototypes

/-- A set with at least one member and with one number of inputs. -/
structure OverloadSet.Uniform (s : OverloadSet) : Prop where
  nonempty : s.members ≠ []
  arity_eq : ∀ p ∈ s.prototypes, p.arity = s.arity

/-- What is known of a set that grouping makes of the prototypes `ps` and files under a key. -/
structure WellGrouped (ps : List Prototype) (entry : String × OverloadSet) : Prop
    extends entry.2.Uniform where
  key_eq : entry.2.baseName = entry.1
  subset : ∀ p ∈ entry.2.prototypes, p ∈ ps

namespace OverloadSets

variable {sets : OverloadSets} {ps : List Prototype}

lemma prototypes_perm {sets' : OverloadSets} (h : sets.Perm sets') :
    sets.prototypes.Perm sets'.prototypes := h.flatMap_right _

lemma prototypes_cons (entry : String × OverloadSet) :
    prototypes (entry :: sets) = entry.2.prototypes ++ prototypes sets := List.flatMap_cons

lemma mem_prototypes_iff {p : Prototype} :
    p ∈ sets.prototypes ↔ ∃ entry ∈ sets, p ∈ entry.2.prototypes := List.mem_flatMap

/-! ## Collecting -/

/-- The members of the set that collects the prototypes with a base. -/
def family (ps : List Prototype) (base : String) : List OverloadMember :=
  (ps.filter fun p => (splitSuffix p.name).1 = base).map fun p => ⟨(splitSuffix p.name).2, p⟩

lemma family_append_singleton (p : Prototype) (base : String) :
    family (ps ++ [p]) base
      = if (splitSuffix p.name).1 = base then family ps base ++ [⟨(splitSuffix p.name).2, p⟩]
        else family ps base := by
  by_cases h : (splitSuffix p.name).1 = base
  · simp [family, List.filter_append, h]
  · simp [family, List.filter_append, h]

lemma collect_append_singleton (p : Prototype) :
    collect (ps ++ [p]) = collectOne (collect ps) p := by
  simp [collect, List.foldl_append]

lemma sorted_collect (ps : List Prototype) : (collect ps).Sorted := by
  induction ps using List.reverseRecOn with
  | nil => exact sorted_nil
  | append_singleton ps p ih =>
    rw [collect_append_singleton]
    exact ih.alter _ _

/-- Under each key stands the set of the prototypes with that base, when there is one. -/
lemma get?_collect (ps : List Prototype) (base : String) :
    (collect ps).get? base
      = if family ps base = [] then none else some ⟨base, family ps base⟩ := by
  induction ps using List.reverseRecOn with
  | nil => rfl
  | append_singleton ps p ih =>
    rw [collect_append_singleton, collectOne, (sorted_collect ps).get?_alter,
      family_append_singleton]
    by_cases h : base = (splitSuffix p.name).1
    · rw [if_pos h, if_pos h.symm, ← h, ih]
      by_cases hnil : family ps base = []
      · simp [hnil]
      · simp [hnil]
    · rw [if_neg h, if_neg (Ne.symm h), ih]

lemma eq_family_of_mem_collect {base : String} {s : OverloadSet} (h : (base, s) ∈ collect ps) :
    s = ⟨base, family ps base⟩ ∧ family ps base ≠ [] := by
  have hget := (sorted_collect ps).get?_of_mem h
  rw [get?_collect] at hget
  by_cases hnil : family ps base = []
  · rw [if_pos hnil] at hget
    exact absurd hget (by simp)
  · rw [if_neg hnil, Option.some.injEq] at hget
    exact ⟨hget.symm, hnil⟩

lemma prototypes_collectOne (h : sets.Sorted) (p : Prototype) :
    (collectOne sets p).prototypes.Perm (sets.prototypes ++ [p]) := by
  have hperm := prototypes_perm (h.alter_perm (splitSuffix p.name).1 fun found =>
    let set := found.getD ⟨(splitSuffix p.name).1, []⟩
    { set with members := set.members ++ [⟨(splitSuffix p.name).2, p⟩] })
  refine hperm.trans ?_
  rw [prototypes_cons]
  rcases hg : sets.get? (splitSuffix p.name).1 with _ | s
  · rw [erase_of_get?_eq_none hg]
    exact List.perm_append_comm
  · refine List.Perm.trans ?_ ((prototypes_perm (h.perm_of_get? hg)).symm.append_right [p])
    rw [prototypes_cons]
    simp only [OverloadSet.prototypes, Option.getD_some, List.map_append, List.map_cons,
      List.map_nil, List.append_assoc]
    exact List.perm_append_comm.append_left _

/-- Collecting neither loses nor doubles a prototype. -/
lemma collect_perm (ps : List Prototype) : (collect ps).prototypes.Perm ps := by
  induction ps using List.reverseRecOn with
  | nil => exact List.Perm.nil
  | append_singleton ps p ih =>
    rw [collect_append_singleton]
    exact (prototypes_collectOne (sorted_collect ps) p).trans (ih.append_right [p])

/-! ## Dropping -/

lemma arityMismatches_eq_nil_iff {base : String} {s : OverloadSet} :
    s.arityMismatches base = [] ↔ ∀ p ∈ s.prototypes, p.arity = s.arity := by
  simp [OverloadSet.arityMismatches, List.filter_eq_nil_iff]

lemma mem_dropMismatched_iff {entry : String × OverloadSet} :
    entry ∈ (dropMismatched sets).value
      ↔ entry ∈ sets ∧ ∀ p ∈ entry.2.prototypes, p.arity = entry.2.arity := by
  simp only [dropMismatched, List.mem_filter, List.isEmpty_iff, arityMismatches_eq_nil_iff]

/-- The sets whose members differ in the number of inputs. -/
def mismatched (sets : OverloadSets) : OverloadSets :=
  sets.filter fun entry => !(entry.2.arityMismatches entry.1).isEmpty

lemma dropMismatched_perm (sets : OverloadSets) :
    ((dropMismatched sets).value.prototypes ++ (mismatched sets).prototypes).Perm
      sets.prototypes := by
  rw [prototypes, prototypes, ← List.flatMap_append]
  exact prototypes_perm (List.filter_append_perm _ sets)

lemma mismatched_eq_nil (h : (dropMismatched sets).diagnostics = []) : mismatched sets = [] := by
  rw [mismatched, List.filter_eq_nil_iff]
  intro entry hentry
  simpa using List.flatMap_eq_nil_iff.1 h entry hentry

lemma wellGrouped_of_mem_dropMismatched {entry : String × OverloadSet}
    (h : entry ∈ (dropMismatched (collect ps)).value) : WellGrouped ps entry := by
  obtain ⟨base, s⟩ := entry
  obtain ⟨hmem, harity⟩ := mem_dropMismatched_iff.1 h
  obtain ⟨rfl, hne⟩ := eq_family_of_mem_collect hmem
  refine ⟨⟨hne, harity⟩, rfl, fun p hp => ?_⟩
  exact (collect_perm ps).mem_iff.1 (mem_prototypes_iff.2 ⟨_, hmem, hp⟩)

/-! ## Dissolving -/

/-- A prototype is lost with this report when its full name is taken. -/
def IsLoss (p : Prototype) (d : Diagnostic) : Prop :=
  ∃ first, d = .duplicateBinding p.name first p.id

lemma sorted_addSingle (h : sets.Sorted) (p : Prototype) : (addSingle sets p).value.Sorted := by
  rw [addSingle]
  split
  · exact h
  · exact h.insert _ _

lemma sorted_addSingles (h : sets.Sorted) (ps : List Prototype) :
    (addSingles sets ps).value.Sorted := by
  induction ps generalizing sets with
  | nil => exact h
  | cons p ps ih => exact ih (sorted_addSingle h p)

lemma sorted_dissolveOne (h : sets.Sorted) (base : String) :
    (dissolveOne sets base).value.Sorted := by
  rw [dissolveOne]
  split
  · exact sorted_addSingles (h.erase base) _
  · exact h

lemma sorted_dissolveAll (h : sets.Sorted) (bases : List String) :
    (dissolveAll sets bases).value.Sorted := by
  induction bases generalizing sets with
  | nil => exact h
  | cons base bases ih => exact ih (sorted_dissolveOne h base)

/-! After dissolving, a set is an old one that was not dissolved, or it stands alone for a member of
one that was. -/

variable {entry : String × OverloadSet} {base : String}

lemma mem_addSingle (hs : sets.Sorted) {p : Prototype} (h : entry ∈ (addSingle sets p).value) :
    entry ∈ sets ∨ entry = (p.name, single p) := by
  rw [addSingle] at h
  split at h
  · exact Or.inl h
  · rcases hs.mem_alter_iff.1 h with h | ⟨h, -⟩
    · exact Or.inr h
    · exact Or.inl h

lemma mem_addSingles (hs : sets.Sorted) (h : entry ∈ (addSingles sets ps).value) :
    entry ∈ sets ∨ ∃ p ∈ ps, entry = (p.name, single p) := by
  induction ps generalizing sets with
  | nil => exact Or.inl h
  | cons p ps ih =>
    rcases ih (sorted_addSingle hs p) h with h | ⟨q, hq, rfl⟩
    · rcases mem_addSingle hs h with h | rfl
      · exact Or.inl h
      · exact Or.inr ⟨p, List.mem_cons_self, rfl⟩
    · exact Or.inr ⟨q, List.mem_cons_of_mem p hq, rfl⟩

lemma mem_dissolveOne (hs : sets.Sorted) (h : entry ∈ (dissolveOne sets base).value) :
    (entry ∈ sets ∧ entry.1 ≠ base) ∨
      ∃ s, (base, s) ∈ sets ∧ ∃ p ∈ s.prototypes, entry = (p.name, single p) := by
  rw [dissolveOne] at h
  split at h
  · rename_i s hget
    rcases mem_addSingles (hs.erase base) h with h | ⟨p, hp, rfl⟩
    · exact Or.inl (mem_erase_iff.1 h)
    · exact Or.inr ⟨s, mem_of_get? hget, p, hp, rfl⟩
  · rename_i hget
    exact Or.inl ⟨h, get?_eq_none_iff.1 hget entry h⟩

lemma mem_dissolveAll {bases : List String} (hs : sets.Sorted)
    (h : entry ∈ (dissolveAll sets bases).value) :
    (entry ∈ sets ∧ entry.1 ∉ bases) ∨ ∃ base ∈ bases, ∃ s, (base, s) ∈ sets ∧
      ∃ p ∈ s.prototypes, entry = (p.name, single p) := by
  induction bases generalizing sets with
  | nil => exact Or.inl ⟨h, List.not_mem_nil⟩
  | cons base bases ih =>
    rcases ih (sorted_dissolveOne hs base) h with
      ⟨hmem, hnot⟩ | ⟨base', hbase', s, hmem, p, hp, rfl⟩
    · rcases mem_dissolveOne hs hmem with ⟨hmem, hne⟩ | ⟨s, hs', p, hp, rfl⟩
      · exact Or.inl ⟨hmem, by simp [hne, hnot]⟩
      · exact Or.inr ⟨base, List.mem_cons_self, s, hs', p, hp, rfl⟩
    · rcases mem_dissolveOne hs hmem with ⟨hmem, -⟩ | ⟨s', hs', q, hq, heq⟩
      · exact Or.inr ⟨base', List.mem_cons_of_mem base hbase', s, hmem, p, hp, rfl⟩
      -- the set stands alone already, so that dissolving it once more keeps its member
      · obtain ⟨-, rfl⟩ := Prod.mk.inj heq
        obtain rfl : p = q := by simpa [single, OverloadSet.prototypes] using hp
        exact Or.inr ⟨base, List.mem_cons_self, s', hs', p, hq, rfl⟩

/-! The balance of the prototypes: what dissolving does not keep, it reports. -/

/-- The sets `after` hold the prototypes of the sets `before` and those of `new`, except for the
ones that are lost with a report. -/
def Balanced (before : OverloadSets) (new : List Prototype) (after : Reported OverloadSets) :
    Prop :=
  ∃ lost, List.Forall₂ IsLoss lost after.diagnostics ∧
    (after.value.prototypes ++ lost).Perm (before.prototypes ++ new)

lemma Balanced.refl (sets : OverloadSets) : Balanced sets [] ⟨sets, []⟩ :=
  ⟨[], List.Forall₂.nil, List.Perm.refl _⟩

lemma Balanced.trans {new₁ new₂ : List Prototype} {after₁ after₂ : Reported OverloadSets}
    (h₁ : Balanced sets new₁ after₁) (h₂ : Balanced after₁.value new₂ after₂) :
    Balanced sets (new₁ ++ new₂) ⟨after₂.value, after₁.diagnostics ++ after₂.diagnostics⟩ := by
  obtain ⟨lost₁, hloss₁, hperm₁⟩ := h₁
  obtain ⟨lost₂, hloss₂, hperm₂⟩ := h₂
  refine ⟨lost₁ ++ lost₂, List.rel_append hloss₁ hloss₂, ?_⟩
  rw [← List.append_assoc sets.prototypes]
  calc after₂.value.prototypes ++ (lost₁ ++ lost₂)
      ~ lost₁ ++ (after₂.value.prototypes ++ lost₂) := List.perm_append_comm_assoc _ _ _
    _ ~ lost₁ ++ (after₁.value.prototypes ++ new₂) := hperm₂.append_left _
    _ ~ after₁.value.prototypes ++ (lost₁ ++ new₂) := List.perm_append_comm_assoc _ _ _
    _ = after₁.value.prototypes ++ lost₁ ++ new₂ := (List.append_assoc _ _ _).symm
    _ ~ sets.prototypes ++ new₁ ++ new₂ := hperm₁.append_right _

lemma balanced_addSingle (hs : sets.Sorted) (p : Prototype) :
    Balanced sets [p] (addSingle sets p) := by
  rcases hg : sets.get? p.name with _ | found
  · refine ⟨[], ?_, ?_⟩
    · rw [addSingle, hg]
      exact List.Forall₂.nil
    · rw [addSingle, hg, List.append_nil]
      refine (prototypes_perm (hs.insert_perm p.name (single p))).trans ?_
      rw [erase_of_get?_eq_none hg, prototypes_cons]
      exact List.perm_append_comm
  · refine ⟨[p], ?_, ?_⟩
    · rw [addSingle, hg]
      exact List.Forall₂.cons ⟨_, rfl⟩ List.Forall₂.nil
    · rw [addSingle, hg]

lemma balanced_addSingles (hs : sets.Sorted) (ps : List Prototype) :
    Balanced sets ps (addSingles sets ps) := by
  induction ps generalizing sets with
  | nil => exact Balanced.refl sets
  | cons p ps ih => exact (balanced_addSingle hs p).trans (ih (sorted_addSingle hs p))

lemma balanced_dissolveOne (hs : sets.Sorted) (base : String) :
    Balanced sets [] (dissolveOne sets base) := by
  rw [dissolveOne]
  rcases hg : sets.get? base with _ | s
  · exact Balanced.refl sets
  · obtain ⟨lost, hloss, hperm⟩ := balanced_addSingles (hs.erase base) s.prototypes
    refine ⟨lost, hloss, hperm.trans (List.perm_append_comm.trans ?_)⟩
    rw [List.append_nil]
    exact (prototypes_perm (hs.perm_of_get? hg)).symm

lemma balanced_dissolveAll (hs : sets.Sorted) (bases : List String) :
    Balanced sets [] (dissolveAll sets bases) := by
  induction bases generalizing sets with
  | nil => exact Balanced.refl sets
  | cons base bases ih =>
    exact (balanced_dissolveOne hs base).trans (ih (sorted_dissolveOne hs base))

end OverloadSets

open OverloadSets

variable {ps : List Prototype}

/-! ## The whole of grouping -/

lemma sorted_group (ps : List Prototype) : (group ps).value.Sorted :=
  sorted_dissolveAll ((sorted_collect ps).filter _) _

/-- The set of a single prototype is well grouped. -/
lemma WellGrouped.single {entry : String × OverloadSet} (h : WellGrouped ps entry)
    {p : Prototype} (hp : p ∈ entry.2.prototypes) :
    WellGrouped ps (p.name, OverloadSets.single p) where
  key_eq := rfl
  nonempty := by simp [OverloadSets.single]
  arity_eq := by simp [OverloadSets.single, OverloadSet.prototypes, OverloadSet.arity]
  subset := by
    intro q hq
    obtain rfl : q = p := by simpa [OverloadSets.single, OverloadSet.prototypes] using hq
    exact h.subset q hp

/-- Every set that grouping returns has members, with one number of inputs, among the grouped
prototypes, and is filed under its base name. -/
theorem wellGrouped_of_mem_group {entry : String × OverloadSet} (h : entry ∈ (group ps).value) :
    WellGrouped ps entry := by
  rcases mem_dissolveAll ((sorted_collect ps).filter _) h with
    ⟨hkept, -⟩ | ⟨_, -, s, hkept, p, hp, rfl⟩
  · exact wellGrouped_of_mem_dropMismatched hkept
  · have hwhole := wellGrouped_of_mem_dropMismatched hkept
    exact hwhole.single hp

lemma uniform_of_mem_values {s : OverloadSet} (hs : s ∈ (group ps).value.values) :
    s.Uniform ∧ ∀ p ∈ s.prototypes, p ∈ ps := by
  obtain ⟨entry, hentry, rfl⟩ := List.mem_map.1 hs
  exact ⟨(wellGrouped_of_mem_group hentry).toUniform, (wellGrouped_of_mem_group hentry).subset⟩

/-- Every prototype is kept, or is lost with a report of its own, or is in a set that is
dropped. -/
theorem group_perm (ps : List Prototype) :
    ∃ lost, List.Forall₂ IsLoss lost (dissolve (dropMismatched (collect ps)).value).diagnostics ∧
      ((group ps).value.prototypes ++ (lost ++ (mismatched (collect ps)).prototypes)).Perm ps := by
  obtain ⟨lost, hloss, hperm⟩ :=
    balanced_dissolveAll ((sorted_collect ps).filter _)
      (dissolvable (dropMismatched (collect ps)).value)
  refine ⟨lost, hloss, ?_⟩
  rw [List.append_nil] at hperm
  rw [← List.append_assoc]
  exact (hperm.append_right _).trans ((dropMismatched_perm (collect ps)).trans (collect_perm ps))

lemma exists_isLoss_of_mem {lost : List Prototype} {ds : Diagnostics} {d : Diagnostic}
    (h : List.Forall₂ IsLoss lost ds) (hd : d ∈ ds) : ∃ p, IsLoss p d := by
  induction h with
  | nil => exact absurd hd List.not_mem_nil
  | cons hloss _ ih =>
    rcases List.mem_cons.1 hd with rfl | hd
    · exact ⟨_, hloss⟩
    · exact ih hd

/-- Grouping reports differing numbers of inputs and taken names. -/
lemma mem_diagnostics_group {d : Diagnostic} (hd : d ∈ (group ps).diagnostics) :
    (∃ base node expected found, d = .arityMismatch base node expected found) ∨
      ∃ name first second, d = .duplicateBinding name first second := by
  rcases List.mem_append.1 hd with hd | hd
  · left
    obtain ⟨entry, -, hd⟩ := List.mem_flatMap.1 hd
    obtain ⟨p, -, rfl⟩ := List.mem_map.1 hd
    exact ⟨_, _, _, _, rfl⟩
  · right
    obtain ⟨lost, hloss, -⟩ := group_perm ps
    obtain ⟨p, first, rfl⟩ := exists_isLoss_of_mem hloss hd
    exact ⟨_, _, _, rfl⟩

/-- Grouping without a report keeps every prototype. -/
theorem group_perm_of_silent (h : (group ps).diagnostics = []) :
    (group ps).value.prototypes.Perm ps := by
  obtain ⟨hdrop, hdissolve⟩ := List.append_eq_nil_iff.1 h
  obtain ⟨lost, hloss, hperm⟩ := group_perm ps
  have hlost : lost = [] := by
    rw [hdissolve] at hloss
    exact List.forall₂_nil_right_iff.1 hloss
  rw [hlost, mismatched_eq_nil hdrop] at hperm
  simpa [OverloadSets.prototypes] using hperm

end ShaderBindings
