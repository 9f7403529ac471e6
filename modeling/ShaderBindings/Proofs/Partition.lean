/-
# Grouping is a partition

Grouping files the prototypes of one base under that base, unless the family has to be taken
apart: a family of several members that report one runtime type at every input is dissolved, and
its members stand alone under their full names.  So each set that grouping returns is a whole
family or a single member of a dissolved one, and nothing else (`isGroup_of_mem_group`).

The sets partition the prototypes that go in.  What is missing in them is either the loss of a
taken name, with one report for each, or a family whose members differ in the number of inputs,
which is reported under its base (`group_isPartition`).
-/
import ShaderBindings.Proofs.Analysis

namespace ShaderBindings

open Dictionary OverloadSets
open scoped List

/-- The set of all prototypes with a base. -/
def OverloadSets.whole (ps : List Prototype) (base : String) : OverloadSet := ⟨base, family ps base⟩

/-- No input tells the members of the set apart, although there are several of them with one
number of inputs. -/
structure OverloadSet.Dissolves (s : OverloadSet) : Prop where
  several : 1 < s.members.length
  arity_eq : ∀ p ∈ s.prototypes, p.arity = s.arity
  shared : ∀ index < s.arity, s.SharesType index

/-- What is known of a set that grouping makes of the prototypes `ps` and files under a key. -/
structure IsGroup (ps : List Prototype) (key : String) (s : OverloadSet) : Prop
    extends s.Uniform where
  baseName_eq : s.baseName = key
  /-- Some input tells two members apart. -/
  distinguished : 1 < s.members.length → ∃ index < s.arity, ¬ s.SharesType index
  /-- The members keep the order of the schema. -/
  sublist : s.prototypes <+ ps
  /-- The set is a whole family, whose members have the key and their suffixes as names, or it is
  a member of a dissolved family, under its full name and without a suffix. -/
  origin :
    (s = whole ps key ∧ ¬ s.Dissolves ∧
        ∀ m ∈ s.members, splitSuffix m.prototype.name = (key, m.suffix?)) ∨
      ∃ p ∈ ps, (whole ps (splitSuffix p.name).1).Dissolves ∧ p.name = key ∧
        s.members = [⟨none, p⟩]

/-- What grouping returns for the prototypes `ps` is a partition of them. -/
structure IsPartition (ps : List Prototype) (grouped : Reported OverloadSets) : Prop where
  /-- A key stands once, and the keys are in order. -/
  sorted : grouped.value.Sorted
  groups : ∀ entry ∈ grouped.value, IsGroup ps entry.1 entry.2
  /-- The prototypes in the sets, those that lose a taken name and those of the dropped families
  are all prototypes, each as often as it was given.  Every loss and every dropped family is
  reported. -/
  accounted : ∃ lost dropped mismatches losses,
    (grouped.value.prototypes ++ (lost ++ dropped)).Perm ps ∧
      grouped.diagnostics = mismatches ++ losses ∧
      List.Forall₂ IsLoss lost losses ∧
      ∀ p ∈ dropped, ∃ node expected found,
        .arityMismatch (splitSuffix p.name).1 node expected found ∈ mismatches

variable {ps : List Prototype}

/-! ## Families -/

namespace OverloadSets

lemma prototypes_whole (base : String) :
    (whole ps base).prototypes = ps.filter fun p => (splitSuffix p.name).1 = base := by
  simp [whole, OverloadSet.prototypes, family, Function.comp_def]

lemma prototypes_whole_sublist (base : String) : (whole ps base).prototypes <+ ps := by
  rw [prototypes_whole]
  exact List.filter_sublist

lemma base_of_mem_whole {base : String} {p : Prototype} (h : p ∈ (whole ps base).prototypes) :
    (splitSuffix p.name).1 = base := by
  rw [prototypes_whole] at h
  exact of_decide_eq_true (List.mem_filter.1 h).2

lemma splitSuffix_of_mem_whole {base : String} {m : OverloadMember}
    (h : m ∈ (whole ps base).members) : splitSuffix m.prototype.name = (base, m.suffix?) := by
  obtain ⟨p, hp, rfl⟩ := List.mem_map.1 h
  exact Prod.ext (of_decide_eq_true (List.mem_filter.1 hp).2) rfl

end OverloadSets

/-! ## Members that no input tells apart -/

namespace OverloadSet

variable {s : OverloadSet}

lemma sameInputs_iff {p q : Prototype} :
    sameInputs p q = true ↔ ∀ (index : Nat) (x y : Socket), p.inputs[index]? = some x →
      q.inputs[index]? = some y → x.runtimeType = y.runtimeType := by
  simp only [sameInputs, List.all_eq_true, decide_eq_true_eq]
  constructor
  · intro h index x y hx hy
    exact h (x, y) (List.mem_iff_getElem?.2 ⟨index, List.getElem?_zip_eq_some.2 ⟨hx, hy⟩⟩)
  · intro h pair hpair
    obtain ⟨index, hindex⟩ := List.mem_iff_getElem?.1 hpair
    obtain ⟨hx, hy⟩ := List.getElem?_zip_eq_some.1 hindex
    exact h index pair.1 pair.2 hx hy

/-- Comparing every member with the first one compares all of them, at every position. -/
lemma Uniform.isIndistinguishable_iff (hs : s.Uniform) :
    s.isIndistinguishable = true ↔ ∀ index < s.arity, s.SharesType index := by
  rcases hprototypes : s.prototypes with _ | ⟨first, rest⟩
  · obtain ⟨p, hp⟩ := hs.exists_prototype
    exact absurd hp (by simp [hprototypes])
  have hfirst : first ∈ s.prototypes := by simp [hprototypes]
  simp only [isIndistinguishable, hprototypes, List.all_eq_true]
  constructor
  · intro h index hindex x hx y hy
    obtain ⟨z, hz⟩ := hs.exists_socket hindex hfirst
    have hagree : ∀ x ∈ s.socketsAt index, x.runtimeType = z.runtimeType := by
      intro x hx
      obtain ⟨p, hp, hpx⟩ := mem_socketsAt_iff.1 hx
      rw [hprototypes] at hp
      rcases List.mem_cons.1 hp with rfl | hp
      · rw [Option.some.inj (hpx.symm.trans hz)]
      · exact sameInputs_iff.1 (h p hp) index x z hpx hz
    rw [hagree x hx, hagree y hy]
  · intro h p hp
    have hmem : p ∈ s.prototypes := by simp [hprototypes, hp]
    exact sameInputs_iff.2 fun index x y hx hy =>
      h index (hs.lt_arity hmem hx) x (mem_socketsAt hmem hx) y (mem_socketsAt hfirst hy)

/-- A set is taken apart when it is not a single member and no input tells its members apart. -/
lemma Uniform.dissolves_iff (hs : s.Uniform) :
    s.Dissolves ↔ (!s.isSingle && s.isIndistinguishable) = true := by
  have hlength : 0 < s.members.length := List.length_pos_iff.2 hs.nonempty
  have hseveral : (!s.isSingle) = true ↔ 1 < s.members.length := by
    simp only [isSingle, Bool.not_eq_true', decide_eq_false_iff_not]
    omega
  rw [Bool.and_eq_true, hseveral, hs.isIndistinguishable_iff]
  exact ⟨fun h => ⟨h.several, h.shared⟩, fun h => ⟨h.1, hs.arity_eq, h.2⟩⟩

/-- Several members of a set that stays whole are told apart by some input. -/
lemma Uniform.exists_not_sharesType (hs : s.Uniform) (h : ¬ s.Dissolves)
    (hseveral : 1 < s.members.length) : ∃ index < s.arity, ¬ s.SharesType index := by
  by_contra hall
  push Not at hall
  exact h ⟨hseveral, hs.arity_eq, hall⟩

end OverloadSet

/-! ## Sets -/

namespace OverloadSets

/-- The sets with one number of inputs, before any of them is dissolved. -/
def uniform (ps : List Prototype) : OverloadSets := (dropMismatched (collect ps)).value

lemma sorted_uniform (ps : List Prototype) : (uniform ps).Sorted := (sorted_collect ps).filter _

lemma mem_uniform {base : String} {s : OverloadSet} (h : (base, s) ∈ uniform ps) :
    s = whole ps base ∧ s.Uniform :=
  ⟨(eq_family_of_mem_collect (mem_dropMismatched_iff.1 h).1).1,
    (wellGrouped_of_mem_dropMismatched h).toUniform⟩

lemma mem_dissolvable_iff {base : String} :
    base ∈ dissolvable (uniform ps) ↔ ∃ s, (base, s) ∈ uniform ps ∧ s.Dissolves := by
  simp only [dissolvable, keys, List.mem_map, List.mem_filter, Prod.exists, exists_and_right,
    exists_eq_right]
  exact exists_congr fun s => and_congr_right fun h => (mem_uniform h).2.dissolves_iff.symm

end OverloadSets

/-- A set that grouping returns is a whole family that does not dissolve, or it stands alone for a
member of a family that does. -/
lemma mem_group_cases {key : String} {s : OverloadSet} (h : (key, s) ∈ (group ps).value) :
    (s = whole ps key ∧ s.Uniform ∧ ¬ s.Dissolves) ∨
      ∃ p ∈ ps, (whole ps (splitSuffix p.name).1).Dissolves ∧ p.name = key ∧ s = single p := by
  rcases mem_dissolveAll (sorted_uniform ps) h with
    ⟨hmem, hnot⟩ | ⟨base, hbase, s', hmem, p, hp, heq⟩
  · obtain ⟨hwhole, huniform⟩ := mem_uniform hmem
    exact Or.inl ⟨hwhole, huniform, fun hd => hnot (mem_dissolvable_iff.2 ⟨s, hmem, hd⟩)⟩
  · obtain ⟨rfl, rfl⟩ := Prod.mk.inj heq
    obtain ⟨s'', hmem', hdissolves⟩ := mem_dissolvable_iff.1 hbase
    obtain ⟨rfl, -⟩ := mem_uniform hmem
    obtain ⟨rfl, -⟩ := mem_uniform hmem'
    refine Or.inr ⟨p, (prototypes_whole_sublist base).subset hp, ?_, rfl, rfl⟩
    rwa [base_of_mem_whole hp]

lemma isGroup_of_mem_group {key : String} {s : OverloadSet} (h : (key, s) ∈ (group ps).value) :
    IsGroup ps key s := by
  have hgrouped := wellGrouped_of_mem_group h
  rcases mem_group_cases h with ⟨rfl, huniform, hwhole⟩ | ⟨p, hp, hdissolves, rfl, rfl⟩
  · exact
      { toUniform := huniform
        baseName_eq := rfl
        distinguished := huniform.exists_not_sharesType hwhole
        sublist := prototypes_whole_sublist key
        origin := Or.inl ⟨rfl, hwhole, fun m hm => splitSuffix_of_mem_whole hm⟩ }
  · exact
      { toUniform := hgrouped.toUniform
        baseName_eq := rfl
        distinguished := fun hseveral => absurd hseveral (by simp [single])
        sublist := List.singleton_sublist.2 hp
        origin := Or.inr ⟨p, hp, hdissolves, rfl, rfl⟩ }

/-! ## The partition -/

/-- A dropped family is reported under its base. -/
lemma exists_report_of_mem_mismatched {p : Prototype}
    (h : p ∈ (mismatched (collect ps)).prototypes) : ∃ node expected found,
      .arityMismatch (splitSuffix p.name).1 node expected found
        ∈ (dropMismatched (collect ps)).diagnostics := by
  obtain ⟨⟨base, s⟩, hentry, hp⟩ := mem_prototypes_iff.1 h
  obtain ⟨hmem, hreported⟩ := List.mem_filter.1 hentry
  obtain ⟨rfl, -⟩ := eq_family_of_mem_collect hmem
  have hbase : (splitSuffix p.name).1 = base := base_of_mem_whole hp
  obtain ⟨d, hd⟩ := List.exists_mem_of_ne_nil _ (by simpa using hreported)
  obtain ⟨q, -, rfl⟩ := List.mem_map.1 hd
  rw [hbase]
  exact ⟨_, _, _, List.mem_flatMap.2 ⟨_, hmem, hd⟩⟩

/-- **Grouping is a partition.**  The returned sets are the families of the bases, as far as their
members have one number of inputs, and the single members of those that no input tells apart.  A
prototype stands in one set only, and it is missing only when its family is dropped with a report
or when its full name is taken, which is reported as well. -/
theorem group_isPartition (ps : List Prototype) : IsPartition ps (group ps) where
  sorted := sorted_group ps
  groups := fun _ h => isGroup_of_mem_group h
  accounted := by
    obtain ⟨lost, hloss, hperm⟩ := group_perm ps
    exact ⟨lost, _, _, _, hperm, rfl, hloss, fun p hp => exists_report_of_mem_mismatched hp⟩

end ShaderBindings
