/-
# Clashes of full names

When a family dissolves, a member whose full name is a key already is left out, and the set that
stands under the name is reported as its owner.  The families dissolve in the order of their bases.
The base of a name comes before the name, so a family whose base is the full name of some member of
an earlier family is still waiting to dissolve when that member is placed (`Pending`).  It is
reported as the owner, and then it dissolves as well and leaves the name to nobody.

So a report tells of a set that keeps the name, unless the family under the name dissolves after the
report (`Vacates`).
-/
import ShaderBindings.Proofs.Dispatch
import ShaderBindings.Proofs.Partition
import ShaderBindings.Proofs.Suffixes

namespace ShaderBindings

open Dictionary OverloadSets

/-- The set under a name has a member with the given node name. -/
def OverloadSets.Holds (sets : OverloadSets) (name id : String) : Prop :=
  ∃ s, sets.get? name = some s ∧ ∃ p ∈ s.prototypes, p.id = id

/-- A family dissolves under a name that is the full name of members of another family. -/
structure Vacates (ps : List Prototype) (name : String) : Prop where
  dissolves : (whole ps name).Dissolves
  /-- The name has a type suffix, so that it belongs to the family of another base. -/
  suffixed : (splitSuffix name).1 ≠ name

/-- The families that still have to dissolve, in the order of their bases. -/
structure Pending (ps : List Prototype) (sets : OverloadSets) (bases : List String) : Prop where
  sorted : sets.Sorted
  filled : ∀ entry ∈ sets, entry.2.members ≠ []
  ordered : bases.Pairwise (· < ·)
  /-- No step so far has touched a family that waits. -/
  waiting : ∀ base ∈ bases, sets.get? base = some (whole ps base)

/-! ## A name comes after its base -/

lemma splitSuffix_prefix (name : String) : (splitSuffix name).1.toList <+: name.toList := by
  refine ⟨((splitSuffix name).2.getD "").toList, ?_⟩
  rw [← String.toList_append, splitSuffix_append]

lemma splitSuffix_le (name : String) : (splitSuffix name).1 ≤ name := by
  obtain ⟨rest, hrest⟩ := splitSuffix_prefix name
  rw [String.le_iff_toList_le, ← hrest]
  rcases rest with _ | ⟨c, rest⟩
  · rw [List.append_nil]
  · have hlt : (splitSuffix name).1.toList ++ [] < (splitSuffix name).1.toList ++ c :: rest :=
      List.Lex.append_left _ List.Lex.nil _
    rw [List.append_nil] at hlt
    exact hlt.le

lemma Vacates.splitSuffix_lt {ps : List Prototype} {name : String} (h : Vacates ps name) :
    (splitSuffix name).1 < name := lt_of_le_of_ne (splitSuffix_le name) h.suffixed

/-! ## What dissolving leaves in place -/

namespace OverloadSets

variable {sets : OverloadSets} {s : OverloadSet} {key base : String} {bases : List String}
  {ps : List Prototype}

/-- A set that stands alone takes no key from another set. -/
lemma get?_addSingle (hs : sets.Sorted) (p : Prototype) (h : sets.get? key = some s) :
    (addSingle sets p).value.get? key = some s := by
  rw [addSingle]
  split
  · exact h
  · rename_i hnone
    rw [Dictionary.insert, hs.get?_alter, if_neg]
    · exact h
    · rintro rfl
      exact absurd (hnone.symm.trans h) (by simp)

lemma get?_addSingles (hs : sets.Sorted) (ps : List Prototype) (h : sets.get? key = some s) :
    (addSingles sets ps).value.get? key = some s := by
  induction ps generalizing sets with
  | nil => exact h
  | cons p ps ih => exact ih (sorted_addSingle hs p) (get?_addSingle hs p h)

lemma get?_dissolveOne (hs : sets.Sorted) (hkey : key ≠ base) (h : sets.get? key = some s) :
    (dissolveOne sets base).value.get? key = some s := by
  rw [dissolveOne]
  split
  · have hmem : (key, s) ∈ sets.erase base := mem_erase_iff.2 ⟨mem_of_get? h, hkey⟩
    exact get?_addSingles (hs.erase base) _ ((hs.erase base).get?_of_mem hmem)
  · exact h

lemma value_dissolveAll_cons (sets : OverloadSets) (base : String) (bases : List String) :
    (dissolveAll sets (base :: bases)).value
      = (dissolveAll (dissolveOne sets base).value bases).value := rfl

lemma get?_dissolveAll (hs : sets.Sorted) (hkey : key ∉ bases) (h : sets.get? key = some s) :
    (dissolveAll sets bases).value.get? key = some s := by
  induction bases generalizing sets with
  | nil => exact h
  | cons base bases ih =>
    rw [List.mem_cons, not_or] at hkey
    rw [value_dissolveAll_cons]
    exact ih (sorted_dissolveOne hs base) hkey.2 (get?_dissolveOne hs hkey.1 h)

lemma filled_addSingles (hs : sets.Sorted) (hfilled : ∀ entry ∈ sets, entry.2.members ≠ [])
    (ps : List Prototype) : ∀ entry ∈ (addSingles sets ps).value, entry.2.members ≠ [] := by
  intro entry hentry
  rcases mem_addSingles hs hentry with hentry | ⟨p, -, rfl⟩
  · exact hfilled entry hentry
  · exact List.cons_ne_nil _ _

/-! ## What a report says when it is made -/

lemma holds_of_head {found : OverloadSet} (hget : sets.get? key = some found)
    (hne : found.members ≠ []) :
    sets.Holds key ((found.prototypes.head?.map (·.id)).getD "") := by
  obtain ⟨m, rest, hmembers⟩ := List.exists_cons_of_ne_nil hne
  have hprototypes : found.prototypes = m.prototype :: rest.map (·.prototype) := by
    rw [OverloadSet.prototypes, hmembers, List.map_cons]
  refine ⟨found, hget, m.prototype, ?_, ?_⟩
  · rw [hprototypes]
    exact List.mem_cons_self
  · rw [hprototypes]
    rfl

/-- A member is left out because of a set that has the reported node and stays while the other
members are placed. -/
lemma holds_addSingles (hs : sets.Sorted) (hfilled : ∀ entry ∈ sets, entry.2.members ≠ [])
    {name first second : String}
    (h : .duplicateBinding name first second ∈ (addSingles sets ps).diagnostics) :
    (∃ p ∈ ps, p.name = name) ∧ (addSingles sets ps).value.Holds name first := by
  induction ps generalizing sets with
  | nil => exact absurd h List.not_mem_nil
  | cons p rest ih =>
    have hsorted := sorted_addSingle hs p
    rcases List.mem_append.1 h with h | h
    -- the report is on the first member
    · refine ⟨⟨p, List.mem_cons_self, ?_⟩, ?_⟩
      · rw [addSingle] at h
        split at h
        · exact (Diagnostic.duplicateBinding.inj (List.mem_singleton.1 h)).1.symm
        · exact absurd h List.not_mem_nil
      · rw [addSingle] at h
        split at h
        · rename_i found hget
          obtain ⟨rfl, rfl, -⟩ := Diagnostic.duplicateBinding.inj (List.mem_singleton.1 h)
          have hne := hfilled _ (mem_of_get? hget)
          have hlater := get?_addSingles hsorted rest (get?_addSingle hs p hget)
          exact holds_of_head hlater hne
        · exact absurd h List.not_mem_nil
    -- the report is on a later member
    · have hfilled' : ∀ entry ∈ (addSingle sets p).value, entry.2.members ≠ [] :=
        filled_addSingles hs hfilled [p]
      obtain ⟨⟨q, hq, hname⟩, hholds⟩ := ih hsorted hfilled' h
      exact ⟨⟨q, List.mem_cons_of_mem p hq, hname⟩, hholds⟩

end OverloadSets

/-! ## The families that wait -/

namespace Pending

variable {ps : List Prototype} {sets : OverloadSets} {base name first second : String}
  {bases : List String}

lemma start (ps : List Prototype) : Pending ps (uniform ps) (dissolvable (uniform ps)) where
  sorted := sorted_uniform ps
  filled := fun entry hentry => (mem_uniform hentry).2.nonempty
  ordered := List.Pairwise.map _ (fun _ _ h => h) ((sorted_uniform ps).filter _)
  waiting := by
    intro base hbase
    obtain ⟨s, hmem, -⟩ := mem_dissolvable_iff.1 hbase
    rw [(sorted_uniform ps).get?_of_mem hmem, (mem_uniform hmem).1]

lemma dissolveOne_eq (h : Pending ps sets (base :: bases)) :
    dissolveOne sets base = addSingles (sets.erase base) (whole ps base).prototypes := by
  rw [dissolveOne, h.waiting base List.mem_cons_self]

lemma filled_erase (h : Pending ps sets (base :: bases)) :
    ∀ entry ∈ sets.erase base, entry.2.members ≠ [] :=
  fun entry hentry => h.filled entry (mem_erase_iff.1 hentry).1

/-- The members of a family that waits have its base. -/
lemma base_of_mem (h : Pending ps sets bases) (hbase : base ∈ bases) {s : OverloadSet}
    (hmem : (base, s) ∈ sets) {p : Prototype} (hp : p ∈ s.prototypes) :
    (splitSuffix p.name).1 = base := by
  have hs : s = whole ps base :=
    Option.some.inj ((h.sorted.get?_of_mem hmem).symm.trans (h.waiting base hbase))
  rw [hs] at hp
  exact base_of_mem_whole hp

/-- After the first family the others still wait. -/
lemma step (h : Pending ps sets (base :: bases)) :
    Pending ps (dissolveOne sets base).value bases where
  sorted := sorted_dissolveOne h.sorted base
  filled := by
    rw [h.dissolveOne_eq]
    exact filled_addSingles (h.sorted.erase base) h.filled_erase _
  ordered := (List.pairwise_cons.1 h.ordered).2
  waiting := by
    intro later hlater
    have hlt : base < later := (List.pairwise_cons.1 h.ordered).1 later hlater
    exact get?_dissolveOne h.sorted hlt.ne' (h.waiting later (List.mem_cons_of_mem base hlater))

/-- A report of one step is on a member of the family, and the step leaves the reported set. -/
lemma holds_step (h : Pending ps sets (base :: bases))
    (hd : .duplicateBinding name first second ∈ (dissolveOne sets base).diagnostics) :
    (splitSuffix name).1 = base ∧ (dissolveOne sets base).value.Holds name first := by
  rw [h.dissolveOne_eq] at hd ⊢
  obtain ⟨⟨p, hp, rfl⟩, hholds⟩ := holds_addSingles (h.sorted.erase base) h.filled_erase hd
  exact ⟨base_of_mem_whole hp, hholds⟩

/-- The reported set is there at the end, or its family waits when the report is made. -/
lemma holds_or_mem (h : Pending ps sets bases)
    (hd : .duplicateBinding name first second ∈ (dissolveAll sets bases).diagnostics) :
    (dissolveAll sets bases).value.Holds name first ∨
      name ∈ bases ∧ (splitSuffix name).1 ≠ name := by
  induction bases generalizing sets with
  | nil => exact absurd hd List.not_mem_nil
  | cons base rest ih =>
    rw [value_dissolveAll_cons]
    rcases List.mem_append.1 hd with hd | hd
    -- the report is made for a member of the first family
    · obtain ⟨hbase, s, hget, hfirst⟩ := h.holds_step hd
      by_cases hwaits : name ∈ rest
      · have hlt : base < name := (List.pairwise_cons.1 h.ordered).1 name hwaits
        exact Or.inr ⟨List.mem_cons_of_mem base hwaits, by rw [hbase]; exact hlt.ne⟩
      · exact Or.inl ⟨s, get?_dissolveAll h.step.sorted hwaits hget, hfirst⟩
    -- the report is made later
    · rcases ih h.step hd with hholds | ⟨hmem, hne⟩
      · exact Or.inl hholds
      · exact Or.inr ⟨List.mem_cons_of_mem base hmem, hne⟩

/-- No step after the family of a base places a set under a name with that base or a smaller one. -/
lemma get?_eq_none_of_lt (h : Pending ps sets bases) (hget : sets.get? name = none)
    (hlater : ∀ base ∈ bases, (splitSuffix name).1 < base) :
    (dissolveAll sets bases).value.get? name = none := by
  refine get?_eq_none_iff.2 fun entry hentry hname => ?_
  rcases mem_dissolveAll h.sorted hentry with ⟨hmem, -⟩ | ⟨base, hbase, s, hmem, p, hp, rfl⟩
  · exact get?_eq_none_iff.1 hget entry hmem hname
  · have hlt := hlater base hbase
    have hpname : p.name = name := hname
    rw [← h.base_of_mem hbase hmem hp, hpname] at hlt
    exact absurd hlt (lt_irrefl _)

/-- A family that waits under the full name of a member of another family leaves nothing there. -/
lemma get?_eq_none (h : Pending ps sets bases) (hname : name ∈ bases)
    (hlt : (splitSuffix name).1 < name) : (dissolveAll sets bases).value.get? name = none := by
  induction bases generalizing sets with
  | nil => exact absurd hname List.not_mem_nil
  | cons base rest ih =>
    rw [value_dissolveAll_cons]
    rcases List.mem_cons.1 hname with rfl | hname
    -- the family dissolves now, and the name is that of none of its members
    · refine h.step.get?_eq_none_of_lt ?_ fun later hlater =>
        hlt.trans ((List.pairwise_cons.1 h.ordered).1 later hlater)
      refine get?_eq_none_iff.2 fun entry hentry heq => ?_
      rcases mem_dissolveOne h.sorted hentry with ⟨-, hne⟩ | ⟨s, hmem, p, hp, rfl⟩
      · exact hne heq
      · have hbase := h.base_of_mem List.mem_cons_self hmem hp
        have hpname : p.name = name := heq
        rw [hpname] at hbase
        exact hlt.ne hbase
    · exact ih h.step hname

end Pending

/-! ## The reports of grouping -/

section Reports

variable {ps : List Prototype} {name first second : String}

lemma mem_dissolvable_of_dissolves (h : (whole ps name).Dissolves) :
    name ∈ dissolvable (uniform ps) := by
  refine mem_dissolvable_iff.2 ⟨whole ps name, ?_, h⟩
  have hne : family ps name ≠ [] := by
    intro hnil
    have hseveral : 1 < (family ps name).length := h.several
    simp [hnil] at hseveral
  refine mem_dropMismatched_iff.2 ⟨mem_of_get? ?_, h.arity_eq⟩
  rw [get?_collect, if_neg hne]
  rfl

/-- Grouping reports clashes of names when it dissolves families. -/
lemma mem_dissolveAll_of_mem_group
    (h : .duplicateBinding name first second ∈ (group ps).diagnostics) :
    .duplicateBinding name first second
      ∈ (dissolveAll (uniform ps) (dissolvable (uniform ps))).diagnostics := by
  rcases List.mem_append.1 h with h | h
  · obtain ⟨entry, -, h⟩ := List.mem_flatMap.1 h
    obtain ⟨p, -, heq⟩ := List.mem_map.1 h
    exact absurd heq (by simp)
  · exact h

lemma get?_group_of_vacates (h : Vacates ps name) : (group ps).value.get? name = none :=
  (Pending.start ps).get?_eq_none (mem_dissolvable_of_dissolves h.dissolves) h.splitSuffix_lt

/-- **A reported clash is one with a set that keeps the name, unless the family under the name
dissolves after the report.**  In that case nothing stands under the name in the end. -/
theorem group_holds_iff (h : .duplicateBinding name first second ∈ (group ps).diagnostics) :
    ((group ps).value.Holds name first ↔ ¬ Vacates ps name) ∧
      (Vacates ps name → (group ps).value.get? name = none) := by
  refine ⟨⟨?_, fun hkept => ?_⟩, get?_group_of_vacates⟩
  · rintro ⟨s, hget, -⟩ hvacates
    exact absurd (hget.symm.trans (get?_group_of_vacates hvacates)) (by simp)
  · rcases (Pending.start ps).holds_or_mem (mem_dissolveAll_of_mem_group h) with
      hholds | ⟨hmem, hsuffixed⟩
    · exact hholds
    · obtain ⟨s, hs, hdissolves⟩ := mem_dissolvable_iff.1 hmem
      rw [(mem_uniform hs).1] at hdissolves
      exact absurd ⟨hdissolves, hsuffixed⟩ hkept

/-- A node without inputs. -/
def tintNode (suffix : String) : Prototype :=
  { id := "ND_tint" ++ suffix
    name := "tint" ++ suffix
    inputs := []
    output := plainSocket "out" "color3f" .free
    description? := none
    displayName? := none
    availability? := none }

/-- The nodes with some suffixes. -/
def tintNodes (suffixes : List String) : List Prototype := suffixes.map tintNode

theorem group_holds_iff_tint :
    .duplicateBinding "tint_color3" "ND_tint_color3_float" "ND_tint_color3"
        ∈ (group (tintNodes ["_color3", "_color4", "_color3_float"])).diagnostics ∧
      (group (tintNodes ["_color3", "_color4", "_color3_float"])).value.Holds "tint_color3"
        "ND_tint_color3_float" := by
  have hreported : .duplicateBinding "tint_color3" "ND_tint_color3_float" "ND_tint_color3"
      ∈ (group (tintNodes ["_color3", "_color4", "_color3_float"])).diagnostics := by
    decide +kernel
  refine ⟨hreported, (group_holds_iff hreported).1.2 fun hvacates => ?_⟩
  -- the family under the name has one member
  have hlength : (whole (tintNodes ["_color3", "_color4", "_color3_float"])
      "tint_color3").members.length = 1 := by decide +kernel
  exact absurd hvacates.dissolves.several (by rw [hlength]; exact lt_irrefl 1)

/-- Two families dissolve, and the second one is reported as the owner of a name of the first. -/
theorem not_holds_tint :
    ¬ ∀ ps name first second, .duplicateBinding name first second ∈ (group ps).diagnostics →
      (group ps).value.Holds name first := by
  intro hall
  have hreported : .duplicateBinding "tint_color3" "ND_tint_color3_float" "ND_tint_color3"
      ∈ (group (tintNodes ["_color3", "_color4", "_color3_float",
        "_color3_half"])).diagnostics := by
    decide +kernel
  have hnone : (group (tintNodes ["_color3", "_color4", "_color3_float",
      "_color3_half"])).value.get? "tint_color3" = none := by
    decide +kernel
  obtain ⟨s, hget, -⟩ := hall _ _ _ _ hreported
  exact absurd (hget.symm.trans hnone) (by simp)

end Reports

end ShaderBindings
