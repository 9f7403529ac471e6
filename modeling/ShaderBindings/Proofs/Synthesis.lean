/-
# Synthesis of all sets

Every set with members has a binding that it is to get (`made`), and reports on the way to it.
Synthesis adds this binding to those before it, or it leaves the set out with a fatal report:
when the members mix enumerations with something else, and when the name is taken.  The reports
are of the kinds of `Diagnostic.IsSynthesis`.
-/
import ShaderBindings.Proofs.Dispatch
import ShaderBindings.Session

namespace ShaderBindings

/-- The diagnostic is of a kind that the synthesis of bindings reports. -/
inductive Diagnostic.IsSynthesis : Diagnostic → Prop where
  /-- Unrelated categories are joined. -/
  | widened (context : String) (texts : List String) :
      IsSynthesis (.unjoinableCategories context texts)
  /-- No input tells the members of a set apart. -/
  | undiscriminated (binding : String) (members : Nat) (strict : Bool) :
      IsSynthesis (.noDiscriminator binding members strict)
  /-- A member has the conditions of an earlier one. -/
  | shadowed (binding node first : String) : IsSynthesis (.unreachableBranch binding node first)
  /-- The members declare several availabilities. -/
  | available (binding : String) (declared : List String) (chosen : String) :
      IsSynthesis (.availabilityMismatch binding declared chosen)
  /-- The members mix enumerations with something else. -/
  | mixed (base position detail : String) : IsSynthesis (.roleMismatch base position detail)
  /-- The name of a binding is taken. -/
  | taken (name first second : String) : IsSynthesis (.duplicateBinding name first second)

lemma Diagnostics.hasFatal_append (ds es : Diagnostics) :
    Diagnostics.hasFatal (ds ++ es) = (ds.hasFatal || es.hasFatal) := List.any_append

lemma Diagnostics.hasFatal_append_singleton {ds : Diagnostics} {d : Diagnostic}
    (hfatal : d.isFatal = true) : Diagnostics.hasFatal (ds ++ [d]) = true := by
  simp [Diagnostics.hasFatal, hfatal]

lemma Diagnostics.hasFatal_of_mem {ds : Diagnostics} {d : Diagnostic} (hd : d ∈ ds)
    (hfatal : d.isFatal = true) : ds.hasFatal = true := List.any_eq_true.2 ⟨d, hd, hfatal⟩

namespace OverloadSet

variable {s : OverloadSet} {c : Category} {d : Diagnostic}

/-- The category that a set returns. -/
def returned (s : OverloadSet) : Category := (Category.join? s.outputCategories).getD .value

lemma join?_eq_returned (hne : s.members ≠ []) :
    Category.join? s.outputCategories = some s.returned := by
  obtain ⟨c, hc, -⟩ := analyze_cases hne
  rw [returned, hc, Option.getD_some]

/-- The binding that a set is to get. -/
def made (s : OverloadSet) (enums : EnumRegistry) : Binding :=
  s.binding (s.analysis s.returned) enums

/-- The reports on the way to the binding. -/
def madeReports (s : OverloadSet) (strict : Bool) : Diagnostics :=
  s.outputReport ++ s.bindingReports (s.analysis s.returned) strict

/-! ## The kinds of reports -/

lemma mem_joinReport {context : String} {cs : List Category} (hne : cs ≠ [])
    (hd : d ∈ Category.joinReport context cs) :
    d = .unjoinableCategories context (Category.texts cs) := by
  rw [Category.joinReport_of_ne_nil hne] at hd
  split_ifs at hd
  · exact List.mem_singleton.1 hd
  · exact absurd hd List.not_mem_nil

lemma outputCategories_ne_nil (hne : s.members ≠ []) : s.outputCategories ≠ [] := by
  simpa [outputCategories, prototypes] using hne

lemma exists_of_mem_outputReport (hne : s.members ≠ []) (hd : d ∈ s.outputReport) :
    ∃ context texts, d = .unjoinableCategories context texts :=
  ⟨_, _, mem_joinReport (outputCategories_ne_nil hne) hd⟩

/-- The reports on the parameters are on joins that have members. -/
lemma exists_of_mem_parameterReports
    (hd : d ∈ (s.analysis c).positions.flatMap (s.parameterReport (s.analysis c))) :
    ∃ context texts, d = .unjoinableCategories context texts := by
  obtain ⟨p, hp, hd⟩ := List.mem_flatMap.1 hd
  rw [parameterReport] at hd
  split_ifs at hd
  · exact ⟨_, _, mem_joinReport (categories_ne_nil hp) hd⟩
  · exact absurd hd List.not_mem_nil

lemma exists_of_mem_availabilityReport {binding : String}
    (hd : d ∈ s.availabilityReport binding) :
    ∃ declared chosen, d = .availabilityMismatch binding declared chosen := by
  rw [availabilityReport] at hd
  split at hd
  · split_ifs at hd
    · exact ⟨_, _, List.mem_singleton.1 hd⟩
    · exact absurd hd List.not_mem_nil
  · exact absurd hd List.not_mem_nil

lemma exists_of_mem_shadowReports {binding : String} {positions : List Nat}
    {earlier : List Branch} {ps : List Prototype}
    (hd : d ∈ shadowReports binding positions earlier ps) :
    ∃ node first, d = .unreachableBranch binding node first := by
  induction ps generalizing earlier with
  | nil => exact absurd hd List.not_mem_nil
  | cons p rest ih =>
    rw [shadowReports] at hd
    split at hd
    · rcases List.mem_append.1 hd with hd | hd
      · split_ifs at hd
        · exact absurd hd List.not_mem_nil
        · exact ⟨_, _, List.mem_singleton.1 hd⟩
      · exact ih hd
    · exact ih hd

lemma exists_of_mem_discriminatorReport {binding : String} {positions : List Nat} {strict : Bool}
    (hd : d ∈ s.discriminatorReport binding positions strict) :
    ∃ members strict, d = .noDiscriminator binding members strict := by
  rw [discriminatorReport] at hd
  split_ifs at hd
  · exact ⟨_, _, List.mem_singleton.1 hd⟩
  · exact absurd hd List.not_mem_nil

lemma isSynthesis_of_mem_outputReport (hne : s.members ≠ []) (hd : d ∈ s.outputReport) :
    d.IsSynthesis := by
  obtain ⟨_, _, rfl⟩ := exists_of_mem_outputReport hne hd
  exact .widened _ _

lemma isSynthesis_of_mem_madeReports (hs : s.Uniform) {strict : Bool}
    (hd : d ∈ s.madeReports strict) : d.IsSynthesis := by
  simp only [madeReports, bindingReports, dispatchReports, List.mem_append] at hd
  rcases hd with hd | hd | (hd | hd) | hd
  · exact isSynthesis_of_mem_outputReport hs.nonempty hd
  · obtain ⟨_, _, rfl⟩ := exists_of_mem_parameterReports hd
    exact .widened _ _
  · obtain ⟨_, _, rfl⟩ := exists_of_mem_discriminatorReport hd
    exact .undiscriminated _ _ _
  · obtain ⟨_, _, rfl⟩ := exists_of_mem_shadowReports hd
    exact .shadowed _ _ _
  · obtain ⟨_, _, rfl⟩ := exists_of_mem_availabilityReport hd
    exact .available _ _ _

end OverloadSet

/-! ## One set -/

namespace Session

open OverloadSet

variable {s : OverloadSet} {strict : Bool} {enums : EnumRegistry} {bindings : List Binding}

/-- A set with members gets its binding, or a report that its members mix enumerations with
something else. -/
lemma bindingOf_cases (hne : s.members ≠ []) (strict : Bool) (enums : EnumRegistry) :
    ((∀ index < s.arity, s.hasMixedRoles index = false) ∧
        bindingOf strict enums s = ⟨.ok (s.made enums), s.madeReports strict⟩) ∨
      ∃ index fault, s.MixesAt index ∧ bindingOf strict enums s
        = ⟨.error fault, s.outputReport ++ [s.mixedReport (s.inputName index)]⟩ := by
  obtain ⟨c, hc, ⟨hroles, heq⟩ | ⟨index, fault, hmixed, heq⟩⟩ := analyze_cases hne
  · left
    obtain rfl := Option.some.inj ((join?_eq_returned hne).symm.trans hc)
    refine ⟨hroles, ?_⟩
    simp only [bindingOf, heq, synthesize_analysis]
    rfl
  · right
    refine ⟨index, fault, hmixed, ?_⟩
    simp only [bindingOf, heq]

/-- A set with members adds its binding, whose name is new, or it adds nothing: the name is taken,
or the members mix enumerations with something else. -/
lemma addBinding_cases (hne : s.members ≠ []) (strict : Bool) (enums : EnumRegistry)
    (bindings : List Binding) :
    (addBinding strict enums bindings s = ⟨bindings ++ [s.made enums], s.madeReports strict⟩ ∧
        (∀ index < s.arity, s.hasMixedRoles index = false) ∧
          ∀ first ∈ bindings, first.name ≠ (s.made enums).name) ∨
      (∃ first ∈ bindings, addBinding strict enums bindings s = ⟨bindings, s.madeReports strict
          ++ [.duplicateBinding (s.made enums).name first.baseName s.baseName]⟩ ∧
        (∀ index < s.arity, s.hasMixedRoles index = false) ∧
          first.name = (s.made enums).name) ∨
      ∃ index, addBinding strict enums bindings s
          = ⟨bindings, s.outputReport ++ [s.mixedReport (s.inputName index)]⟩ ∧
        s.MixesAt index := by
  rw [addBinding]
  rcases bindingOf_cases hne strict enums with ⟨hroles, heq⟩ | ⟨index, fault, hmixed, heq⟩
  · simp only [heq]
    split
    · rename_i first hfirst
      exact Or.inr (Or.inl ⟨first, List.mem_of_find?_eq_some hfirst, rfl, hroles,
        by simpa using List.find?_some hfirst⟩)
    · rename_i hnone
      exact Or.inl ⟨rfl, hroles,
        fun first hmem => by simpa using List.find?_eq_none.1 hnone first hmem⟩
  -- the report on the mixture is fatal, so no further one is made
  · right; right
    have hfatal : Diagnostics.hasFatal
        (s.outputReport ++ [s.mixedReport (s.inputName index)]) = true :=
      Diagnostics.hasFatal_append_singleton rfl
    refine ⟨index, ?_, hmixed⟩
    simp only [heq, faultReport, hfatal, if_true, List.append_nil]

/-- A set that is left out has a fatal report. -/
lemma addBinding_of_not_fatal (hne : s.members ≠ [])
    (h : (addBinding strict enums bindings s).diagnostics.hasFatal = false) :
    addBinding strict enums bindings s = ⟨bindings ++ [s.made enums], s.madeReports strict⟩ ∧
      ∀ index < s.arity, s.hasMixedRoles index = false := by
  rcases addBinding_cases hne strict enums bindings with
    ⟨heq, hroles, -⟩ | ⟨first, -, heq, -⟩ | ⟨index, heq, -⟩
  · exact ⟨heq, hroles⟩
  · rw [heq, Diagnostics.hasFatal_append_singleton rfl] at h
    exact absurd h (by simp)
  · rw [heq, Diagnostics.hasFatal_append_singleton rfl] at h
    exact absurd h (by simp)

/-- A set adds its own binding at most. -/
lemma mem_addBinding (hne : s.members ≠ []) {b : Binding}
    (hb : b ∈ (addBinding strict enums bindings s).value) : b ∈ bindings ∨ b = s.made enums := by
  rcases addBinding_cases hne strict enums bindings with
    ⟨heq, -⟩ | ⟨first, -, heq, -⟩ | ⟨index, heq, -⟩
  · rw [heq] at hb
    rcases List.mem_append.1 hb with hb | hb
    · exact Or.inl hb
    · exact Or.inr (List.mem_singleton.1 hb)
  · rw [heq] at hb
    exact Or.inl hb
  · rw [heq] at hb
    exact Or.inl hb

/-- The reports on a set are of the kinds of the synthesis. -/
lemma isSynthesis_of_mem_addBinding (hs : s.Uniform) {d : Diagnostic}
    (hd : d ∈ (addBinding strict enums bindings s).diagnostics) : d.IsSynthesis := by
  rcases addBinding_cases hs.nonempty strict enums bindings with
    ⟨heq, -⟩ | ⟨first, -, heq, -⟩ | ⟨index, heq, -⟩
  · rw [heq] at hd
    exact OverloadSet.isSynthesis_of_mem_madeReports hs hd
  · rw [heq] at hd
    rcases List.mem_append.1 hd with hd | hd
    · exact OverloadSet.isSynthesis_of_mem_madeReports hs hd
    · rw [List.mem_singleton.1 hd]
      exact .taken _ _ _
  · rw [heq] at hd
    rcases List.mem_append.1 hd with hd | hd
    · exact OverloadSet.isSynthesis_of_mem_outputReport hs.nonempty hd
    · rw [List.mem_singleton.1 hd]
      exact .mixed _ _ _

/-! ## All sets -/

/-- The bindings of some sets are added behind those that are there, in the order of the sets. -/
lemma exists_added {sets : List OverloadSet} (strict : Bool) (enums : EnumRegistry)
    (bindings : List Binding) (hsets : ∀ s ∈ sets, s.members ≠ []) :
    ∃ added, (addBindings strict enums bindings sets).value = bindings ++ added ∧
      added.Sublist (sets.map (·.made enums)) := by
  induction sets generalizing bindings with
  | nil => exact ⟨[], (List.append_nil _).symm, List.Sublist.refl _⟩
  | cons s rest ih =>
    rw [List.forall_mem_cons] at hsets
    obtain ⟨added, hvalue, hsublist⟩ := ih (addBinding strict enums bindings s).value hsets.2
    rcases addBinding_cases hsets.1 strict enums bindings with
      ⟨heq, -⟩ | ⟨first, -, heq, -⟩ | ⟨index, heq, -⟩
    · refine ⟨s.made enums :: added, ?_, hsublist.cons_cons _⟩
      rw [addBindings, hvalue, heq, List.append_assoc, List.singleton_append]
    -- the set is left out
    · exact ⟨added, by rw [addBindings, hvalue, heq], hsublist.cons _⟩
    · exact ⟨added, by rw [addBindings, hvalue, heq], hsublist.cons _⟩

/-- The bindings that a session makes are those of the sets. -/
lemma exists_made_of_mem {s : Session} {sets : OverloadSets}
    (hsets : ∀ set ∈ sets.values, set.members ≠ []) {b : Binding}
    (hb : b ∈ (s.synthesizeAll sets).1.bindings) :
    ∃ set ∈ sets.values, b = set.made s.ledger.enums := by
  obtain ⟨added, hvalue, hsublist⟩ := exists_added s.strict s.ledger.enums [] hsets
  have hbindings : (s.synthesizeAll sets).1.bindings = added := hvalue
  rw [hbindings] at hb
  obtain ⟨set, hset, rfl⟩ := List.mem_map.1 (hsublist.subset hb)
  exact ⟨set, hset, rfl⟩

/-- The names of the bindings differ. -/
lemma nodup_addBindings {sets : List OverloadSet} (hsets : ∀ s ∈ sets, s.members ≠ [])
    (h : (bindings.map (·.name)).Nodup) :
    ((addBindings strict enums bindings sets).value.map (·.name)).Nodup := by
  induction sets generalizing bindings with
  | nil => exact h
  | cons s rest ih =>
    rw [List.forall_mem_cons] at hsets
    refine ih hsets.2 ?_
    rcases addBinding_cases hsets.1 strict enums bindings with
      ⟨heq, -, hname⟩ | ⟨first, -, heq, -⟩ | ⟨index, heq, -⟩
    -- the binding is added, under a name that is new
    · rw [heq, List.map_append, List.map_singleton]
      refine h.append (List.nodup_singleton _) ?_
      rw [List.disjoint_singleton]
      intro hmem
      obtain ⟨first, hfirst, heq⟩ := List.mem_map.1 hmem
      exact hname first hfirst heq
    -- the set is left out
    · rw [heq]
      exact h
    · rw [heq]
      exact h

/-- Without a fatal report every set has its binding, and the names of the bindings differ. -/
lemma addBindings_of_not_fatal {sets : List OverloadSet} (hsets : ∀ s ∈ sets, s.members ≠ [])
    (h : (addBindings strict enums bindings sets).diagnostics.hasFatal = false) :
    addBindings strict enums bindings sets
        = ⟨bindings ++ sets.map (·.made enums), sets.flatMap (·.madeReports strict)⟩ ∧
      ((bindings.map (·.name)).Nodup →
        ((bindings ++ sets.map (·.made enums)).map (·.name)).Nodup) := by
  have hall : addBindings strict enums bindings sets
      = ⟨bindings ++ sets.map (·.made enums), sets.flatMap (·.madeReports strict)⟩ := by
    induction sets generalizing bindings with
    | nil => simp [addBindings]
    | cons s rest ih =>
      rw [List.forall_mem_cons] at hsets
      rw [addBindings] at h ⊢
      rw [Diagnostics.hasFatal_append, Bool.or_eq_false_iff] at h
      obtain ⟨heq, -⟩ := addBinding_of_not_fatal hsets.1 h.1
      simp only [heq] at h ⊢
      rw [ih hsets.2 h.2]
      simp only [List.append_assoc, List.singleton_append, List.map_cons, List.flatMap_cons]
  refine ⟨hall, fun hbindings => ?_⟩
  have hnodup : ((addBindings strict enums bindings sets).value.map (·.name)).Nodup :=
    nodup_addBindings hsets hbindings
  rwa [hall] at hnodup

/-- Without a fatal report no set mixes enumerations with something else. -/
lemma hasMixedRoles_of_not_fatal {sets : List OverloadSet} (hsets : ∀ s ∈ sets, s.members ≠ [])
    (h : (addBindings strict enums bindings sets).diagnostics.hasFatal = false) :
    ∀ s ∈ sets, ∀ index < s.arity, s.hasMixedRoles index = false := by
  induction sets generalizing bindings with
  | nil => exact fun s hs => absurd hs List.not_mem_nil
  | cons s rest ih =>
    rw [addBindings, Diagnostics.hasFatal_append, Bool.or_eq_false_iff] at h
    rw [List.forall_mem_cons] at hsets ⊢
    exact ⟨(addBinding_of_not_fatal hsets.1 h.1).2, ih hsets.2 h.2⟩

/-- The reports on all sets are of the kinds of the synthesis. -/
lemma isSynthesis_of_mem_addBindings {sets : List OverloadSet} (hsets : ∀ s ∈ sets, s.Uniform)
    {d : Diagnostic} (hd : d ∈ (addBindings strict enums bindings sets).diagnostics) :
    d.IsSynthesis := by
  induction sets generalizing bindings with
  | nil => exact absurd hd List.not_mem_nil
  | cons s rest ih =>
    rw [List.forall_mem_cons] at hsets
    rcases List.mem_append.1 hd with hd | hd
    · exact isSynthesis_of_mem_addBinding hsets.1 hd
    · exact ih hsets.2 hd

/-! ## Runs -/

/-- A run fails as its loading fails, or it makes the bindings of the groups of what is loaded. -/
lemma run_cases (s : Session) (stage : Schema.Stage) (descriptions : Schema.Descriptions) :
    (∃ e s₁, s.loadStage stage descriptions = (.error e, s₁) ∧
        s.run stage descriptions = (.error e, s₁)) ∨
      ∃ ps s₁, s.loadStage stage descriptions = (.ok ps, s₁) ∧
        s.run stage descriptions
          = (.ok ((s₁.buildOverloads ps).2.synthesizeAll (s₁.buildOverloads ps).1).1,
            ((s₁.buildOverloads ps).2.synthesizeAll (s₁.buildOverloads ps).1).2) := by
  rw [run]
  rcases s.loadStage stage descriptions with ⟨e | ps, s₁⟩
  · exact Or.inl ⟨e, s₁, rfl, rfl⟩
  · exact Or.inr ⟨ps, s₁, rfl, rfl⟩

/-- A run that ends in a module has loaded its stage and has made the bindings of the groups. -/
lemma exists_loadStage_of_run {s s' : Session} {stage : Schema.Stage}
    {descriptions : Schema.Descriptions} {m : BindingModule}
    (h : s.run stage descriptions = (.ok m, s')) :
    ∃ ps s₁, s.loadStage stage descriptions = (.ok ps, s₁) ∧
      m = ((s₁.buildOverloads ps).2.synthesizeAll (s₁.buildOverloads ps).1).1 ∧
      s' = ((s₁.buildOverloads ps).2.synthesizeAll (s₁.buildOverloads ps).1).2 := by
  rcases run_cases s stage descriptions with ⟨e, s₁, -, heq⟩ | ⟨ps, s₁, hload, heq⟩
  · exact absurd (Prod.mk.inj (heq.symm.trans h)).1 (by simp)
  · obtain ⟨hm, hs⟩ := Prod.mk.inj (h.symm.trans heq)
    exact ⟨ps, s₁, hload, Except.ok.inj hm, hs⟩

/-- Every binding of the groups of what is loaded is that of one of the groups. -/
lemma exists_entry_of_mem {s : Session} {ps : List Prototype} {b : Binding}
    (hb : b ∈ ((s.buildOverloads ps).2.synthesizeAll (s.buildOverloads ps).1).1.bindings) :
    ∃ entry ∈ (group ps).value, b = entry.2.made s.ledger.enums := by
  have hnonempty : ∀ set ∈ (group ps).value.values, set.members ≠ [] :=
    fun set hset => (uniform_of_mem_values hset).1.nonempty
  obtain ⟨set, hset, rfl⟩ := exists_made_of_mem hnonempty hb
  obtain ⟨entry, hentry, rfl⟩ := List.mem_map.1 hset
  exact ⟨entry, hentry, rfl⟩

end Session

end ShaderBindings
