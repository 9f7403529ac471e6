/-
# A further family is local

Nodes that are added behind a stage and have bases of their own change nothing for the nodes that
are there.  When neither run reports anything fatal, every group of the smaller run is a group of
the larger one (`group_subset_of_foreign`): a family stays whole or dissolves as before, because its
members are the same, and no full name is taken, because that would be reported.  The groups stand
in the order of their keys, so they keep their order as well.

The binding of a group depends on the registry only through the enumerations of its members
(`made_congr`), and those are registered when the further nodes come.
-/
import ShaderBindings.Proofs.Accounting
import ShaderBindings.Proofs.Declarations
import ShaderBindings.Proofs.Loading
import ShaderBindings.Proofs.Partition
import ShaderBindings.Proofs.WellFormed

namespace ShaderBindings

open Dictionary OverloadSets
open scoped List

/-! ## Groups -/

/-- No prototype of `qs` has the base of one of `ps`. -/
def Foreign (ps qs : List Prototype) : Prop :=
  ∀ q ∈ qs, ∀ p ∈ ps, (splitSuffix q.name).1 ≠ (splitSuffix p.name).1

section Groups

variable {ps qs : List Prototype} {p : Prototype}

lemma whole_append_of_foreign (h : Foreign ps qs) (hp : p ∈ ps) :
    whole (ps ++ qs) (splitSuffix p.name).1 = whole ps (splitSuffix p.name).1 := by
  have hnone : family qs (splitSuffix p.name).1 = [] := by
    rw [family, List.map_eq_nil_iff, List.filter_eq_nil_iff]
    intro q hq
    simpa using h q hq p hp
  have hsplit : family (ps ++ qs) (splitSuffix p.name).1
      = family ps (splitSuffix p.name).1 ++ family qs (splitSuffix p.name).1 := by
    simp [family, List.filter_append]
  rw [whole, hsplit, hnone, List.append_nil, whole]

/-- Grouping without a report leaves a prototype in its whole family, or alone under its full name
when the family dissolves. -/
lemma mem_group_of_silent (hsilent : (group ps).diagnostics = []) (hp : p ∈ ps) :
    ((whole ps (splitSuffix p.name).1).Dissolves ∧ (p.name, single p) ∈ (group ps).value) ∨
      (¬ (whole ps (splitSuffix p.name).1).Dissolves ∧
        ((splitSuffix p.name).1, whole ps (splitSuffix p.name).1) ∈ (group ps).value) := by
  have hkept : p ∈ (group ps).value.prototypes := (group_perm_of_silent hsilent).mem_iff.2 hp
  obtain ⟨⟨key, s⟩, hentry, hmem⟩ := mem_prototypes_iff.1 hkept
  rcases mem_group_cases hentry with ⟨rfl, -, hwhole⟩ | ⟨q, -, hdissolves, rfl, rfl⟩
  · have hkey : (splitSuffix p.name).1 = key := base_of_mem_whole hmem
    rw [hkey]
    exact Or.inr ⟨hwhole, hentry⟩
  · obtain rfl : p = q := by simpa [single, OverloadSet.prototypes] using hmem
    exact Or.inl ⟨hdissolves, hentry⟩

/-- The groups stay when foreign prototypes come and nothing is reported. -/
lemma group_subset_of_foreign (h : Foreign ps qs)
    (hsilent : (group (ps ++ qs)).diagnostics = []) :
    (group ps).value ⊆ (group (ps ++ qs)).value := by
  rintro ⟨key, s⟩ hentry
  rcases mem_group_cases hentry with ⟨rfl, huniform, hwhole⟩ | ⟨p, hp, hdissolves, rfl, rfl⟩
  -- the family stays whole, as its members tell where it is
  · obtain ⟨p, hmem⟩ := huniform.exists_prototype
    have hp : p ∈ ps := (prototypes_whole_sublist key).subset hmem
    have hkey : (splitSuffix p.name).1 = key := base_of_mem_whole hmem
    have hgroup := mem_group_of_silent hsilent (List.mem_append_left qs hp)
    rw [whole_append_of_foreign h hp, hkey] at hgroup
    rcases hgroup with ⟨hdissolves, -⟩ | ⟨-, hgroup⟩
    · exact absurd hdissolves hwhole
    · exact hgroup
  -- the family dissolves again
  · have hgroup := mem_group_of_silent hsilent (List.mem_append_left qs hp)
    rw [whole_append_of_foreign h hp] at hgroup
    rcases hgroup with ⟨-, hgroup⟩ | ⟨hwhole, -⟩
    · exact hgroup
    · exact absurd hdissolves hwhole

lemma values_group_sublist_of_foreign (h : Foreign ps qs)
    (hsilent : (group (ps ++ qs)).diagnostics = []) :
    (group ps).value.values <+ (group (ps ++ qs)).value.values :=
  ((sorted_group ps).sublist_of_subset (sorted_group _) (group_subset_of_foreign h hsilent)).map _

end Groups

/-! ## Bindings -/

/-- A registered enumeration is found in every later registry as before. -/
lemma EnumRegistry.Registered.get?_eq {r r' : EnumRegistry} {id : Nat} (h : r.Registered id)
    (hr : r.WellFormed) (hr' : r'.WellFormed) (hgrown : r.identities <+: r'.identities) :
    r'.get? id = r.get? id := by
  obtain ⟨e, he, hid⟩ := h
  rw [hr.get?_eq_some_iff.2 ⟨he, hid⟩, hr'.get?_eq_some_iff.2 ⟨hgrown.subset he, hid⟩]

namespace OverloadSet

variable {s : OverloadSet} {r r' : EnumRegistry}

lemma parameterDefault?_congr {type : ParamType} (default? : Option Literal)
    (h : ∀ id, type = .enumerated id → r'.get? id = r.get? id) :
    parameterDefault? r' type default? = parameterDefault? r type default? := by
  rw [parameterDefault?.eq_def, parameterDefault?.eq_def]
  split
  · rw [h _ rfl]
  · rfl

/-- The binding of a set depends on the registry only through the enumerations of its members. -/
lemma made_congr (h : ∀ p ∈ s.prototypes, ∀ x ∈ p.inputs, ∀ id, x.category = .enumerated id →
    r'.get? id = r.get? id) : s.made r' = s.made r := by
  have hparameter : ∀ index ∈ List.range s.arity,
      parameter (s.analysis s.returned) r' (s.position index)
        = parameter (s.analysis s.returned) r (s.position index) := by
    intro index _
    simp only [parameter, paramOf]
    rw [parameterDefault?_congr]
    intro id htype
    have hid : (parameter (s.analysis s.returned) r (s.position index)).type.enumId? = some id := by
      rw [type_parameter, htype]
      rfl
    obtain ⟨x, hx, hcategory⟩ := exists_socket_of_enumId? hid
    obtain ⟨p, hp, hx⟩ := mem_socketsAt_iff.1 hx
    exact h p hp x (List.mem_of_getElem? hx) id hcategory
  have hpositions : (s.analysis s.returned).positions = (List.range s.arity).map s.position := rfl
  rw [made, made, binding, binding, hpositions, List.map_map, List.map_map]
  congr 1
  exact List.map_congr_left hparameter

end OverloadSet

/-! ## Runs -/

/-- A run that reports nothing fatal makes the binding of every group of the loaded prototypes, and
its grouping reports nothing. -/
lemma Session.exists_of_run {s s' : Session} {stage : Schema.Stage}
    {descriptions : Schema.Descriptions} {m : BindingModule}
    (hrun : s.run stage descriptions = (.ok m, s'))
    (hfatal : s'.ledger.diagnostics.hasFatal = false) :
    ∃ ps s₁, s.loadStage stage descriptions = (.ok ps, s₁) ∧ (group ps).diagnostics = [] ∧
      m.enums = s₁.ledger.enums.identities ∧
      m.bindings = (group ps).value.values.map (·.made s₁.ledger.enums) := by
  obtain ⟨ps, s₁, hload, rfl, rfl⟩ := exists_loadStage_of_run hrun
  simp only [synthesizeAll, buildOverloads, report, Ledger.report] at hfatal ⊢
  rw [Diagnostics.hasFatal_append, Diagnostics.hasFatal_append, Bool.or_eq_false_iff,
    Bool.or_eq_false_iff] at hfatal
  obtain ⟨hall, -⟩ := addBindings_of_not_fatal
    (fun set hset => (uniform_of_mem_values hset).1.nonempty) hfatal.2
  refine ⟨ps, s₁, hload, diagnostics_group_eq_nil hfatal.1.2, rfl, ?_⟩
  rw [hall, List.nil_append]

/-- **A further family is local.**  When prims with foreign bases are added behind a stage, and
nothing fatal is reported without and with them, all bindings stay as they are, in their order, and
the enumerations stay in front. -/
theorem run_append_keeps_bindings {strict : Bool} {stage : Schema.Stage} {more : List Schema.Prim}
    {descriptions : Schema.Descriptions} {ps : List Prototype} {m m' : BindingModule}
    {s s' : Session} (hrun : (Session.new strict).run stage descriptions = (.ok m, s))
    (hfatal : s.ledger.diagnostics.hasFatal = false)
    (hrun' : (Session.new strict).run ⟨stage.prims ++ more⟩ descriptions = (.ok m', s'))
    (hfatal' : s'.ledger.diagnostics.hasFatal = false)
    (hadmitted : ((Session.new strict).loadStage stage descriptions).1 = .ok ps)
    (hforeign : ∀ prim ∈ more, prim.isNode = true → ∀ p ∈ ps,
      prim.base ≠ (splitSuffix p.name).1) :
    m.bindings <+ m'.bindings ∧ m.enums <+: m'.enums := by
  obtain ⟨ps₁, s₁, hload, -, henums, hbindings⟩ := Session.exists_of_run hrun hfatal
  obtain ⟨rs, s₂, hload', hsilent, henums', hbindings'⟩ := Session.exists_of_run hrun' hfatal'
  obtain rfl : ps₁ = ps := Except.ok.inj ((congrArg Prod.fst hload).symm.trans hadmitted)
  -- the larger run loads the further prims where the smaller one stops
  have hprims := Session.loadPrims_of_loadStage hload
  have hprims' := Session.loadPrims_of_loadStage hload'
  have hnodes : Schema.Stage.nodes ⟨stage.prims ++ more⟩
      = stage.nodes ++ more.filter Schema.Prim.isNode := List.filter_append _ _
  rw [hnodes] at hprims'
  obtain ⟨ps₂, l, qs, hfirst, hmore, rfl⟩ := Session.exists_of_loadPrims_append hprims'
  obtain ⟨hps, rfl⟩ := Prod.mk.inj (hprims.symm.trans hfirst)
  obtain rfl := Except.ok.inj hps
  have hgrown := (Session.loadPrims_spec hmore).1.enums.identities
  have hforeign' : Foreign ps₁ qs := by
    intro q hq p hp
    obtain ⟨prim, hprim, hbase⟩ := Session.exists_prim_of_mem hmore hq
    obtain ⟨hmem, hnode⟩ := List.mem_filter.1 hprim
    rw [hbase]
    exact hforeign prim hmem hnode p hp
  -- the enumerations of the first nodes are registered before the further ones come
  have hregistry := Session.wellFormed_loadStage hload
  have hregistry' := Session.wellFormed_loadStage hload'
  obtain ⟨-, hregistered⟩ := (Session.loadStage_spec hload).2.2 EnumRegistry.WellFormed.empty
  have hmade : (group ps₁).value.values.map (·.made s₁.ledger.enums)
      = (group ps₁).value.values.map (·.made s₂.ledger.enums) := by
    refine List.map_congr_left fun set hset => (OverloadSet.made_congr ?_).symm
    intro p hp x hx id hid
    have hmem : p ∈ ps₁ := (uniform_of_mem_values hset).2 p hp
    have hknown := (hregistered ps₁ rfl p hmem).inputs x hx id hid
    exact hknown.get?_eq hregistry hregistry' hgrown
  constructor
  · rw [hbindings, hbindings', hmade]
    exact (values_group_sublist_of_foreign hforeign' hsilent).map _
  · rw [henums, henums']
    exact hgrown

/-- A node with one input and one output. -/
def plainNode (name inputType outputType : String) : Schema.Prim :=
  { path := "/ND_" ++ name
    metadata := []
    properties := [plainProperty "inputs:in" inputType, plainProperty "outputs:out" outputType] }

/-- A family of two nodes that no input tells apart, so that both stand alone. -/
def glowStage : Schema.Stage :=
  ⟨[plainNode "glow_float" "float" "float", plainNode "glow_half" "double" "float"]⟩

/-- A node whose binding comes in front of theirs. -/
def absNode : Schema.Prim := plainNode "abs_float" "float" "float"

theorem run_append_keeps_bindings_glow :
    ∃ m m' s s', (Session.new false).run glowStage [] = (.ok m, s) ∧
      (Session.new false).run ⟨glowStage.prims ++ [absNode]⟩ [] = (.ok m', s') ∧
      m.bindings.map (·.name) = ["glowFloat", "glowHalf"] ∧
      m'.bindings.map (·.name) = ["abs", "glowFloat", "glowHalf"] ∧
      m.bindings <+ m'.bindings ∧ m.enums <+: m'.enums := by
  have hsmall : ((Session.new false).run glowStage []).1.toOption.map
        (fun m => m.bindings.map (·.name)) = some ["glowFloat", "glowHalf"] ∧
      ((Session.new false).run glowStage []).2.ledger.diagnostics.hasFatal = false := by
    decide +kernel
  have hlarge : ((Session.new false).run ⟨glowStage.prims ++ [absNode]⟩ []).1.toOption.map
        (fun m => m.bindings.map (·.name)) = some ["abs", "glowFloat", "glowHalf"] ∧
      ((Session.new false).run ⟨glowStage.prims ++ [absNode]⟩ []).2.ledger.diagnostics.hasFatal
        = false := by
    decide +kernel
  have hbases : ((Session.new false).loadStage glowStage []).1.toOption.map
      (fun ps => ps.map fun p => (splitSuffix p.name).1) = some ["glow", "glow"] := by
    decide +kernel
  have habs : absNode.base = "abs" := by decide +kernel
  rcases hrun : (Session.new false).run glowStage [] with ⟨e | m, s⟩
  · simp [hrun, Except.toOption] at hsmall
  rcases hrun' : (Session.new false).run ⟨glowStage.prims ++ [absNode]⟩ [] with ⟨e | m', s'⟩
  · simp [hrun', Except.toOption] at hlarge
  rcases hload : ((Session.new false).loadStage glowStage []).1 with e | ps
  · simp [hload, Except.toOption] at hbases
  simp only [hrun, hrun', hload, Except.toOption, Option.map_some, Option.some.injEq]
    at hsmall hlarge hbases
  have hkept := run_append_keeps_bindings hrun hsmall.2 hrun' hlarge.2 hload (by
    intro prim hprim _ p hp
    rw [List.mem_singleton.1 hprim, habs]
    have hbase := List.mem_map_of_mem (f := fun p : Prototype => (splitSuffix p.name).1) hp
    rw [hbases] at hbase
    intro heq
    rw [← heq] at hbase
    exact absurd hbase (by decide))
  exact ⟨m, m', s, s', rfl, rfl, hsmall.1, hlarge.1, hkept⟩

end ShaderBindings
