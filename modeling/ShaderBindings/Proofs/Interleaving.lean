/-
# The order of unrelated nodes

Two stages interleave the same nodes when they have the same nodes, when the nodes of each family
come in the same order, and when the nodes that declare enumerations do.  What is generated from
them is the same, and only the reports may come in another order.

The declarations come in the same order, so the registries are equal.  Each family has the same
members, and grouping sees a family as a whole, because it sorts the families by their bases; so
the groups are equal, and from there on the two runs are one.
-/
import ShaderBindings.Generation
import ShaderBindings.Proofs.Declarations
import ShaderBindings.Proofs.Grouping
import ShaderBindings.Proofs.Locality

namespace ShaderBindings

open Dictionary OverloadSets
open scoped List

/-- The prim is a node with a socket that declares an enumeration. -/
def Schema.Prim.enumerates (prim : Schema.Prim) : Bool :=
  prim.draft?.any fun d => !d.declarations.isEmpty

/-- The stages have the same nodes, and only unrelated ones stand in another order. -/
structure Schema.Stage.Interleaves (a b : Schema.Stage) : Prop where
  perm : a.nodes ~ b.nodes
  /-- The nodes of a family come in the same order. -/
  families : ∀ base, a.nodes.filter (·.base = base) = b.nodes.filter (·.base = base)
  /-- The nodes that declare enumerations come in the same order. -/
  enumerations : a.nodes.filter (·.enumerates) = b.nodes.filter (·.enumerates)

lemma Schema.Stage.Interleaves.symm {a b : Schema.Stage} (h : a.Interleaves b) :
    b.Interleaves a where
  perm := h.perm.symm
  families := fun base => (h.families base).symm
  enumerations := h.enumerations.symm

/-! ## Loading -/

section Prims

variable {prims prims' : List Schema.Prim}

lemma drafts_perm (h : prims ~ prims') : drafts prims ~ drafts prims' := h.filterMap _

lemma drafts_cons (prim : Schema.Prim) (rest : List Schema.Prim) :
    drafts (prim :: rest) = prim.draft?.toList ++ drafts rest := by
  rw [drafts, List.filterMap_cons]
  rcases prim.draft? with _ | d
  · rfl
  · rfl

/-- Only the nodes that declare enumerations count for the declarations. -/
lemma declarations_filter_enumerates (prims : List Schema.Prim) :
    (drafts (prims.filter (·.enumerates))).flatMap Draft.declarations
      = (drafts prims).flatMap Draft.declarations := by
  induction prims with
  | nil => rfl
  | cons prim rest ih =>
    rw [drafts_cons, List.flatMap_append, ← ih]
    by_cases henumerates : prim.enumerates = true
    · rw [List.filter_cons_of_pos henumerates, drafts_cons, List.flatMap_append]
    · rw [List.filter_cons_of_neg henumerates]
      have hnone : prim.draft?.toList.flatMap Draft.declarations = [] := by
        rw [Schema.Prim.enumerates] at henumerates
        rcases hdraft : prim.draft? with _ | d
        · rfl
        · simpa [hdraft] using henumerates
      rw [hnone, List.nil_append]

/-- The prototypes with a base are those of the nodes with that base. -/
lemma filter_base_settled (descriptions : Schema.Descriptions) (r : EnumRegistry) (base : String)
    (prims : List Schema.Prim) :
    ((drafts prims).map (Draft.settled descriptions r)).filter
        (fun p => (splitSuffix p.name).1 = base)
      = (drafts (prims.filter (·.base = base))).map (Draft.settled descriptions r) := by
  induction prims with
  | nil => rfl
  | cons prim rest ih =>
    rw [drafts_cons, List.map_append, List.filter_append, ih]
    have hbase : ∀ p ∈ prim.draft?.toList.map (Draft.settled descriptions r),
        (splitSuffix p.name).1 = prim.base := by
      intro p hp
      obtain ⟨d, hd, rfl⟩ := List.mem_map.1 hp
      have hname : (Draft.settled descriptions r d).name = bareName d.id := rfl
      rw [hname, id_of_draft? (Option.mem_toList.1 hd), Schema.Prim.base]
    by_cases hprim : prim.base = base
    · have hall : (prim.draft?.toList.map (Draft.settled descriptions r)).filter
          (fun p => (splitSuffix p.name).1 = base)
            = prim.draft?.toList.map (Draft.settled descriptions r) := by
        rw [List.filter_eq_self]
        intro p hp
        rw [hbase p hp]
        simpa using hprim
      rw [hall, List.filter_cons_of_pos (by simpa using hprim), drafts_cons, List.map_append]
    · rw [List.filter_cons_of_neg (by simpa using hprim)]
      have hnone : (prim.draft?.toList.map (Draft.settled descriptions r)).filter
          (fun p => (splitSuffix p.name).1 = base) = [] := by
        rw [List.filter_eq_nil_iff]
        intro p hp
        rw [hbase p hp]
        simpa using hprim
      rw [hnone, List.nil_append]

end Prims

/-! ## Grouping -/

/-- Grouping sees the families only. -/
lemma group_congr {ps qs : List Prototype} (h : ∀ base, family ps base = family qs base) :
    group ps = group qs := by
  have hcollect : collect ps = collect qs := by
    refine (sorted_collect ps).ext_get? (sorted_collect qs) fun base => ?_
    rw [get?_collect, get?_collect, h base]
  rw [group, group, hcollect]

/-! ## Runs -/

namespace Diagnostics

variable {ds es : Diagnostics}

lemma hasFatal_perm (h : ds ~ es) : ds.hasFatal = es.hasFatal := by
  rw [Bool.eq_iff_iff, hasFatal, hasFatal, List.any_eq_true, List.any_eq_true]
  simp only [h.mem_iff]

lemma warningCount_perm (h : ds ~ es) : ds.warningCount = es.warningCount := h.countP_eq _

end Diagnostics

namespace Session

variable {strict : Bool} {a b : Schema.Stage} {descriptions : Schema.Descriptions}

/-- The loaded prototypes have the same families, and the ledgers differ in the order of the
reports. -/
lemma exists_loadStage_of_interleaves (h : a.Interleaves b) {ps : List Prototype} {s : Session}
    (hload : (Session.new strict).loadStage a descriptions = (.ok ps, s)) :
    ∃ qs t, (Session.new strict).loadStage b descriptions = (.ok qs, t) ∧
      (∀ base, family ps base = family qs base) ∧ t.ledger.enums = s.ledger.enums ∧
      t.ledger.diagnostics ~ s.ledger.diagnostics := by
  obtain ⟨haccepted, hgrows, hsettled⟩ := loadPrims_eq_ok (loadPrims_of_loadStage hload)
  have haccepted' : ∀ prim ∈ b.nodes, prim.Accepted :=
    fun prim hprim => haccepted prim (h.perm.mem_iff.2 hprim)
  obtain ⟨qs, l, hprims⟩ := exists_loadPrims haccepted' descriptions (Session.new strict).ledger
  have hload' : (Session.new strict).loadStage b descriptions = (.ok qs, ⟨strict, l⟩) := by
    rw [loadStage, hprims]
    rfl
  obtain ⟨-, hgrows', hsettled'⟩ := loadPrims_eq_ok hprims
  have hdeclarations : (drafts b.nodes).flatMap Draft.declarations
      = (drafts a.nodes).flatMap Draft.declarations := by
    rw [← declarations_filter_enumerates, ← declarations_filter_enumerates a.nodes,
      h.enumerations]
  rw [hdeclarations] at hgrows'
  have henums : l.enums = s.ledger.enums := hgrows'.enums.trans hgrows.enums.symm
  refine ⟨qs, ⟨strict, l⟩, hload', fun base => ?_, henums, ?_⟩
  · rw [hsettled s.ledger.enums (.refl _),
      hsettled' s.ledger.enums (henums ▸ .refl _), family, family, filter_base_settled,
      filter_base_settled, h.families base]
  · have hreports : (drafts b.nodes).flatMap Draft.typeReports
        ~ (drafts a.nodes).flatMap Draft.typeReports := (drafts_perm h.perm.symm).flatMap_right _
    calc l.diagnostics
        ~ (Session.new strict).ledger.diagnostics
            ++ (((Session.new strict).ledger.enums.declareAll
                ((drafts a.nodes).flatMap Draft.declarations)).diagnostics
              ++ (drafts b.nodes).flatMap Draft.typeReports) := hgrows'.diagnostics
      _ ~ (Session.new strict).ledger.diagnostics
            ++ (((Session.new strict).ledger.enums.declareAll
                ((drafts a.nodes).flatMap Draft.declarations)).diagnostics
              ++ (drafts a.nodes).flatMap Draft.typeReports) :=
          (hreports.append_left _).append_left _
      _ ~ s.ledger.diagnostics := hgrows.diagnostics.symm

/-- The runs make the same module, and they make the same reports in some order. -/
lemma exists_run_of_interleaves (h : a.Interleaves b) {m : BindingModule} {s : Session}
    (hrun : (Session.new strict).run a descriptions = (.ok m, s)) :
    ∃ t, (Session.new strict).run b descriptions = (.ok m, t) ∧
      t.ledger.diagnostics ~ s.ledger.diagnostics := by
  obtain ⟨ps, s₁, hload, rfl, rfl⟩ := exists_loadStage_of_run hrun
  obtain ⟨qs, t₁, hload', hfamilies, henums, hdiagnostics⟩ :=
    exists_loadStage_of_interleaves h hload
  have hstrict : t₁.strict = s₁.strict :=
    (congrArg (·.2.strict) hload').symm.trans (congrArg (·.2.strict) hload)
  refine ⟨((t₁.buildOverloads qs).2.synthesizeAll (t₁.buildOverloads qs).1).2, ?_, ?_⟩
  · rw [run, hload']
    simp only [synthesizeAll, buildOverloads, report, Ledger.report, group_congr hfamilies, henums,
      hstrict]
  · simp only [synthesizeAll, buildOverloads, report, Ledger.report, group_congr hfamilies, henums,
      hstrict]
    exact (hdiagnostics.append_right _).append_right _

end Session

/-! ## Generation -/

/-- What is generated carries the reports and tells how many of them are warnings, and it depends on
them in nothing else. -/
lemma exists_ofModule_of_perm {m : BindingModule} {ds es : Diagnostics} {g : Generated}
    (h : es ~ ds) (hg : Generated.ofModule m ds = .ok g) :
    ∃ g', Generated.ofModule m es = .ok g' ∧ g'.operations = g.operations ∧
      g'.sources = g.sources ∧ g'.docsTable = g.docsTable ∧ g'.summary = g.summary ∧
      g'.diagnostics ~ g.diagnostics := by
  obtain ⟨units, hunits, heq⟩ := Fault.bind_eq_ok_iff.1 hg
  obtain rfl := Except.ok.inj heq
  refine ⟨_, Fault.bind_eq_ok_iff.2 ⟨units, hunits, rfl⟩, rfl, rfl, rfl, ?_, h⟩
  rw [Diagnostics.warningCount_perm h]

/-- **The order of unrelated nodes does not matter.**  Two stages that interleave the same nodes are
generated to the same texts with the same counts, and the reports are the same up to their order. -/
theorem ofStage_of_interleaves {a b : Schema.Stage} (h : a.Interleaves b)
    {descriptions : Schema.Descriptions} {strict : Bool} {g : Generated}
    (hg : Generated.ofStage a descriptions strict = .ok g) :
    ∃ g', Generated.ofStage b descriptions strict = .ok g' ∧ g'.operations = g.operations ∧
      g'.sources = g.sources ∧ g'.docsTable = g.docsTable ∧ g'.summary = g.summary ∧
      g'.diagnostics ~ g.diagnostics := by
  rw [Generated.ofStage] at hg
  rcases hrun : (Session.new strict).run a descriptions with ⟨e | m, s⟩
  · simp only [hrun] at hg
    exact absurd hg (by simp)
  simp only [hrun] at hg
  split_ifs at hg with hfatal
  rcases hmodule : Generated.ofModule m s.ledger.diagnostics with fault | generated
  · simp only [hmodule] at hg
    exact absurd hg (by simp)
  simp only [hmodule] at hg
  obtain rfl := Except.ok.inj hg
  obtain ⟨t, hrun', hperm⟩ := Session.exists_run_of_interleaves h hrun
  obtain ⟨g', hg', hsame⟩ := exists_ofModule_of_perm hperm hmodule
  refine ⟨g', ?_, hsame⟩
  rw [← Diagnostics.hasFatal_perm hperm] at hfatal
  simp [Generated.ofStage, hrun', hfatal, hg']

/-- A family of one moves in front of another family. -/
lemma interleaves_glow :
    Schema.Stage.Interleaves ⟨glowStage.prims ++ [absNode]⟩ ⟨absNode :: glowStage.prims⟩ := by
  have hnodes : ∀ prim ∈ absNode :: glowStage.prims, prim.isNode = true := by decide +kernel
  have hplain : ∀ prim ∈ absNode :: glowStage.prims, prim.enumerates = false := by decide +kernel
  have habs : absNode.base = "abs" := by decide +kernel
  have hglow : ∀ prim ∈ glowStage.prims, prim.base = "glow" := by decide +kernel
  have hbehind : ∀ prim ∈ glowStage.prims ++ [absNode], prim ∈ absNode :: glowStage.prims :=
    fun prim hprim => (List.perm_append_singleton absNode glowStage.prims).subset hprim
  have hnodes_a : Schema.Stage.nodes ⟨glowStage.prims ++ [absNode]⟩
      = glowStage.prims ++ [absNode] :=
    List.filter_eq_self.2 fun prim hprim => hnodes prim (hbehind prim hprim)
  have hnodes_b : Schema.Stage.nodes ⟨absNode :: glowStage.prims⟩ = absNode :: glowStage.prims :=
    List.filter_eq_self.2 hnodes
  refine ⟨?_, fun base => ?_, ?_⟩
  · rw [hnodes_a, hnodes_b]
    exact List.perm_append_singleton absNode glowStage.prims
  · rw [hnodes_a, hnodes_b, List.filter_append]
    by_cases hbase : base = "abs"
    · have hnone : glowStage.prims.filter (·.base = base) = [] :=
        List.filter_eq_nil_iff.2 fun prim hprim => by simp [hglow prim hprim, hbase]
      rw [hnone, List.nil_append, List.filter_cons, List.filter_cons, hnone, List.filter_nil]
    · have hnone : [absNode].filter (·.base = base) = [] :=
        List.filter_eq_nil_iff.2 fun prim hprim => by
          rw [List.mem_singleton.1 hprim, habs]
          simpa using Ne.symm hbase
      rw [hnone, List.append_nil, List.filter_cons_of_neg (by simpa [habs] using Ne.symm hbase)]
  · have hnone : ∀ prims : List Schema.Prim, (∀ prim ∈ prims, prim ∈ absNode :: glowStage.prims) →
        prims.filter (·.enumerates) = [] := fun prims hprims =>
      List.filter_eq_nil_iff.2 fun prim hprim => by simp [hplain prim (hprims prim hprim)]
    rw [hnodes_a, hnodes_b, hnone _ hbehind, hnone _ fun _ h => h]

theorem ofStage_of_interleaves_glow :
    ∃ g g', Generated.ofStage ⟨glowStage.prims ++ [absNode]⟩ [] false = .ok g ∧
      Generated.ofStage ⟨absNode :: glowStage.prims⟩ [] false = .ok g' ∧
      g.summary = ⟨3, 0, 0, 0⟩ ∧ g'.operations = g.operations ∧ g'.sources = g.sources ∧
      g'.docsTable = g.docsTable ∧ g'.summary = g.summary ∧ g'.diagnostics ~ g.diagnostics := by
  have hrun : (Generated.ofStage ⟨glowStage.prims ++ [absNode]⟩ [] false).toOption.map (·.summary)
      = some ⟨3, 0, 0, 0⟩ := by
    decide +kernel
  rcases hg : Generated.ofStage ⟨glowStage.prims ++ [absNode]⟩ [] false with e | g
  · simp [hg, Except.toOption] at hrun
  obtain ⟨g', hg', hsame⟩ := ofStage_of_interleaves interleaves_glow hg
  simp only [hg, Except.toOption, Option.map_some, Option.some.injEq] at hrun
  exact ⟨g, g', rfl, hg', hrun, hsame⟩

end ShaderBindings
