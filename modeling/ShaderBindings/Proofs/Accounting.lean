/-
# No node disappears

Every node that a run admits is accounted for at its end, when nothing fatal is reported.  The
node has a branch of its own, or it is the node of a warning on an unreachable branch, or it is a
later member of a set of which a warning says that only the first member is reachable.

The account is drawn up in three steps.  Grouping without a report keeps every prototype; every
set of the groups gets its binding; and the branches of the binding, with the warnings on the way
to it, account for the members of the set (`accounts_made`).
-/
import Mathlib.Algebra.GroupWithZero.Nat
import Mathlib.Data.List.Perm.Basic
import ShaderBindings.Proofs.Admission
import ShaderBindings.Proofs.Synthesis

namespace ShaderBindings

open scoped List

/-! ## What the warnings say -/

namespace Diagnostic

/-- The node of a warning on an unreachable branch. -/
def unreachable? : Diagnostic → Option String
  | unreachableBranch _ node _ => some node
  | _ => none

/-- The binding and the number of members of a warning on a set without a discriminator. -/
def undiscriminated? : Diagnostic → Option (String × Nat)
  | noDiscriminator binding members _ => some (binding, members)
  | _ => none

end Diagnostic

namespace Diagnostics

/-- The nodes of the warnings on unreachable branches. -/
def unreachable (ds : Diagnostics) : List String := ds.filterMap Diagnostic.unreachable?

/-- The bindings of the warnings on sets without a discriminator, with the numbers of members. -/
def undiscriminated (ds : Diagnostics) : List (String × Nat) :=
  ds.filterMap Diagnostic.undiscriminated?

variable {ds es : Diagnostics}

lemma unreachable_append : unreachable (ds ++ es) = ds.unreachable ++ es.unreachable :=
  List.filterMap_append

lemma undiscriminated_append :
    undiscriminated (ds ++ es) = ds.undiscriminated ++ es.undiscriminated :=
  List.filterMap_append

lemma unreachable_eq_nil (h : ∀ d ∈ ds, d.unreachable? = none) : ds.unreachable = [] :=
  List.filterMap_eq_nil_iff.2 h

lemma undiscriminated_eq_nil (h : ∀ d ∈ ds, d.undiscriminated? = none) :
    ds.undiscriminated = [] :=
  List.filterMap_eq_nil_iff.2 h

end Diagnostics

open Diagnostics

/-- The nodes of the members of a set after the first one. -/
def OverloadSet.laterIds (s : OverloadSet) : List String := s.prototypes.tail.map (·.id)

/-- The nodes of the later members of the set that has a binding of the given name. -/
def OverloadSets.laterIds (sets : OverloadSets) (binding : String) : List String :=
  ((sets.values.find? fun s => lowerCamel s.baseName = binding).map OverloadSet.laterIds).getD []

/-! ## One set -/

namespace OverloadSet

variable {s : OverloadSet} {strict : Bool} {enums : EnumRegistry} {name : String}
  {positions : List Nat}

/-- With conditions, a prototype adds a branch or a warning. -/
lemma extendBranches_perm (hpositions : positions ≠ []) (earlier : List Branch)
    (ps : List Prototype) :
    (extendBranches positions earlier ps).map (·.nodeId)
        ++ unreachable (shadowReports name positions earlier ps)
      ~ earlier.map (·.nodeId) ++ ps.map (·.id) := by
  induction ps generalizing earlier with
  | nil => exact List.Perm.refl _
  | cons p rest ih =>
    rw [extendBranches, shadowReports]
    rcases shadow? positions earlier p with _ | first
    -- the prototype has a branch of its own
    · have h := ih (earlier ++ [branch positions p])
      rw [List.map_append, List.append_assoc] at h
      exact h
    -- an earlier branch has its conditions
    · have hnode : unreachable [.unreachableBranch name p.id first.nodeId] = [p.id] := rfl
      have hne : positions.isEmpty = false := by simpa using hpositions
      simp only [hne, Bool.false_eq_true, if_false, unreachable_append, hnode]
      calc (extendBranches positions earlier rest).map (·.nodeId)
            ++ ([p.id] ++ unreachable (shadowReports name positions earlier rest))
          ~ [p.id] ++ ((extendBranches positions earlier rest).map (·.nodeId)
              ++ unreachable (shadowReports name positions earlier rest)) :=
            List.perm_append_comm_assoc _ _ _
        _ ~ [p.id] ++ (earlier.map (·.nodeId) ++ rest.map (·.id)) := (ih earlier).append_left _
        _ ~ earlier.map (·.nodeId) ++ (p :: rest).map (·.id) := List.perm_append_comm_assoc _ _ _

/-- Without conditions, no warning is on a single prototype. -/
lemma shadowReports_nil (earlier : List Branch) (ps : List Prototype) :
    shadowReports name [] earlier ps = [] := by
  induction ps generalizing earlier with
  | nil => rfl
  | cons p rest ih =>
    rw [shadowReports]
    split
    · simp [ih]
    · exact ih _

/-- Without conditions, the first prototype has the only branch. -/
lemma leaders_nil (p : Prototype) (rest : List Prototype) : leaders [] (p :: rest) = [p] := by
  have hagree : ∀ q r : Prototype, q.Agree [] r := fun q r index hindex =>
    absurd hindex List.not_mem_nil
  simp [leaders, hagree]

/-- The reports on the way to a binding that are neither on joins nor on availability are those
on its discriminator and on its branches. -/
lemma filterMap_madeReports {α : Type} {f : Diagnostic → Option α}
    (hjoin : ∀ context texts, f (.unjoinableCategories context texts) = none)
    (havailability : ∀ binding declared chosen,
      f (.availabilityMismatch binding declared chosen) = none) (hs : s.Uniform) :
    (s.madeReports strict).filterMap f
      = (s.discriminatorReport (lowerCamel s.baseName) (s.analysis s.returned).discriminating
            strict).filterMap f
        ++ (shadowReports (lowerCamel s.baseName) (s.analysis s.returned).discriminating []
            s.prototypes).filterMap f := by
  have houtput : s.outputReport.filterMap f = [] := by
    refine List.filterMap_eq_nil_iff.2 fun d hd => ?_
    obtain ⟨_, _, rfl⟩ := exists_of_mem_outputReport hs.nonempty hd
    exact hjoin _ _
  have hparameters : ((s.analysis s.returned).positions.flatMap
      (s.parameterReport (s.analysis s.returned))).filterMap f = [] := by
    refine List.filterMap_eq_nil_iff.2 fun d hd => ?_
    obtain ⟨_, _, rfl⟩ := exists_of_mem_parameterReports hd
    exact hjoin _ _
  have havailable : (s.availabilityReport (lowerCamel s.baseName)).filterMap f = [] := by
    refine List.filterMap_eq_nil_iff.2 fun d hd => ?_
    obtain ⟨_, _, rfl⟩ := exists_of_mem_availabilityReport hd
    exact havailability _ _ _
  rw [madeReports, bindingReports, dispatchReports]
  simp only [List.filterMap_append]
  rw [houtput, hparameters, havailable, List.nil_append, List.nil_append, List.append_nil]

lemma unreachable_madeReports (hs : s.Uniform) :
    unreachable (s.madeReports strict)
      = unreachable (shadowReports (lowerCamel s.baseName) (s.analysis s.returned).discriminating
          [] s.prototypes) := by
  rw [unreachable, filterMap_madeReports (fun _ _ => rfl) (fun _ _ _ => rfl) hs]
  refine List.append_left_eq_self.2 (List.filterMap_eq_nil_iff.2 fun d hd => ?_)
  obtain ⟨_, _, rfl⟩ := exists_of_mem_discriminatorReport hd
  rfl

lemma undiscriminated_madeReports (hs : s.Uniform) :
    undiscriminated (s.madeReports strict)
      = if (s.analysis s.returned).discriminating = [] ∧ 1 < s.members.length then
          [(lowerCamel s.baseName, s.members.length)]
        else [] := by
  rw [undiscriminated, filterMap_madeReports (fun _ _ => rfl) (fun _ _ _ => rfl) hs]
  have hshadow : (shadowReports (lowerCamel s.baseName) (s.analysis s.returned).discriminating []
      s.prototypes).filterMap Diagnostic.undiscriminated? = [] := by
    refine List.filterMap_eq_nil_iff.2 fun d hd => ?_
    obtain ⟨_, _, rfl⟩ := exists_of_mem_shadowReports hd
    rfl
  rw [hshadow, List.append_nil, discriminatorReport]
  by_cases h : (s.analysis s.returned).discriminating = [] ∧ 1 < s.members.length
  · simp [h, Diagnostic.undiscriminated?]
  · rw [if_neg h, if_neg (by simpa using h)]
    rfl

/-- The branches of a binding and the warnings on the way to it account for the members of the
set. -/
lemma accounts_made (hs : s.Uniform) :
    (s.made enums).nodeIds ++ unreachable (s.madeReports strict)
        ++ (undiscriminated (s.madeReports strict)).flatMap (fun _ => s.laterIds)
      ~ s.prototypes.map (·.id) := by
  rw [unreachable_madeReports hs, undiscriminated_madeReports hs]
  have hbranches : (s.made enums).nodeIds
      = (extendBranches (s.analysis s.returned).discriminating [] s.prototypes).map (·.nodeId) :=
    rfl
  by_cases hpositions : (s.analysis s.returned).discriminating = []
  -- the first member has the only branch
  · obtain ⟨first, rest, hmembers⟩ := List.exists_cons_of_ne_nil hs.nonempty
    have hprototypes : s.prototypes = first.prototype :: rest.map (·.prototype) := by
      rw [prototypes, hmembers, List.map_cons]
    have hids : (s.made enums).nodeIds = [first.prototype.id] := by
      rw [hbranches, branches_eq, hpositions, hprototypes, leaders_nil]
      rfl
    rw [hids, hpositions, shadowReports_nil, laterIds, hprototypes, hmembers]
    -- without later members there is no warning, and nothing to account for
    rcases rest with _ | ⟨second, rest⟩
    · exact List.Perm.refl _
    · simp [unreachable]
  -- every member has a branch or a warning
  · rw [if_neg fun h => hpositions h.1, List.flatMap_nil, List.append_nil, hbranches]
    exact extendBranches_perm hpositions [] s.prototypes

end OverloadSet

/-! ## All sets -/

namespace OverloadSets

variable {sets : OverloadSets} {strict : Bool}

/-- When the names of the bindings differ, a name tells its set. -/
lemma laterIds_eq (hnames : (sets.values.map fun s => lowerCamel s.baseName).Nodup)
    {s : OverloadSet} (hs : s ∈ sets.values) :
    sets.laterIds (lowerCamel s.baseName) = s.laterIds := by
  have hsome : (sets.values.find? fun t => lowerCamel t.baseName = lowerCamel s.baseName).isSome :=
    List.find?_isSome.2 ⟨s, hs, by simp⟩
  obtain ⟨t, ht⟩ := Option.isSome_iff_exists.1 hsome
  have hname : lowerCamel t.baseName = lowerCamel s.baseName := by simpa using List.find?_some ht
  obtain rfl : t = s :=
    List.inj_on_of_nodup_map hnames (List.mem_of_find?_eq_some ht) hs hname
  rw [laterIds, ht]
  rfl

/-- A warning on a set without a discriminator names the set and tells the number of its
members. -/
lemma eq_of_mem_undiscriminated {s : OverloadSet} (hs : s.Uniform) {w : String × Nat}
    (hw : w ∈ undiscriminated (s.madeReports strict)) :
    w = (lowerCamel s.baseName, s.members.length) := by
  rw [OverloadSet.undiscriminated_madeReports hs] at hw
  split_ifs at hw
  · exact List.mem_singleton.1 hw
  · exact absurd hw List.not_mem_nil

/-- A warning on a set without a discriminator stands for all members of the set but one. -/
lemma length_laterIds (hsets : ∀ s ∈ sets.values, s.Uniform)
    (hnames : (sets.values.map fun s => lowerCamel s.baseName).Nodup) {w : String × Nat}
    (hw : w ∈ undiscriminated (sets.values.flatMap (·.madeReports strict))) :
    (sets.laterIds w.1).length = w.2 - 1 := by
  rw [undiscriminated, List.filterMap_flatMap] at hw
  obtain ⟨s, hs, hw⟩ := List.mem_flatMap.1 hw
  rw [eq_of_mem_undiscriminated (hsets s hs) hw, laterIds_eq hnames hs]
  simp [OverloadSet.laterIds, OverloadSet.prototypes]

/-- The branches of all bindings and the warnings on the way to them account for the members of
all sets. -/
lemma accounts_all (strict : Bool) (enums : EnumRegistry) (hsets : ∀ s ∈ sets.values, s.Uniform)
    (hnames : (sets.values.map fun s => lowerCamel s.baseName).Nodup) :
    (sets.values.map (·.made enums)).flatMap Binding.nodeIds
        ++ unreachable (sets.values.flatMap (·.madeReports strict))
        ++ (undiscriminated (sets.values.flatMap (·.madeReports strict))).flatMap
            (fun w => sets.laterIds w.1)
      ~ sets.prototypes.map (·.id) := by
  have hunreachable : unreachable (sets.values.flatMap (·.madeReports strict))
      = sets.values.flatMap fun s => unreachable (s.madeReports strict) :=
    List.filterMap_flatMap
  have hundiscriminated : (undiscriminated (sets.values.flatMap (·.madeReports strict))).flatMap
        (fun w => sets.laterIds w.1)
      = sets.values.flatMap fun s =>
          (undiscriminated (s.madeReports strict)).flatMap fun _ => s.laterIds := by
    rw [undiscriminated, List.filterMap_flatMap, List.flatMap_assoc]
    refine List.flatMap_congr fun s hs => List.flatMap_congr fun w hw => ?_
    rw [eq_of_mem_undiscriminated (hsets s hs) hw, laterIds_eq hnames hs]
  have hprototypes : sets.prototypes.map (·.id)
      = sets.values.flatMap fun s => s.prototypes.map (·.id) := by
    rw [prototypes, List.map_flatMap, Dictionary.values, List.flatMap_map]
  rw [hunreachable, hundiscriminated, hprototypes, List.flatMap_map]
  calc sets.values.flatMap (fun s => (s.made enums).nodeIds)
          ++ sets.values.flatMap (fun s => unreachable (s.madeReports strict))
          ++ sets.values.flatMap (fun s =>
              (undiscriminated (s.madeReports strict)).flatMap fun _ => s.laterIds)
      ~ sets.values.flatMap (fun s => (s.made enums).nodeIds ++ unreachable (s.madeReports strict))
          ++ sets.values.flatMap (fun s =>
              (undiscriminated (s.madeReports strict)).flatMap fun _ => s.laterIds) :=
        (List.flatMap_append_perm _ _ _).append_right _
    _ ~ sets.values.flatMap (fun s =>
          (s.made enums).nodeIds ++ unreachable (s.madeReports strict)
            ++ (undiscriminated (s.madeReports strict)).flatMap fun _ => s.laterIds) :=
        List.flatMap_append_perm _ _ _
    _ ~ sets.values.flatMap fun s => s.prototypes.map (·.id) :=
        List.Perm.flatMap_left _ fun s hs => OverloadSet.accounts_made (hsets s hs)

/-- The account as numbers. -/
lemma count_all (strict : Bool) (enums : EnumRegistry) (hsets : ∀ s ∈ sets.values, s.Uniform)
    (hnames : (sets.values.map fun s => lowerCamel s.baseName).Nodup) :
    ((sets.values.map (·.made enums)).map (·.branches.length)).sum
        + (unreachable (sets.values.flatMap (·.madeReports strict))).length
        + ((undiscriminated (sets.values.flatMap (·.madeReports strict))).map fun w => w.2 - 1).sum
      = sets.prototypes.length := by
  have hlater : ((undiscriminated (sets.values.flatMap (·.madeReports strict))).map
        fun w => (sets.laterIds w.1).length)
      = (undiscriminated (sets.values.flatMap (·.madeReports strict))).map fun w => w.2 - 1 :=
    List.map_congr_left fun w hw => length_laterIds hsets hnames hw
  have hlength := (accounts_all strict enums hsets hnames).length_eq
  rw [List.length_append, List.length_append, List.length_flatMap, List.length_flatMap, hlater,
    List.length_map] at hlength
  simpa [Binding.nodeIds] using hlength

end OverloadSets

/-! ## Runs -/

lemma unreachable?_of_isAdmission {d : Diagnostic} (h : d.IsAdmission) : d.unreachable? = none := by
  cases h <;> rfl

lemma undiscriminated?_of_isAdmission {d : Diagnostic} (h : d.IsAdmission) :
    d.undiscriminated? = none := by
  cases h <;> rfl

/-- Grouping reports nothing that is not fatal. -/
lemma diagnostics_group_eq_nil {ps : List Prototype}
    (h : (group ps).diagnostics.hasFatal = false) : (group ps).diagnostics = [] := by
  refine List.eq_nil_iff_forall_not_mem.2 fun d hd => ?_
  have hfatal : d.isFatal = true := by
    rcases mem_diagnostics_group hd with ⟨_, _, _, _, rfl⟩ | ⟨_, _, _, rfl⟩ <;> rfl
  rw [hasFatal_of_mem hd hfatal] at h
  exact absurd h (by simp)

/-- **No node disappears from a run.**  When a run reports nothing fatal, the branches of the
bindings, the warnings on unreachable branches and the later members of the sets without a
discriminator are, all together, the admitted prototypes. -/
theorem run_accounts_for_prototypes {strict : Bool} {stage : Schema.Stage}
    {descriptions : Schema.Descriptions} {m : BindingModule} {s : Session}
    (hrun : (Session.new strict).run stage descriptions = (.ok m, s))
    (hfatal : s.ledger.diagnostics.hasFatal = false) :
    ∃ ps, ((Session.new strict).loadStage stage descriptions).1 = .ok ps ∧
      (m.bindings.map (·.branches.length)).sum + s.ledger.diagnostics.unreachable.length
          + (s.ledger.diagnostics.undiscriminated.map fun w => w.2 - 1).sum = ps.length ∧
      (m.bindings.flatMap Binding.nodeIds ++ s.ledger.diagnostics.unreachable
          ++ s.ledger.diagnostics.undiscriminated.flatMap
              fun w => (group ps).value.laterIds w.1).Perm (ps.map (·.id)) := by
  rcases Session.run_cases (Session.new strict) stage descriptions with
    ⟨e, s₁, hload, heq⟩ | ⟨ps, s₁, hload, heq⟩
  · exact absurd (Prod.mk.inj (heq.symm.trans hrun)).1 (by simp)
  refine ⟨ps, by rw [hload], ?_⟩
  obtain ⟨hm, rfl⟩ := Prod.mk.inj (heq.symm.trans hrun)
  obtain rfl := Except.ok.inj hm
  obtain ⟨hstrict, ⟨-, loaded, hloaded, hadmission⟩, -⟩ := Session.loadStage_spec hload
  have hledger : s₁.ledger.diagnostics = loaded := hloaded
  -- the diagnostics are those of loading, of grouping and of the synthesis of all sets
  simp only [Session.synthesizeAll, Session.buildOverloads, Session.report, Ledger.report,
    hledger] at hfatal ⊢
  rw [hasFatal_append, hasFatal_append, Bool.or_eq_false_iff, Bool.or_eq_false_iff] at hfatal
  have hgroup : (group ps).diagnostics = [] := diagnostics_group_eq_nil hfatal.1.2
  have hsets : ∀ set ∈ (group ps).value.values, set.Uniform :=
    fun set hset => (uniform_of_mem_values hset).1
  obtain ⟨hall, hnodup⟩ :=
    Session.addBindings_of_not_fatal (fun set hset => (hsets set hset).nonempty) hfatal.2
  have hnames : ((group ps).value.values.map fun set => lowerCamel set.baseName).Nodup := by
    simpa [List.map_map, Function.comp_def, OverloadSet.made]
      using hnodup List.nodup_nil
  have hunreachable : loaded.unreachable = [] :=
    unreachable_eq_nil fun d hd => unreachable?_of_isAdmission (hadmission d hd)
  have hundiscriminated : loaded.undiscriminated = [] :=
    undiscriminated_eq_nil fun d hd => undiscriminated?_of_isAdmission (hadmission d hd)
  rw [hall, hgroup]
  simp only [List.append_nil, List.nil_append, unreachable_append, undiscriminated_append,
    hunreachable, hundiscriminated]
  have hkept : (group ps).value.prototypes.Perm ps := group_perm_of_silent hgroup
  refine ⟨?_, ?_⟩
  · rw [← hkept.length_eq]
    exact OverloadSets.count_all s₁.strict s₁.ledger.enums hsets hnames
  · exact (OverloadSets.accounts_all s₁.strict s₁.ledger.enums hsets hnames).trans
      (hkept.map (·.id))

/-! ## A run over three nodes -/

/-- A property without metadata. -/
def plainProperty (name typeName : String) : Schema.Property :=
  { name := name
    typeName := typeName
    aliases := []
    isArray := false
    default? := none
    metadata := [] }

/-- A prim with one input and one output. -/
def mixPrim (suffix inputType outputType : String) : Schema.Prim :=
  { path := "/ND_mix" ++ suffix
    metadata := []
    properties := [plainProperty "inputs:fg" inputType, plainProperty "outputs:out" outputType] }

/-- Three nodes: two that a binding tells apart, and one that it does not reach. -/
def mixStage : Schema.Stage :=
  ⟨[mixPrim "_float" "float" "float", mixPrim "_color3" "color3f" "color3f",
    mixPrim "_half" "double" "float"]⟩

theorem run_accounts_for_prototypes_mix :
    ∃ m s ps, (Session.new false).run mixStage [] = (.ok m, s) ∧
      s.ledger.diagnostics = [.unreachableBranch "mix" "ND_mix_half" "ND_mix_float"] ∧
      ((Session.new false).loadStage mixStage []).1 = .ok ps ∧
      (m.bindings.map (·.branches.length)).sum + 1 = ps.length ∧
      (m.bindings.flatMap Binding.nodeIds ++ ["ND_mix_half"]).Perm (ps.map (·.id)) := by
  have hok : ((Session.new false).run mixStage []).1.toBool = true := by decide +kernel
  have hdiagnostics : ((Session.new false).run mixStage []).2.ledger.diagnostics
      = [.unreachableBranch "mix" "ND_mix_half" "ND_mix_float"] := by decide +kernel
  rcases hrun : (Session.new false).run mixStage [] with ⟨e | m, s⟩
  · rw [hrun] at hok
    exact absurd hok Bool.false_ne_true
  · rw [hrun] at hdiagnostics
    have hfatal : s.ledger.diagnostics.hasFatal = false := by
      rw [hdiagnostics]
      rfl
    obtain ⟨ps, hload, hcount, hperm⟩ := run_accounts_for_prototypes hrun hfatal
    rw [hdiagnostics] at hcount hperm
    have hone : unreachable [.unreachableBranch "mix" "ND_mix_half" "ND_mix_float"]
        = ["ND_mix_half"] := rfl
    have hnone : undiscriminated [.unreachableBranch "mix" "ND_mix_half" "ND_mix_float"] = [] := rfl
    rw [hone, hnone, List.flatMap_nil, List.append_nil] at hperm
    exact ⟨m, s, ps, rfl, hdiagnostics, hload, hcount, hperm⟩

end ShaderBindings
