/-
# Every set has one outcome

The synthesis takes the groups in the order of their base names.  A group ends in one of three ways:
it has its binding, its members mix enumerations with something else at a position, or the name of
its binding is that of an earlier one.  Its members and the earlier names decide which, and its
fatal reports tell (`Outcome.IsOf`).  Besides, a strict session makes the report on a set without a
discriminator fatal, and this report can stand in the first case and in the third.

A step over one group leaves the earlier bindings and the later groups alone, so that it has its
outcome whatever they are (`exists_isOf`).  The reports of all groups stand one behind the other,
none stopped, hidden or doubled.  The names of bindings can fall together for different bases, but
the bases of the bindings increase as those of the groups do.
-/
import ShaderBindings.Proofs.Locality

namespace ShaderBindings

/-! ## Outcomes -/

/-- The report on a set without a discriminator, as far as it is fatal. -/
def OverloadSet.strictReport (s : OverloadSet) (strict : Bool) : Diagnostics :=
  if strict = true ∧ (s.analysis s.returned).discriminating = [] ∧ 1 < s.members.length then
    [.noDiscriminator (lowerCamel s.baseName) s.members.length true]
  else []

/-- What becomes of a set. -/
inductive OverloadSet.Outcome where
  /-- The set has its binding. -/
  | bound
  /-- The members mix enumerations with something else at the position of an input. -/
  | mixed (input : String)
  /-- The name of the binding is that of the binding `first`. -/
  | taken (first : Binding)

namespace OverloadSet.Outcome

/-- The bindings of a set. -/
def bindings (enums : EnumRegistry) (set : OverloadSet) : Outcome → List Binding
  | bound => [set.made enums]
  | mixed _ | taken _ => []

/-- What the outcome of a set is due to, among the bindings `all`. -/
def IsDue (all : List Binding) (set : OverloadSet) : Outcome → Prop
  | bound => ∀ index < set.arity, set.hasMixedRoles index = false
  | mixed input => ∃ index, set.MixesAt index ∧ set.inputName index = input
  | taken first => (∀ index < set.arity, set.hasMixedRoles index = false) ∧
      first ∈ all ∧ first.name = lowerCamel set.baseName ∧ first.baseName < set.baseName

/-- The fatal reports on a set. -/
def fatal (strict : Bool) (set : OverloadSet) : Outcome → Diagnostics
  | bound => set.strictReport strict
  | mixed input => [set.mixedReport input]
  | taken first => set.strictReport strict
      ++ [.duplicateBinding (lowerCamel set.baseName) first.baseName set.baseName]

/-- A set has the outcome in a session that makes the bindings `all` of several sets and reports
`ds` on this one. -/
structure IsOf (o : Outcome) (s : Session) (all : List Binding) (set : OverloadSet)
    (ds : Diagnostics) : Prop where
  bindings : all.filter (fun b => b.baseName = set.baseName) = o.bindings s.ledger.enums set
  due : o.IsDue all set
  fatal : ds.atSeverity .fatal = o.fatal s.strict set

variable {s : Session} {all : List Binding} {set : OverloadSet} {ds : Diagnostics}

/-- A set has one outcome at most, when the names of the bindings differ. -/
lemma IsOf.unique (hnames : (all.map (·.name)).Nodup) {o o' : Outcome} (h : o.IsOf s all set ds)
    (h' : o'.IsOf s all set ds) : o = o' := by
  have hbindings := h.bindings.symm.trans h'.bindings
  have hfatal := h.fatal.symm.trans h'.fatal
  rcases o with _ | input | first <;> rcases o' with _ | input' | first'
  · rfl
  -- only one of them has a binding
  · exact absurd hbindings (List.cons_ne_nil _ _)
  · exact absurd hbindings (List.cons_ne_nil _ _)
  · exact absurd hbindings.symm (List.cons_ne_nil _ _)
  · simpa [Outcome.fatal, mixedReport] using hfatal
  -- the last report differs
  · have hlast := congrArg List.getLast? hfatal
    simp [Outcome.fatal, mixedReport] at hlast
  · exact absurd hbindings.symm (List.cons_ne_nil _ _)
  · have hlast := congrArg List.getLast? hfatal
    simp [Outcome.fatal, mixedReport] at hlast
  -- a name tells its binding
  · obtain ⟨-, hmem, hname, -⟩ := h.due
    obtain ⟨-, hmem', hname', -⟩ := h'.due
    rw [List.inj_on_of_nodup_map hnames hmem hmem' (hname.trans hname'.symm)]

end OverloadSet.Outcome

/-! ## Fatal reports -/

namespace Diagnostics

variable {ds es : Diagnostics}

lemma atSeverity_append (severity : Severity) :
    atSeverity (ds ++ es) severity = ds.atSeverity severity ++ es.atSeverity severity :=
  List.filter_append _ _

end Diagnostics

open Diagnostics

namespace OverloadSet

variable {s : OverloadSet} {strict : Bool}

lemma fatal_outputReport (hne : s.members ≠ []) : s.outputReport.atSeverity .fatal = [] := by
  refine List.filter_eq_nil_iff.2 fun d hd => ?_
  obtain ⟨_, _, rfl⟩ := exists_of_mem_outputReport hne hd
  simp [Diagnostic.severity]

/-- Only the report on a set without a discriminator is fatal on the way to a binding. -/
lemma fatal_madeReports (hs : s.Uniform) :
    (s.madeReports strict).atSeverity .fatal = s.strictReport strict := by
  have hshadow : (shadowReports (lowerCamel s.baseName) (s.analysis s.returned).discriminating []
      s.prototypes).filter (·.severity = .fatal) = [] := by
    refine List.filter_eq_nil_iff.2 fun d hd => ?_
    obtain ⟨_, _, rfl⟩ := exists_of_mem_shadowReports hd
    simp [Diagnostic.severity]
  have hmade : (s.madeReports strict).filterMap (Option.guard fun d => d.severity = .fatal) = _ :=
    filterMap_madeReports (fun _ _ => rfl) (fun _ _ _ => rfl) hs
  rw [List.filterMap_eq_filter] at hmade
  rw [atSeverity, hmade, hshadow, List.append_nil, discriminatorReport, strictReport]
  by_cases h : (s.analysis s.returned).discriminating = [] ∧ 1 < s.members.length
  · rcases strict with _ | _ <;> simp [h, Diagnostic.severity]
  · rw [if_neg (by simpa using h), if_neg fun hall => h hall.2]
    rfl

end OverloadSet

/-! ## One set -/

namespace Session

variable {s : Session} {set : OverloadSet} {sets : List OverloadSet} {bindings : List Binding}

/-- A set has an outcome, whatever the earlier bindings and the later sets are. -/
lemma exists_isOf (hset : set.Uniform) (hsets : ∀ later ∈ sets, later.members ≠ [])
    (hbefore : ∀ b ∈ bindings, b.baseName < set.baseName)
    (hafter : ∀ later ∈ sets, set.baseName < later.baseName) :
    ∃ o : OverloadSet.Outcome, o.IsOf s
      (addBindings s.strict s.ledger.enums bindings (set :: sets)).value set
      (addBinding s.strict s.ledger.enums bindings set).diagnostics := by
  obtain ⟨added, hvalue, hsublist⟩ := exists_added s.strict s.ledger.enums
    (addBinding s.strict s.ledger.enums bindings set).value hsets
  have hall : (addBindings s.strict s.ledger.enums bindings (set :: sets)).value
      = (addBinding s.strict s.ledger.enums bindings set).value ++ added := hvalue
  -- neither the earlier bindings nor the later ones have the base of the set
  have hearlier : bindings.filter (fun b => b.baseName = set.baseName) = [] :=
    List.filter_eq_nil_iff.2 fun b hb => by simpa using (hbefore b hb).ne
  have hlater : added.filter (fun b => b.baseName = set.baseName) = [] := by
    refine List.filter_eq_nil_iff.2 fun b hb => ?_
    obtain ⟨later, hmem, rfl⟩ := List.mem_map.1 (hsublist.subset hb)
    have hne : (later.made s.ledger.enums).baseName ≠ set.baseName := (hafter later hmem).ne'
    simpa using hne
  rw [hall]
  rcases addBinding_cases hset.nonempty s.strict s.ledger.enums bindings with
    ⟨heq, hroles, -⟩ | ⟨first, hfirst, heq, hroles, hname⟩ | ⟨index, heq, hmixed⟩
  -- the set has its binding
  · refine ⟨.bound, ?_, hroles, ?_⟩
    · rw [heq, List.filter_append, List.filter_append, hearlier, hlater]
      simp [OverloadSet.Outcome.bindings, OverloadSet.made]
    · rw [heq]
      exact OverloadSet.fatal_madeReports hset
  -- its name is taken
  · refine ⟨.taken first, ?_, ⟨hroles, ?_, hname, hbefore first hfirst⟩, ?_⟩
    · rw [heq, List.filter_append, hearlier, hlater]
      rfl
    · rw [heq]
      exact List.mem_append_left _ hfirst
    · rw [heq, atSeverity_append, OverloadSet.fatal_madeReports hset]
      rfl
  -- its members are mixed
  · refine ⟨.mixed (set.inputName index), ?_, ⟨index, hmixed, rfl⟩, ?_⟩
    · rw [heq, List.filter_append, hearlier, hlater]
      rfl
    · rw [heq, atSeverity_append, OverloadSet.fatal_outputReport hset.nonempty]
      rfl

/-! ## All sets -/

/-- The reports on each of some sets. -/
def reportsOn (strict : Bool) (enums : EnumRegistry) (bindings : List Binding) :
    List OverloadSet → List Diagnostics
  | [] => []
  | set :: rest =>
    let one := addBinding strict enums bindings set
    one.diagnostics :: reportsOn strict enums one.value rest

/-- The reports on each of the sets whose bindings a session makes. -/
def contributions (s : Session) (sets : OverloadSets) : List Diagnostics :=
  reportsOn s.strict s.ledger.enums [] sets.values

/-- The reports on all sets are those on each, one behind the other. -/
lemma flatten_reportsOn (strict : Bool) (enums : EnumRegistry) (bindings : List Binding)
    (sets : List OverloadSet) :
    (reportsOn strict enums bindings sets).flatten
      = (addBindings strict enums bindings sets).diagnostics := by
  induction sets generalizing bindings with
  | nil => rfl
  | cons set rest ih => rw [reportsOn, addBindings, List.flatten_cons, ih]

/-- Sets in the order of their base names have their outcomes. -/
lemma forall₂_isOf (hsets : ∀ set ∈ sets, set.Uniform)
    (hsorted : (sets.map (·.baseName)).Pairwise (· < ·))
    (hbefore : ∀ b ∈ bindings, ∀ set ∈ sets, b.baseName < set.baseName) :
    List.Forall₂ (fun set ds => ∃ o : OverloadSet.Outcome,
        o.IsOf s (addBindings s.strict s.ledger.enums bindings sets).value set ds)
      sets (reportsOn s.strict s.ledger.enums bindings sets) := by
  induction sets generalizing bindings with
  | nil => exact List.Forall₂.nil
  | cons set rest ih =>
    rw [List.forall_mem_cons] at hsets
    rw [List.map_cons, List.pairwise_cons, List.forall_mem_map] at hsorted
    refine List.Forall₂.cons ?_ (ih hsets.2 hsorted.2 ?_)
    · exact exists_isOf hsets.1 (fun later hlater => (hsets.2 later hlater).nonempty)
        (fun b hb => hbefore b hb set List.mem_cons_self) hsorted.1
    -- what the set adds stands before the later ones
    · intro b hb later hlater
      rcases mem_addBinding hsets.1.nonempty hb with hb | rfl
      · exact hbefore b hb later (List.mem_cons_of_mem _ hlater)
      · exact hsorted.1 later hlater

end Session

/-- The groups stand in the order of their base names. -/
lemma pairwise_baseName_group (ps : List Prototype) :
    ((group ps).value.values.map (·.baseName)).Pairwise (· < ·) := by
  rw [Dictionary.values, List.map_map, List.pairwise_map]
  refine (sorted_group ps).imp_of_mem fun {a b} ha hb hlt => ?_
  simp only [Function.comp_apply, (wellGrouped_of_mem_group ha).key_eq,
    (wellGrouped_of_mem_group hb).key_eq]
  exact hlt

/-- **Every set has one outcome.**  The bindings that a session makes of groups have different names
and increasing base names.  The session reports what the groups contribute, one behind the other,
and each group has exactly one outcome: it has its binding; it is left out with one report on its
members; or it is left out with one report on its name, which an earlier binding owns. -/
theorem synthesizeAll_outcomes (s : Session) (ps : List Prototype) :
    ((s.synthesizeAll (group ps).value).1.bindings.map (·.name)).Nodup ∧
      ((s.synthesizeAll (group ps).value).1.bindings.map (·.baseName)).Pairwise (· < ·) ∧
      (s.synthesizeAll (group ps).value).2.ledger.diagnostics
        = s.ledger.diagnostics ++ (s.contributions (group ps).value).flatten ∧
      List.Forall₂ (fun set ds => ∃! o : OverloadSet.Outcome,
          o.IsOf s (s.synthesizeAll (group ps).value).1.bindings set ds)
        (group ps).value.values (s.contributions (group ps).value) := by
  have huniform : ∀ set ∈ (group ps).value.values, set.Uniform :=
    fun set hset => (uniform_of_mem_values hset).1
  have hsorted := pairwise_baseName_group ps
  have hnames : ((s.synthesizeAll (group ps).value).1.bindings.map (·.name)).Nodup :=
    Session.nodup_addBindings (fun set hset => (huniform set hset).nonempty) List.nodup_nil
  refine ⟨hnames, ?_, ?_, ?_⟩
  -- the bindings stand in the order of their groups
  · obtain ⟨added, hvalue, hsublist⟩ := Session.exists_added s.strict s.ledger.enums []
      fun set hset => (huniform set hset).nonempty
    have hbases : (((group ps).value.values.map (·.made s.ledger.enums)).map (·.baseName))
        = (group ps).value.values.map (·.baseName) := List.map_map
    have hbindings : (s.synthesizeAll (group ps).value).1.bindings = added := hvalue
    rw [hbindings]
    refine List.Pairwise.sublist (hsublist.map _) ?_
    rw [hbases]
    exact hsorted
  · rw [Session.contributions, Session.flatten_reportsOn]
    rfl
  · refine (Session.forall₂_isOf huniform hsorted fun b hb => absurd hb List.not_mem_nil).imp ?_
    rintro set ds ⟨o, ho⟩
    exact ⟨o, ho, fun o' ho' => ho'.unique hnames ho⟩

/-- Two bases whose bindings would have one name. -/
def clashStage : Schema.Stage :=
  ⟨[plainNode "glowUp_float" "float" "float", plainNode "glow_up_float" "float" "float"]⟩

example : ((Session.new false).run clashStage []).1.toOption.map
      (fun m => m.bindings.map (·.baseName)) = some ["glowUp"] ∧
    ((Session.new false).run clashStage []).2.ledger.diagnostics
      = [.duplicateBinding "glowUp" "glowUp" "glow_up"] := by
  decide +kernel

end ShaderBindings
