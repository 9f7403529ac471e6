/-
# Strictness is a filter

A strict session calls an overload without a discriminator fatal, and otherwise it works like any
other session.  So the strict run over a stage is the lenient run with these reports made fatal:
`tightened` does this to reports, to whatever carries reports, and to sessions, and it commutes with
the steps of a run, from the reports on one overload to the whole run (`run_new_true`).

The one step that asks whether a report is fatal is the one on a set without a binding.  Such a set
fails before anything is reported on its discriminator, so its reports are the same in both modes
(`tightened_bindingOf_of_error`).
-/
import ShaderBindings.Proofs.Reachability

namespace ShaderBindings

/-! ## Reports of a strict run -/

/-- What a strict session reports in the place of a report. -/
def Diagnostic.tightened : Diagnostic → Diagnostic
  | noDiscriminator binding members _ => noDiscriminator binding members true
  | d => d

def Diagnostics.tightened (ds : Diagnostics) : Diagnostics := ds.map Diagnostic.tightened

def Reported.tightened {α : Type _} (r : Reported α) : Reported α :=
  ⟨r.value, r.diagnostics.tightened⟩

def Session.tightened (s : Session) : Session :=
  ⟨true, ⟨s.ledger.enums, s.ledger.diagnostics.tightened⟩⟩

lemma Diagnostic.isFatal_tightened (d : Diagnostic) :
    d.tightened.isFatal = (d.isFatal || decide (d.kind = "no_discriminator")) := by
  cases d with
  | noDiscriminator binding members strict => cases strict <;> rfl
  | _ => rfl

lemma Diagnostic.tightened_of_kind_ne {d : Diagnostic} (h : d.kind ≠ "no_discriminator") :
    d.tightened = d := by
  cases d with
  | noDiscriminator => exact absurd rfl h
  | _ => rfl

namespace Diagnostics

variable {ds es : Diagnostics}

lemma tightened_append : tightened (ds ++ es) = ds.tightened ++ es.tightened := List.map_append

lemma tightened_eq_self (h : ∀ d ∈ ds, d.tightened = d) : ds.tightened = ds :=
  (List.map_congr_left h).trans (List.map_id' ds)

lemma kindCount_eq_zero_iff {kind : String} :
    ds.kindCount kind = 0 ↔ ∀ d ∈ ds, d.kind ≠ kind := by
  simp [kindCount, List.countP_eq_zero]

/-- A strict session sees a fatal report where there is one, or one on a discriminator. -/
lemma hasFatal_tightened_eq_false_iff : ds.tightened.hasFatal = false ↔
    ds.hasFatal = false ∧ ds.kindCount "no_discriminator" = 0 := by
  rw [kindCount_eq_zero_iff, hasFatal, hasFatal, tightened, List.any_map, List.any_eq_false,
    List.any_eq_false, ← forall₂_and]
  refine forall₂_congr fun d _ => ?_
  simp [Diagnostic.isFatal_tightened]

lemma tightened_of_kindCount (h : ds.kindCount "no_discriminator" = 0) : ds.tightened = ds :=
  tightened_eq_self fun d hd => Diagnostic.tightened_of_kind_ne (kindCount_eq_zero_iff.1 h d hd)

end Diagnostics

open Diagnostics

/-! ## One set -/

lemma Category.tightened_joinReport (context : String) (cs : List Category) :
    (joinReport context cs).tightened = joinReport context cs := by
  rw [joinReport]
  split_ifs <;> rfl

namespace OverloadSet

variable (s : OverloadSet) (a : Analysis) (strict : Bool)

lemma tightened_analyze : s.analyze.diagnostics.tightened = s.analyze.diagnostics := by
  have hjoin := Category.tightened_joinReport ("outputs of '" ++ s.baseName ++ "'")
    s.outputCategories
  rw [analyze]
  split
  · exact hjoin
  · split
    · rw [tightened_append]
      exact congrArg (· ++ _) hjoin
    · exact hjoin

lemma tightened_shadowReports (binding : String) (positions : List Nat) (earlier : List Branch)
    (ps : List Prototype) : tightened (shadowReports binding positions earlier ps)
      = shadowReports binding positions earlier ps := by
  refine tightened_eq_self fun d hd => ?_
  obtain ⟨_, _, rfl⟩ := exists_of_mem_shadowReports hd
  rfl

/-- The reports on the parameters are those on joins. -/
lemma tightened_params (enums : EnumRegistry) (positions : List Position) :
    (s.params a enums positions).diagnostics.tightened
      = (s.params a enums positions).diagnostics := by
  have htyped : ∀ p, (s.typed a p).diagnostics.tightened = (s.typed a p).diagnostics := by
    intro p
    rw [typed]
    split
    · rfl
    · rfl
    · split_ifs
      · rfl
      · rw [joined]
        split
        · rfl
        · exact Category.tightened_joinReport _ _
  induction positions with
  | nil => rfl
  | cons p rest ih =>
    rw [params]
    dsimp only
    split
    · exact htyped p
    · rw [tightened_append, ih]
      exact congrArg (· ++ _) (htyped p)

/-- Only the report on the discriminator changes. -/
lemma tightened_dispatchReports :
    (s.dispatchReports a strict).tightened = s.dispatchReports a true := by
  have hdiscriminator : (s.discriminatorReport (lowerCamel s.baseName) a.discriminating
      strict).tightened = s.discriminatorReport (lowerCamel s.baseName) a.discriminating true := by
    rw [discriminatorReport, discriminatorReport]
    split_ifs <;> rfl
  have havailability : (s.availabilityReport (lowerCamel s.baseName)).tightened
      = s.availabilityReport (lowerCamel s.baseName) := by
    refine tightened_eq_self fun d hd => ?_
    obtain ⟨_, _, rfl⟩ := exists_of_mem_availabilityReport hd
    rfl
  rw [dispatchReports, dispatchReports, tightened_append, tightened_append, hdiscriminator,
    tightened_shadowReports, havailability]

lemma tightened_synthesize (enums : EnumRegistry) :
    (s.synthesize a enums strict).tightened = s.synthesize a enums true := by
  have hparams := s.tightened_params a enums a.positions
  rw [synthesize, synthesize]
  split_ifs
  · dsimp only
    split
    · rw [Reported.tightened, hparams]
    · rw [Reported.tightened, tightened_append, hparams, tightened_dispatchReports]
  · rfl

end OverloadSet

namespace Session

variable (strict : Bool) (enums : EnumRegistry)

lemma tightened_bindingOf (set : OverloadSet) :
    (bindingOf strict enums set).tightened = bindingOf true enums set := by
  rw [bindingOf, bindingOf]
  dsimp only
  split
  · rw [Reported.tightened, OverloadSet.tightened_analyze]
  · rw [Reported.tightened, tightened_append, OverloadSet.tightened_analyze,
      ← OverloadSet.tightened_synthesize]
    rfl

/-- A set without a binding has no report on its discriminator. -/
lemma tightened_bindingOf_of_error {set : OverloadSet} {fault : Fault}
    (h : (bindingOf strict enums set).value = .error fault) :
    (bindingOf strict enums set).diagnostics.tightened
      = (bindingOf strict enums set).diagnostics := by
  rw [bindingOf] at h ⊢
  dsimp only at h ⊢
  split
  · exact set.tightened_analyze
  · rename_i analysis hanalysis
    simp only [hanalysis, OverloadSet.synthesize] at h ⊢
    split_ifs at h ⊢
    · rcases hparams : (set.params analysis enums analysis.positions).value with fault | params
      · rw [tightened_append, set.tightened_analyze, set.tightened_params]
      · simp [hparams] at h
    · rw [List.append_nil]
      exact set.tightened_analyze

/-- Whether a binding is added does not depend on the strictness. -/
lemma tightened_addBinding (bindings : List Binding) (set : OverloadSet) :
    (addBinding strict enums bindings set).tightened = addBinding true enums bindings set := by
  rw [addBinding, addBinding, ← tightened_bindingOf strict]
  rcases hmade : (bindingOf strict enums set).value with fault | b
  -- the set has no binding, and a report on that is made in both modes or in neither
  · have hsame := tightened_bindingOf_of_error strict enums hmade
    have hfault : (faultReport set fault (bindingOf strict enums set).diagnostics).tightened
        = faultReport set fault (bindingOf strict enums set).diagnostics := by
      rw [faultReport]
      split_ifs <;> rfl
    simp only [Reported.tightened, hmade, tightened_append, hsame, hfault]
  -- the set has a binding, whose name is taken or new
  · simp only [Reported.tightened, hmade]
    split
    · rw [tightened_append]
      rfl
    · rfl

lemma tightened_addBindings (bindings : List Binding) (sets : List OverloadSet) :
    (addBindings strict enums bindings sets).tightened = addBindings true enums bindings sets := by
  induction sets generalizing bindings with
  | nil => rfl
  | cons set rest ih =>
    rw [addBindings, addBindings, ← tightened_addBinding strict]
    dsimp only [Reported.tightened]
    rw [tightened_append, ← ih]
    rfl

/-! ## Runs -/

variable (s : Session) (stage : Schema.Stage) (descriptions : Schema.Descriptions)

lemma synthesizeAll_tightened (sets : OverloadSets) : s.tightened.synthesizeAll sets
    = ((s.synthesizeAll sets).1, (s.synthesizeAll sets).2.tightened) := by
  have hall := tightened_addBindings s.strict s.ledger.enums [] sets.values
  simp only [synthesizeAll, tightened, report, Ledger.report, ← hall, Reported.tightened,
    tightened_append]

lemma buildOverloads_tightened (ps : List Prototype) : s.tightened.buildOverloads ps
    = ((s.buildOverloads ps).1, (s.buildOverloads ps).2.tightened) := by
  have hgroup : (group ps).diagnostics.tightened = (group ps).diagnostics := by
    refine tightened_eq_self fun d hd => ?_
    rcases mem_diagnostics_group hd with ⟨_, _, _, _, rfl⟩ | ⟨_, _, _, rfl⟩ <;> rfl
  simp only [buildOverloads, tightened, report, Ledger.report, tightened_append, hgroup]

/-- Loading into a new session reports nothing on discriminators. -/
lemma loadStage_new_true : (Session.new true).loadStage stage descriptions
    = (((Session.new false).loadStage stage descriptions).1,
      ((Session.new false).loadStage stage descriptions).2.tightened) := by
  rcases hload : (Session.new false).loadStage stage descriptions with ⟨found, s⟩
  obtain ⟨-, ⟨-, new, hnew, hadmission⟩, -⟩ := loadStage_spec hload
  have hsame : s.ledger.diagnostics.tightened = s.ledger.diagnostics := by
    refine tightened_eq_self fun d hd => ?_
    rw [hnew] at hd
    cases hadmission d hd <;> rfl
  rw [tightened, hsame]
  obtain ⟨rfl, rfl⟩ := Prod.mk.inj hload
  rfl

/-- **The strict run is the lenient run with its reports on discriminators made fatal.** -/
lemma run_new_true : (Session.new true).run stage descriptions
    = (((Session.new false).run stage descriptions).1,
      ((Session.new false).run stage descriptions).2.tightened) := by
  rw [run, run, loadStage_new_true]
  rcases (Session.new false).loadStage stage descriptions with ⟨e | ps, s⟩
  · rfl
  · simp only [buildOverloads_tightened, synthesizeAll_tightened]

end Session

/-! ## Generation -/

/-- Generation succeeds in strict mode when it succeeds otherwise without a report on a
discriminator, and then it gives the same. -/
lemma ofStage_true_eq_ok_iff {stage : Schema.Stage} {descriptions : Schema.Descriptions}
    {g : Generated} : Generated.ofStage stage descriptions true = .ok g ↔
      Generated.ofStage stage descriptions false = .ok g ∧
        g.diagnostics.kindCount "no_discriminator" = 0 := by
  rw [Generated.ofStage_eq_ok_iff, Generated.ofStage_eq_ok_iff, Session.run_new_true]
  constructor
  · rintro ⟨m, s', hrun', hfatal, hg⟩
    obtain ⟨hm, rfl⟩ := Prod.mk.inj hrun'
    obtain ⟨hlenient, hnone⟩ := hasFatal_tightened_eq_false_iff.1 hfatal
    rw [Session.tightened, tightened_of_kindCount hnone] at hg
    refine ⟨⟨m, _, Prod.ext hm rfl, hlenient, hg⟩, ?_⟩
    rw [Generated.diagnostics_ofModule hg]
    exact hnone
  · rintro ⟨⟨m, s, hrun, hlenient, hg⟩, hnone⟩
    rw [Generated.diagnostics_ofModule hg] at hnone
    rw [hrun]
    refine ⟨m, _, rfl, hasFatal_tightened_eq_false_iff.2 ⟨hlenient, hnone⟩, ?_⟩
    rw [Session.tightened, tightened_of_kindCount hnone]
    exact hg

/-- **Strict mode is a filter.**  In strict mode generation gives exactly what it gives otherwise
without a report on a discriminator, and it fails where there is such a report.  The modules of the
two runs are the same in any case. -/
theorem generate_strict_eq_ok_iff (schema : String) (descriptions : Schema.Descriptions) :
    (∀ g, generate schema descriptions true = .ok g ↔
      generate schema descriptions false = .ok g ∧
        g.diagnostics.kindCount "no_discriminator" = 0) ∧
      ∀ stage, ((Session.new true).run stage descriptions).1
        = ((Session.new false).run stage descriptions).1 := by
  refine ⟨fun g => ?_, fun stage => ?_⟩
  · simp only [generate_eq_ok_iff, ofStage_true_eq_ok_iff, ← and_assoc, exists_and_right]
  · rw [Session.run_new_true]

/-- A prim with one input that takes the member of an enumeration, and with an output of a type
outside the tables. -/
def pickPrim (suffix inputType : String) : Schema.Prim :=
  { path := "/ND_pick" ++ suffix
    metadata := []
    properties :=
      [{ plainProperty "inputs:mode" inputType with
          metadata := [("allowedTokens", .array [.string "fast"])] },
        plainProperty "outputs:out" "quatf"] }

/-- Two nodes that only the type of an enumeration tells apart. -/
def pickStage : Schema.Stage := ⟨[pickPrim "_float" "string", pickPrim "_color3" "token"]⟩

example : (Generated.ofStage pickStage [] false).toBool = true ∧
    (Generated.ofStage pickStage [] true).toBool = false := by
  decide +kernel

end ShaderBindings
