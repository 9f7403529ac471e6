/-
# Nodes that are excluded by name

A name may mark a node as internal or as written by hand, and such a node gets no binding.  An
internal name settles this before anything of the prim is read.  A manual name does so behind the
metadata of the prim, so that the node is left out exactly when that metadata is in shape, and is
refused for it otherwise (`marked_leftOut_iff`).  The properties of a marked prim never matter.

A prim that is left out may stand anywhere in a stage, and a run takes no notice of it; a prim that
is refused ends every run.
-/
import ShaderBindings.Proofs.Atomicity
import ShaderBindings.Proofs.Declarations
import ShaderBindings.Proofs.Metadata

namespace ShaderBindings

open Fault

/-! ## Prims in a run -/

section Runs

variable {prim : Schema.Prim} {descriptions : Schema.Descriptions} {l : Ledger}

/-- Loading tells of every prim that is left out, and of no other one. -/
lemma load_eq_none_iff : load prim descriptions l = (.ok none, l) ↔ prim.isLeftOut = true := by
  constructor
  · intro h
    rcases load_eq_ok_cases h with ⟨hdraft, -, -⟩ | ⟨d, -, hnone, -⟩
    · rw [Schema.Prim.isLeftOut, hdraft]
    · exact absurd hnone.symm (Option.some_ne_none _)
  · exact fun h => load_of_isLeftOut h descriptions l

namespace Session

variable {s : Session}

/-- A run takes no notice of a prim that is left out, wherever it stands. -/
lemma run_append_cons_of_isLeftOut (h : prim.isLeftOut = true) (before after : List Schema.Prim) :
    s.run ⟨before ++ prim :: after⟩ descriptions = s.run ⟨before ++ after⟩ descriptions := by
  have hload : loadPrims descriptions (Schema.Stage.nodes ⟨before ++ prim :: after⟩) s.ledger
      = loadPrims descriptions (Schema.Stage.nodes ⟨before ++ after⟩) s.ledger := by
    rw [← loadPrims_filter, ← loadPrims_filter descriptions (Schema.Stage.nodes _)]
    simp only [Schema.Stage.nodes, List.filter_filter, List.filter_append]
    rw [List.filter_cons_of_neg (by simp [h])]
  rw [run, run, loadStage, loadStage, hload]

/-- A prim that is refused ends every run. -/
lemma exists_error_of_refused {e : InvalidMetadata} (h : draft? prim = .error e)
    {stage : Schema.Stage} (hprim : prim ∈ stage.nodes) :
    ∃ e', (s.run stage descriptions).1 = .error e' := by
  rcases hrun : s.run stage descriptions with ⟨e' | m, s'⟩
  · exact ⟨e', rfl⟩
  · obtain ⟨ps, s₁, hload, -, -⟩ := exists_loadStage_of_run hrun
    obtain ⟨found, hfound⟩ := (loadPrims_eq_ok (loadPrims_of_loadStage hload)).1 prim hprim
    exact absurd (h.symm.trans hfound) (by simp)

end Session

end Runs

/-! ## Marked prims -/

/-- The name without the mark of a node begins like that of an internal node or like that of a node
whose binding is written by hand. -/
def Schema.Prim.isMarked (prim : Schema.Prim) : Bool :=
  isInternalName (bareName prim.name) || isManualName (bareName prim.name)

/-- The name of the prim is an internal one, or what the prim says of itself is in shape. -/
def Schema.Prim.IsPresentable (prim : Schema.Prim) : Prop :=
  isInternalName (bareName prim.name) = true ∨ prim.metadata.WellShaped

section Marked

variable {prim : Schema.Prim}

/-- What becomes of a marked prim is up to its name and its own metadata. -/
lemma draft?_of_isMarked (h : prim.isMarked = true) :
    draft? prim = if isInternalName (bareName prim.name) then .ok none
      else (annotations? prim.name "<prim>" prim.metadata).map fun _ => none := by
  unfold draft?
  rw [Schema.Prim.isMarked, Bool.or_eq_true] at h
  by_cases hinternal : isInternalName (bareName prim.name) = true
  · rw [if_pos hinternal, if_pos hinternal]
  · rw [if_neg hinternal, if_neg hinternal]
    have hmanual := h.resolve_left hinternal
    rcases annotations? prim.name "<prim>" prim.metadata with e | a
    · rfl
    · show (if a.deprecated then _ else _) = _
      split_ifs
      · rfl
      · rfl

lemma isLeftOut_iff_of_isMarked (h : prim.isMarked = true) :
    prim.isLeftOut = true ↔ prim.IsPresentable := by
  rw [Schema.Prim.isLeftOut, draft?_of_isMarked h, Schema.Prim.IsPresentable,
    ← Annotations.exists_ofMetadata?_iff]
  by_cases hinternal : isInternalName (bareName prim.name) = true
  · simp [hinternal]
  · rw [if_neg hinternal]
    rcases hread : Annotations.ofMetadata? prim.metadata with defect | a
    · simp [annotations?_of_defect hread, Except.map, hinternal]
    · simp [annotations?_eq_ok_iff.2 hread, Except.map]

/-- A manual prim with a defect in its own metadata is refused for it. -/
lemma draft?_of_defect (h : prim.isMarked = true)
    (hinternal : ¬ isInternalName (bareName prim.name) = true) {defect : Annotations.Defect}
    (hdefect : Annotations.ofMetadata? prim.metadata = .error defect) :
    draft? prim = .error ⟨prim.name, "<prim>", .annotations defect⟩ := by
  rw [draft?_of_isMarked h, if_neg hinternal, annotations?_of_defect hdefect]
  rfl

/-- The properties of a marked prim are not read. -/
lemma draft?_withProperties (h : prim.isMarked = true) (properties : List Schema.Property) :
    draft? { prim with properties := properties } = draft? prim := by
  have hname : Schema.Prim.name { prim with properties := properties } = prim.name := rfl
  have hmarked : Schema.Prim.isMarked { prim with properties := properties } = true := by
    rw [Schema.Prim.isMarked, hname]
    exact h
  rw [draft?_of_isMarked h, draft?_of_isMarked hmarked, hname]

end Marked

/-- **A marked node is left out, unless its own metadata is malformed.**  A prim with an internal or
a manual name gives no prototype and changes nothing, exactly when the name is internal or the
metadata of the prim itself is in shape.  Otherwise it is refused for the first defect of that
metadata.  In both cases its properties do not matter.  A run takes no notice of the prim in the
first case, and fails in the second one. -/
theorem marked_leftOut_iff {prim : Schema.Prim} (hmarked : prim.isMarked = true) :
    (∀ descriptions l, load prim descriptions l = (.ok none, l) ↔ prim.IsPresentable) ∧
      (∀ descriptions l, ¬ prim.IsPresentable → ∃ defect,
        Annotations.ofMetadata? prim.metadata = .error defect ∧
        load prim descriptions l = (.error ⟨prim.name, "<prim>", .annotations defect⟩, l)) ∧
      (∀ properties descriptions l,
        load { prim with properties := properties } descriptions l = load prim descriptions l) ∧
      (∀ (s : Session) descriptions before after, prim.IsPresentable →
        s.run ⟨before ++ prim :: after⟩ descriptions = s.run ⟨before ++ after⟩ descriptions) ∧
      ∀ (s : Session) stage descriptions, ¬ prim.IsPresentable → prim ∈ stage.nodes →
        ∃ e, (s.run stage descriptions).1 = .error e := by
  have hdefect : ¬ prim.IsPresentable → ∃ defect,
      Annotations.ofMetadata? prim.metadata = .error defect ∧
        draft? prim = .error ⟨prim.name, "<prim>", .annotations defect⟩ := by
    intro h
    rw [Schema.Prim.IsPresentable, not_or, ← Annotations.exists_ofMetadata?_iff] at h
    rcases hread : Annotations.ofMetadata? prim.metadata with defect | a
    · exact ⟨defect, rfl, draft?_of_defect hmarked h.1 hread⟩
    · exact absurd ⟨a, hread⟩ h.2
  refine ⟨fun descriptions l => ?_, fun descriptions l h => ?_, fun properties descriptions l => ?_,
    fun s descriptions before after h => ?_, fun s stage descriptions h hprim => ?_⟩
  · rw [load_eq_none_iff, isLeftOut_iff_of_isMarked hmarked]
  · obtain ⟨defect, hread, hdraft⟩ := hdefect h
    refine ⟨defect, hread, ?_⟩
    rw [load, hdraft]
  · rw [load, load, draft?_withProperties hmarked]
  · have hout := (isLeftOut_iff_of_isMarked hmarked).2 h
    exact Session.run_append_cons_of_isLeftOut hout before after
  · obtain ⟨defect, -, hdraft⟩ := hdefect h
    exact Session.exists_error_of_refused hdraft hprim

/-- A prim with a manual name, whose input declares an enumeration with a number among its
members. -/
def convertPrim (displayName : Json) : Schema.Prim :=
  { path := "/ND_convert_pick"
    metadata := [("displayName", displayName)]
    properties :=
      [{ plainProperty "inputs:mode" "token" with
          metadata := [("allowedTokens", .array [.string "a", .number (.integer 3)])] },
        plainProperty "outputs:out" "float"] }

theorem marked_leftOut_iff_convert :
    (convertPrim (.string "Pick")).isMarked = true ∧
      (convertPrim (.string "Pick")).IsPresentable ∧
      load (convertPrim (.string "Pick")) [] Ledger.empty = (.ok none, Ledger.empty) ∧
      (Session.new false).run ⟨mixStage.prims ++ [convertPrim (.string "Pick")]⟩ []
        = (Session.new false).run mixStage [] := by
  have hmarked : (convertPrim (.string "Pick")).isMarked = true := by decide +kernel
  have hshape : (convertPrim (.string "Pick")).IsPresentable :=
    Or.inr (Annotations.exists_ofMetadata?_iff.1 ⟨_, rfl⟩)
  obtain ⟨hload, -, -, hrun, -⟩ := marked_leftOut_iff hmarked
  refine ⟨hmarked, hshape, (hload [] Ledger.empty).2 hshape, ?_⟩
  rw [hrun (Session.new false) [] mixStage.prims [] hshape, List.append_nil]

/-- A node with a manual name may end a run. -/
theorem not_leftOut_convert :
    isManualName (bareName (convertPrim (.number (.integer 3))).name) = true ∧
      (∃ e, load (convertPrim (.number (.integer 3))) [] Ledger.empty = (.error e, Ledger.empty) ∧
        e.message
          = "Invalid metadata on ND_convert_pick.<prim>: displayName must be a string, got 3") ∧
      ∃ e, ((Session.new false).run
        ⟨mixStage.prims ++ [convertPrim (.number (.integer 3))]⟩ []).1 = .error e := by
  have hmanual : isManualName (bareName (convertPrim (.number (.integer 3))).name) = true := by
    decide +kernel
  have hmarked : (convertPrim (.number (.integer 3))).isMarked = true := by
    rw [Schema.Prim.isMarked, hmanual, Bool.or_true]
  have hdefect : Annotations.ofMetadata? (convertPrim (.number (.integer 3))).metadata
      = .error (.notString "displayName" (.number (.integer 3))) := rfl
  have hdraft := draft?_of_defect hmarked (by decide +kernel) hdefect
  refine ⟨hmanual, ⟨_, by rw [load, hdraft], by decide +kernel⟩, ?_⟩
  refine Session.exists_error_of_refused hdraft (List.mem_filter.2 ⟨?_, by decide +kernel⟩)
  exact List.mem_append_right _ List.mem_cons_self

end ShaderBindings
