/-
# Comments of generated declarations
-/
import ShaderBindings.Proofs.Defaults
import ShaderBindings.Proofs.Prose

namespace ShaderBindings

open Fault Swift

/-! ## Taking the comments off -/

def Swift.Function.withoutDoc (f : Function) : Function := { f with doc := [] }

def Swift.Extension.withoutDocs (e : Extension) : Extension :=
  { e with members := e.members.map Function.withoutDoc }

def Swift.File.withoutDocs (f : File) : File :=
  { f with
    functions := f.functions.map Function.withoutDoc
    extensions := f.extensions.map Extension.withoutDocs }

def Swift.Units.withoutDocs (units : Units) : Units :=
  ⟨units.operations.withoutDocs, units.sources.withoutDocs⟩

/-- What is generated beside the two files. -/
def Generated.withoutFiles (g : Generated) : Generated :=
  { g with
    operations := ""
    sources := "" }

namespace Swift

variable (m : BindingModule) (b : Binding)

lemma typeOf_withoutDocs : typeOf m.withoutDocs = typeOf m := rfl

lemma parameterOf_withoutDocs : parameterOf m.withoutDocs = parameterOf m := rfl

lemma branchStmts_withoutDoc (result : TypeExpr) (branches : List Branch) :
    branchStmts b.withoutDoc result branches = branchStmts b result branches := by
  induction branches with
  | nil => rfl
  | cons branch rest ih =>
    rw [branchStmts, branchStmts, ih]
    rfl

lemma reportedSegments_withoutDoc (separator : String) (reported : List Nat) :
    reportedSegments b.withoutDoc separator reported = reportedSegments b separator reported := by
  induction reported generalizing separator with
  | nil => rfl
  | cons index rest ih =>
    rw [reportedSegments, reportedSegments, ih]
    rfl

lemma bodyOf_withoutDoc (result : TypeExpr) : bodyOf b.withoutDoc result = bodyOf b result := by
  have hfallback : fallbackStmt b.withoutDoc result = fallbackStmt b result :=
    funext fun reported => by
      rw [fallbackStmt, fallbackStmt, reportedSegments_withoutDoc]
      rfl
  rw [bodyOf, bodyOf, branchStmts_withoutDoc, hfallback]
  rfl

/-- The comment of a binding goes into its declaration and nowhere else. -/
lemma functionOf_withoutDoc :
    functionOf m.withoutDocs b.withoutDoc = (functionOf m b).map Function.withoutDoc := by
  have hbody : bodyOf b.withoutDoc = bodyOf b := funext (bodyOf_withoutDoc b)
  have hparams : b.withoutDoc.params = b.params := rfl
  have hreturnType : b.withoutDoc.returnType = b.returnType := rfl
  rw [functionOf, functionOf, parameterOf_withoutDocs, typeOf_withoutDocs, hbody, hparams,
    hreturnType]
  simp only [bind, Except.bind]
  rcases b.params.mapM (parameterOf m) with e | parameters
  · rfl
  rcases typeOf m b.returnType with e | result
  · rfl
  dsimp only
  rcases bodyOf b result with e | body
  · rfl
  · rfl

lemma operations_withoutDocs :
    m.withoutDocs.operations = m.operations.map Binding.withoutDoc := List.filter_map

lemma sources_withoutDocs : m.withoutDocs.sources = m.sources.map Binding.withoutDoc :=
  List.filter_map

/-- The files of a module without comments are its files without comments. -/
lemma Units.ofModule_withoutDocs :
    Units.ofModule m.withoutDocs = (Units.ofModule m).map Units.withoutDocs := by
  rw [ofModule, ofModule, operations_withoutDocs, sources_withoutDocs,
    mapM_map (functionOf_withoutDoc m), mapM_map (functionOf_withoutDoc m)]
  rcases m.operations.mapM (functionOf m) with e | functions
  · rfl
  rcases m.sources.mapM (functionOf m) with e | members
  · rfl
  · rfl

end Swift

/-! ## Generation -/

lemma Docs.table_withoutDocs (m : BindingModule) : Docs.table m.withoutDocs = Docs.table m := by
  rw [table, table, BindingModule.withoutDocs, List.map_map]
  rfl

lemma Generated.ofModule_withoutDocs (m : BindingModule) (ds : Diagnostics) :
    (Generated.ofModule m.withoutDocs ds).map Generated.withoutFiles
      = (Generated.ofModule m ds).map Generated.withoutFiles := by
  rw [ofModule, ofModule, Units.ofModule_withoutDocs, Docs.table_withoutDocs,
    operations_withoutDocs, sources_withoutDocs, List.length_map, List.length_map]
  rcases Units.ofModule m with e | units
  · rfl
  · rfl

section Alike

variable {a b : Schema.Stage} (h : a.Alike b) (descriptions descriptions' : Schema.Descriptions)
  (strict : Bool)

include h

/-- The runs over stages that are alike generate the same beside the files, or fail alike. -/
lemma Generated.ofStage_alike :
    (Generated.ofStage a descriptions strict).map Generated.withoutFiles
      = (Generated.ofStage b descriptions' strict).map Generated.withoutFiles := by
  obtain ⟨hmodule, hsession⟩ :=
    Prod.mk.inj ((Session.new strict).run_alike h descriptions descriptions')
  rw [ofStage, ofStage]
  rcases ha : (Session.new strict).run a descriptions with ⟨found, s⟩
  rcases hb : (Session.new strict).run b descriptions' with ⟨found', s'⟩
  rw [ha, hb] at hmodule hsession
  obtain rfl : s = s' := hsession
  rcases map_eq_map_cases hmodule with ⟨e, rfl, rfl⟩ | ⟨m, n, rfl, rfl, hsame⟩
  · rfl
  · have hfiles : (ofModule m s.ledger.diagnostics).map withoutFiles
        = (ofModule n s.ledger.diagnostics).map withoutFiles := by
      rw [← ofModule_withoutDocs, hsame, ofModule_withoutDocs]
    dsimp only
    split_ifs
    · rfl
    · rcases map_eq_map_cases hfiles with ⟨e, hm, hn⟩ | ⟨g, g', hm, hn, hsame⟩
      · rw [hm, hn]
      · rw [hm, hn]
        exact congrArg Except.ok hsame

/-- The files of schemas whose stages are alike differ in comments alone. -/
lemma filesOf?_alike {schema schema' : String} (ha : Schema.Stage.ofText? schema = some a)
    (hb : Schema.Stage.ofText? schema' = some b) :
    (filesOf? schema descriptions strict).map Units.withoutDocs
      = (filesOf? schema' descriptions' strict).map Units.withoutDocs := by
  obtain ⟨hmodule, hsession⟩ :=
    Prod.mk.inj ((Session.new strict).run_alike h descriptions descriptions')
  simp only [filesOf?, ha, hb, Option.bind_eq_bind, Option.bind_some, hsession]
  rcases map_eq_map_cases hmodule with ⟨e, ha, hb⟩ | ⟨m, n, ha, hb, hsame⟩
  · rw [ha, hb]
  · rw [ha, hb]
    simp only [Except.toOption, Option.bind_some]
    split_ifs
    · rfl
    · have hunits : (Units.ofModule m).map Units.withoutDocs
          = (Units.ofModule n).map Units.withoutDocs := by
        rw [← Units.ofModule_withoutDocs, hsame, Units.ofModule_withoutDocs]
      rcases map_eq_map_cases hunits with ⟨e, hm, hn⟩ | ⟨units, units', hm, hn, hsame⟩
      · rw [hm, hn]
      · rw [hm, hn]
        exact congrArg some hsame

end Alike

section Descriptions

variable (schema : String) (descriptions descriptions' : Schema.Descriptions) (strict : Bool)

/-- Generation gives the texts of the files, and nothing when there are no files. -/
lemma texts_generate : (generate schema descriptions strict).toOption.map
      (fun g => (g.operations, g.sources))
    = (filesOf? schema descriptions strict).map
      fun units => (units.operations.text, units.sources.text) := by
  rcases hfiles : filesOf? schema descriptions strict with _ | units
  · rcases hgenerated : generate schema descriptions strict with e | g
    · rfl
    · obtain ⟨units, hunits, -⟩ := exists_filesOf? hgenerated
      exact absurd (hfiles.symm.trans hunits) (by simp)
  · obtain ⟨g, hg⟩ := exists_generate hfiles
    obtain ⟨units', hunits, hoperations, hsources⟩ := exists_filesOf? hg
    obtain rfl := Option.some.inj (hfiles.symm.trans hunits)
    rw [hg]
    exact congrArg some (Prod.ext hoperations hsources)

/-- **Descriptions are for comments only.**  Under any two tables of descriptions, generation from a
schema fails with the same error, or it gives the same table of bindings, the same diagnostics and
the same counts.  The runs over a stage end in the same session, with modules that differ in the
comments of bindings alone.  The trees of the files, whose texts are generated, differ in the
comments of declarations alone. -/
theorem descriptions_reach_comments_only :
    (generate schema descriptions strict).map Generated.withoutFiles
        = (generate schema descriptions' strict).map Generated.withoutFiles ∧
      (∀ stage,
        (((Session.new strict).run stage descriptions).1.map BindingModule.withoutDocs,
            ((Session.new strict).run stage descriptions).2)
          = (((Session.new strict).run stage descriptions').1.map BindingModule.withoutDocs,
            ((Session.new strict).run stage descriptions').2)) ∧
      (filesOf? schema descriptions strict).map Units.withoutDocs
        = (filesOf? schema descriptions' strict).map Units.withoutDocs ∧
      ∀ table, (generate schema table strict).toOption.map (fun g => (g.operations, g.sources))
        = (filesOf? schema table strict).map
          fun units => (units.operations.text, units.sources.text) := by
  refine ⟨?_, fun stage => ?_, ?_, fun table => texts_generate schema table strict⟩
  · rw [generate, generate]
    rcases Schema.Stage.ofText? schema with _ | stage
    · rfl
    · exact Generated.ofStage_alike (Schema.Stage.Alike.refl stage) _ _ strict
  · exact (Session.new strict).run_alike (Schema.Stage.Alike.refl stage) _ _
  · rcases hstage : Schema.Stage.ofText? schema with _ | stage
    · simp [filesOf?, hstage]
    · exact filesOf?_alike (Schema.Stage.Alike.refl stage) _ _ strict hstage hstage

end Descriptions

end ShaderBindings
