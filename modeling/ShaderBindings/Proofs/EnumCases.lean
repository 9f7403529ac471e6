/-
# The cases of the enumerations

The operations file declares one enumeration for each set of tokens that a run has met.  It has one
case for each token, with the token as its raw value and the identifier of the token as its name.
The tokens differ, and so the raw values do; the names differ exactly when no two of the tokens have
the same letters (`enumerations_distinct_iff`).  Nothing keeps a schema from using two such tokens.
-/
import ShaderBindings.Proofs.CommentLines
import ShaderBindings.Proofs.Declarations
import ShaderBindings.Proofs.Defaults
import ShaderBindings.Proofs.Repetition
import ShaderBindings.Proofs.Spelling

namespace ShaderBindings

open Swift Fault

/-! ## Declared enumerations -/

namespace Swift.Enumeration

def caseNames (e : Enumeration) : List String := e.cases.map (·.name)

def rawValues (e : Enumeration) : List String := e.cases.map (·.rawValue)

/-- The enumeration stands in a text and lists the members of a declaration. -/
structure Lists (e : Enumeration) (history : List EnumDeclaration) (text : String) : Prop where
  printed : e.text.toList <:+: text.toList
  /-- The raw values are the declared members, each one once. -/
  declared : ∃ d ∈ history, e.rawValues = d.members.eraseDups
  rawValues_nodup : e.rawValues.Nodup
  /-- Every case has the identifier of its raw value as its name. -/
  named : e.caseNames = e.rawValues.map lowerCamel
  /-- The names differ exactly when no two of the members have the same letters. -/
  caseNames_nodup_iff : e.caseNames.Nodup ↔ ∀ s ∈ e.rawValues, ∀ t ∈ e.rawValues,
    Text.letters s.toList = Text.letters t.toList → s = t

end Swift.Enumeration

section Identity

variable {e : EnumIdentity}

lemma rawValues_enumerationOf (e : EnumIdentity) : (enumerationOf e).rawValues = e.members := by
  rw [Enumeration.rawValues, enumerationOf, List.map_map]
  exact List.map_id _

lemma caseNames_enumerationOf (e : EnumIdentity) :
    (enumerationOf e).caseNames = e.members.map lowerCamel := by
  rw [Enumeration.caseNames, enumerationOf, List.map_map]
  rfl

/-- The cases are those of the members. -/
lemma mem_cases_enumerationOf_iff {t : String} :
    ⟨lowerCamel t, t⟩ ∈ (enumerationOf e).cases ↔ t ∈ e.members := by
  constructor
  · intro h
    obtain ⟨member, hmember, heq⟩ := List.mem_map.1 h
    rwa [← (EnumCase.mk.inj heq).2]
  · exact fun h => List.mem_map_of_mem h

/-- Names that are made from different members differ exactly when their letters do. -/
lemma nodup_map_lowerCamel_iff {l : List String} (h : l.Nodup) :
    (l.map lowerCamel).Nodup
      ↔ ∀ s ∈ l, ∀ t ∈ l, Text.letters s.toList = Text.letters t.toList → s = t := by
  rw [List.nodup_map_iff_inj_on h]
  simp only [lowerCamel_eq_iff]

end Identity

section Generation

variable {schema : String} {descriptions : Schema.Descriptions} {strict : Bool}

/-- A run of a new session registers the enumerations of its stage. -/
lemma enums_eq_after {stage : Schema.Stage} {m : BindingModule} {session : Session}
    (hrun : (Session.new strict).run stage descriptions = (.ok m, session)) :
    m.enums
      = (EnumRegistry.after ((drafts stage.nodes).flatMap Draft.declarations)).identities := by
  obtain ⟨ps, s₁, hload, rfl, -⟩ := Session.exists_loadStage_of_run hrun
  obtain ⟨-, hgrows, -⟩ := Session.loadPrims_eq_ok (Session.loadPrims_of_loadStage hload)
  exact congrArg EnumRegistry.identities hgrows.enums

/-- **The cases of an enumeration have different names when its members have different letters.**
In every schema from which something is generated, an enumeration of the operations file lists the
members of a declaration, and the raw values differ.  The names of the cases differ exactly when no
two of the members have the same letters and digits in their words. -/
theorem enumerations_distinct_iff {g : Generated}
    (h : generate schema descriptions strict = .ok g) :
    ∃ stage units, Schema.Stage.ofText? schema = some stage ∧
      filesOf? schema descriptions strict = some units ∧ g.operations = units.operations.text ∧
      ∀ e ∈ units.operations.enums,
        e.Lists ((drafts stage.nodes).flatMap Draft.declarations) g.operations := by
  obtain ⟨units, hunits, hoperations, -⟩ := exists_filesOf? h
  obtain ⟨stage, m, session, hstage, hrun, -, hmodule⟩ := filesOf?_eq_some_iff.1 hunits
  refine ⟨stage, units, hstage, hunits, hoperations, fun e he => ?_⟩
  have hprinted : e.text.toList <:+: g.operations.toList := by
    rw [hoperations]
    exact File.infix_of_mem
      (List.mem_append_left _ (List.mem_append_left _ (List.mem_map_of_mem he)))
  rw [enums_ofModule hmodule, enums_eq_after hrun] at he
  obtain ⟨identity, hidentity, rfl⟩ := List.mem_map.1 he
  have htracks := EnumRegistry.tracks_declareAll
    ((drafts stage.nodes).flatMap Draft.declarations)
  obtain ⟨d, ⟨earlier, later, hhistory, -, -⟩, hmembers⟩ := htracks.first identity hidentity
  have hnodup := (htracks.sound identity hidentity).members_nodup
  constructor
  · exact hprinted
  · exact ⟨d, by simp [hhistory], by rw [rawValues_enumerationOf, hmembers]⟩
  · rwa [rawValues_enumerationOf]
  · rw [caseNames_enumerationOf, rawValues_enumerationOf]
  · rw [caseNames_enumerationOf, rawValues_enumerationOf]
    exact nodup_map_lowerCamel_iff hnodup

end Generation

/-! ## A schema with two tokens for one name -/

def wrapTokens : List String := ["mirrorOnce", "mirror_once"]

/-- The lines of the text of a node with an input that takes one of the tokens. -/
def wrapLines : List String :=
  ["\x7b\"prims\":[\x7b\"path\":\"/ND_wrap\",\"properties\":[",
    "\x7b\"name\":\"inputs:mode\",\"typeName\":\"string\",",
    "\"metadata\":\x7b\"allowedTokens\":[\"mirrorOnce\",\"mirror_once\"]\x7d\x7d,",
    "\x7b\"name\":\"outputs:out\",\"typeName\":\"float\"\x7d]\x7d]\x7d"]

def wrapSchema : String := String.join wrapLines

/-- The draft of the node. -/
def wrapDraft : Draft where
  id := "ND_wrap"
  inputs :=
    [{ direction := .input
       qualifiedName := "inputs:mode"
       name := "mode"
       dataType := "string"
       isArray := false
       default? := none
       annotations := ⟨some wrapTokens, .free, none, false, false, none⟩ }]
  output :=
    { direction := .output
      qualifiedName := "outputs:out"
      name := "out"
      dataType := "float"
      isArray := false
      default? := none
      annotations := ⟨none, .free, none, false, false, none⟩ }
  annotations := ⟨none, .free, none, false, false, none⟩

def wrapIdentity : EnumIdentity :=
  ⟨1, "mirrorOnce|mirror_once", wrapTokens, "Enum1_mirrorOnce_mirror_once", false⟩

/-- The node, with the enumeration of the tokens. -/
def wrapNode : Prototype where
  id := "ND_wrap"
  name := "wrap"
  inputs := wrapDraft.inputs.map (·.withCategory (.enumerated 1))
  output := wrapDraft.output.withCategory .scalar
  description? := none
  displayName? := none
  availability? := none

/-- The session that has loaded the node. -/
def wrapSession : Session :=
  ⟨false, ⟨EnumRegistry.empty.add wrapIdentity,
    [.unnamedEnum "ND_wrap" wrapTokens wrapIdentity.name]⟩⟩

lemma exists_stage_wrap : ∃ stage prim, Schema.Stage.ofText? wrapSchema = some stage ∧
    stage.nodes = [prim] ∧ draft? prim = .ok (some wrapDraft) := by
  have htext : wrapSchema.toList = wrapLines.flatMap String.toList := String.toList_join
  have hdrafts : (Schema.Stage.ofText? wrapSchema).map (fun stage =>
      stage.nodes.map fun prim => (draft? prim).toOption) = some [some (some wrapDraft)] := by
    rw [Schema.Stage.ofText?, Json.Document.ofText?, htext]
    decide +kernel
  obtain ⟨stage, hstage, hnodes⟩ := Option.map_eq_some_iff.1 hdrafts
  obtain ⟨prim, hprim, hdraft⟩ := List.map_eq_singleton_iff.1 hnodes
  exact ⟨stage, prim, hstage, hprim, toOption_eq_some_iff.1 hdraft⟩

/-- The key of the tokens is sorted, which the kernel does not evaluate. -/
lemma structuralKey_wrap : EnumRegistry.structuralKey wrapTokens = "mirrorOnce|mirror_once" := by
  have hsorted : EnumRegistry.keyMembers wrapTokens = wrapTokens :=
    List.mergeSort_of_pairwise (by decide +kernel)
  rw [EnumRegistry.structuralKey_eq, hsorted]
  decide +kernel

lemma declare_wrap : EnumRegistry.empty.declare "ND_wrap" wrapTokens
    = ⟨(.enumerated 1, EnumRegistry.empty.add wrapIdentity), wrapSession.ledger.diagnostics⟩ := by
  have hmint : EnumRegistry.empty.mint wrapTokens = wrapIdentity := by
    rw [EnumRegistry.mint, structuralKey_wrap]
    decide +kernel
  have hnone : EnumRegistry.empty.byKey.get? (EnumRegistry.structuralKey wrapTokens) = none := rfl
  rw [EnumRegistry.declare, hnone, hmint]
  rfl

lemma loadStage_wrap {stage : Schema.Stage} {prim : Schema.Prim} (hnodes : stage.nodes = [prim])
    (hdraft : draft? prim = .ok (some wrapDraft)) :
    (Session.new false).loadStage stage [] = (.ok [wrapNode], wrapSession) := by
  have hinputs : DraftSocket.resolveAll wrapDraft.id wrapDraft.inputs Ledger.empty
      = (wrapNode.inputs, wrapSession.ledger) := by
    simp only [wrapDraft, DraftSocket.resolveAll, DraftSocket.resolve, Ledger.empty, declare_wrap]
    rfl
  have hresolve : wrapDraft.resolve [] Ledger.empty = (wrapNode, wrapSession.ledger) := by
    rw [Draft.resolve, hinputs]
    decide +kernel
  have hload : load prim [] Ledger.empty = (.ok (some wrapNode), wrapSession.ledger) := by
    rw [load, hdraft]
    simp only [hresolve]
  have hledger : (Session.new false).ledger = Ledger.empty := rfl
  simp only [Session.loadStage, hnodes, Session.loadPrims, hledger, hload]
  rfl

lemma exists_filesOf?_wrap : ∃ units e, filesOf? wrapSchema [] false = some units ∧
    units.operations.enums = [e] ∧ e.rawValues = wrapTokens ∧
    e.caseNames = ["mirrorOnce", "mirrorOnce"] := by
  obtain ⟨stage, prim, hstage, hnodes, hdraft⟩ := exists_stage_wrap
  have hrun := Session.run_of_loadStage [] (loadStage_wrap hnodes hdraft)
  have hok : (Units.ofModule ⟨[wrapIdentity], (Session.addBindings false wrapSession.ledger.enums []
      (group [wrapNode]).value.values).value⟩).toBool = true := by
    decide +kernel
  rcases hunits : Units.ofModule ⟨[wrapIdentity], (Session.addBindings false
      wrapSession.ledger.enums [] (group [wrapNode]).value.values).value⟩ with fault | units
  · rw [hunits] at hok
    exact absurd hok Bool.false_ne_true
  · have hfiles : filesOf? wrapSchema [] false = some units :=
      filesOf?_eq_some_iff.2 ⟨stage, _, _, hstage, hrun, by decide +kernel, hunits⟩
    exact ⟨units, enumerationOf wrapIdentity, hfiles, enums_ofModule hunits, rfl,
      by decide +kernel⟩

theorem enumerations_distinct_iff_wrap : ∃ g units e, generate wrapSchema [] false = .ok g ∧
    filesOf? wrapSchema [] false = some units ∧ g.operations = units.operations.text ∧
    units.operations.enums = [e] ∧ e.text.toList <:+: g.operations.toList ∧
    e.rawValues = wrapTokens ∧ ¬ e.caseNames.Nodup := by
  obtain ⟨units, e, hunits, he, hraw, -⟩ := exists_filesOf?_wrap
  obtain ⟨g, hg⟩ := exists_generate hunits
  obtain ⟨stage, units', -, hunits', hoperations, hlists⟩ := enumerations_distinct_iff hg
  obtain rfl := Option.some.inj (hunits.symm.trans hunits')
  have hlisted := hlists e (by simp [he])
  refine ⟨g, units, e, hg, hunits, hoperations, he, hlisted.printed, hraw, ?_⟩
  rw [hlisted.caseNames_nodup_iff, hraw]
  decide +kernel

/-- Two cases of one enumeration have one name. -/
theorem not_nodup_caseNames_wrap :
    ¬ ∀ schema descriptions strict g, generate schema descriptions strict = .ok g →
      ∃ units, filesOf? schema descriptions strict = some units ∧
        ∀ e ∈ units.operations.enums, e.caseNames.Nodup ∧ e.rawValues.Nodup := by
  intro hall
  obtain ⟨units, e, hunits, he, -, hnames⟩ := exists_filesOf?_wrap
  obtain ⟨g, hg⟩ := exists_generate hunits
  obtain ⟨units', hunits', hdistinct⟩ := hall wrapSchema [] false g hg
  obtain rfl := Option.some.inj (hunits.symm.trans hunits')
  have hnodup := (hdistinct e (by simp [he])).1
  rw [hnames] at hnodup
  exact absurd hnodup (by decide)

end ShaderBindings
