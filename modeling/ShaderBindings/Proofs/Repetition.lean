/-
# A second run over a stage

The ledger carries the registry and the reports of one run into the next one.  A step of loading
*repeats* when it can be taken again on any later registry, whatever has been reported meanwhile:
it gives the same result, leaves the registry as it is, and reports again what it reported, but for
the enumerations that it has registered.  Resolving a socket repeats, because the key of its
enumeration is found the second time; and a step repeats that consists of two that do
(`Ledger.Repeats.bind`).  So loading a stage repeats.

What comes after the loading depends on the loaded prototypes and on the registry, and both are the
same in the second run.
-/
import ShaderBindings.Proofs.Declarations
import ShaderBindings.Proofs.Strictness

namespace ShaderBindings

/-- The report comes again when a step is repeated.  That on a new enumeration does not. -/
def Diagnostic.recurs : Diagnostic → Bool
  | unnamedEnum .. => false
  | _ => true

namespace Ledger

variable {α β : Type}

/-- The step can be taken again on every registry that has grown out of the one behind it. -/
def Repeats (step : Ledger → α × Ledger) : Prop :=
  ∀ l, ∃ new, (step l).2.diagnostics = l.diagnostics ++ new ∧
    (step l).2.enums.Extends l.enums ∧
      ∀ later : Ledger, later.enums.Extends (step l).2.enums →
        step later = ((step l).1, later.report (new.filter Diagnostic.recurs))

lemma report_report (l : Ledger) (ds es : Diagnostics) :
    (l.report ds).report es = l.report (ds ++ es) := by
  simp only [report, List.append_assoc]

lemma report_nil (l : Ledger) : l.report [] = l := by
  simp only [report, List.append_nil]

lemma Repeats.pure (a : α) : Repeats fun l => (a, l) := by
  intro l
  exact ⟨[], (List.append_nil _).symm, .refl _, fun later _ => by
    rw [List.filter_nil, report_nil]⟩

/-- One step after another repeats when both do. -/
lemma Repeats.bind {first : Ledger → α × Ledger} {next : α → Ledger → β × Ledger}
    (hfirst : Repeats first) (hnext : ∀ a, Repeats (next a)) :
    Repeats fun l => next (first l).1 (first l).2 := by
  intro l
  obtain ⟨new, hnew, hgrown, hagain⟩ := hfirst l
  obtain ⟨new', hnew', hgrown', hagain'⟩ := hnext (first l).1 (first l).2
  refine ⟨new ++ new', ?_, hgrown'.trans hgrown, fun later hlater => ?_⟩
  · rw [hnew', hnew, List.append_assoc]
  · have hreported : later.enums = (later.report (new.filter Diagnostic.recurs)).enums := rfl
    simp only [hagain later (hlater.trans hgrown')]
    rw [hagain' _ (hreported ▸ hlater), report_report, List.filter_append]

end Ledger

/-! ## Loading -/

open Ledger

lemma EnumRegistry.recurs_of_mem_declare {r : EnumRegistry} {node : String}
    {members : List String} {d : Diagnostic} (hd : d ∈ (r.declare node members).diagnostics) :
    d.recurs = false := by
  rcases declare_cases r node members with ⟨id, -, heq⟩ | ⟨-, heq⟩
  · rw [heq] at hd
    exact absurd hd List.not_mem_nil
  · rw [heq] at hd
    dsimp only at hd
    split_ifs at hd
    · exact absurd hd List.not_mem_nil
    · rw [List.mem_singleton.1 hd]
      rfl

lemma recurs_of_mem_categoryAt {node socket typeName : String} {d : Diagnostic}
    (hd : d ∈ (categoryAt node socket typeName).diagnostics) : d.recurs = true := by
  rw [categoryAt] at hd
  dsimp only at hd
  split_ifs at hd
  · exact absurd hd List.not_mem_nil
  · rw [List.mem_singleton.1 hd]
    rfl

namespace DraftSocket

lemma repeats_resolve (node : String) (p : DraftSocket) : Repeats (p.resolve node) := by
  intro l
  simp only [resolve]
  rcases p.annotations.members? with _ | members
  -- the type decides the category
  · refine ⟨_, rfl, .refl _, fun later _ => ?_⟩
    rw [List.filter_eq_self.2 fun d hd => recurs_of_mem_categoryAt hd]
  -- the key leads to the same number in the later registry
  · obtain ⟨id, hcategory, hid⟩ := l.enums.exists_get?_byKey_declare node members
    refine ⟨_, rfl, EnumRegistry.extends_declare _ _ _, fun later hlater => ?_⟩
    have hsilent : (l.enums.declare node members).diagnostics.filter Diagnostic.recurs = [] :=
      List.filter_eq_nil_iff.2 fun d hd => by simp [EnumRegistry.recurs_of_mem_declare hd]
    have hfound : later.enums.declare node members = ⟨(.enumerated id, later.enums), []⟩ :=
      EnumRegistry.declare_of_get?_byKey (hlater.byKey _ _ hid)
    simp only [hfound, hcategory, hsilent, List.append_nil, report_nil]

lemma repeats_resolveAll (node : String) (sockets : List DraftSocket) :
    Repeats (resolveAll node sockets) := by
  induction sockets with
  | nil => exact Repeats.pure []
  | cons p rest ih =>
    exact (repeats_resolve node p).bind fun socket =>
      ih.bind fun sockets => Repeats.pure (socket :: sockets)

end DraftSocket

variable (descriptions : Schema.Descriptions)

lemma Draft.repeats_resolve (d : Draft) : Repeats (d.resolve descriptions) :=
  (DraftSocket.repeats_resolveAll d.id d.inputs).bind fun inputs =>
    (d.output.repeats_resolve d.id).bind fun output =>
      Repeats.pure (⟨d.id, bareName d.id, inputs, output,
        (descriptions.get? d.id).bind cleanDescription?, d.annotations.displayName?,
        d.annotations.availability?⟩ : Prototype)

lemma repeats_load (prim : Schema.Prim) : Repeats (load prim descriptions) := by
  rcases hdraft : draft? prim with e | _ | draft
  · have hload : load prim descriptions = fun l => (.error e, l) := by
      funext l
      rw [load, hdraft]
    rw [hload]
    exact Repeats.pure _
  · have hload : load prim descriptions = fun l => (.ok none, l) := by
      funext l
      rw [load, hdraft]
    rw [hload]
    exact Repeats.pure _
  · have hload : load prim descriptions = fun l => (.ok (some (draft.resolve descriptions l).1),
        (draft.resolve descriptions l).2) := by
      funext l
      rw [load, hdraft]
    rw [hload]
    exact (draft.repeats_resolve descriptions).bind fun prototype =>
      Repeats.pure (Except.ok (some prototype))

namespace Session

/-- What is loaded behind a prim of which `found` is known. -/
def loadBehind (rest : Ledger → Except InvalidMetadata (List Prototype) × Ledger) :
    Except InvalidMetadata (Option Prototype) → Ledger →
      Except InvalidMetadata (List Prototype) × Ledger
  | .error e, l => (.error e, l)
  | .ok none, l => rest l
  | .ok (some p), l => ((rest l).1.map (p :: ·), (rest l).2)

lemma loadPrims_cons (prim : Schema.Prim) (rest : List Schema.Prim) (l : Ledger) :
    loadPrims descriptions (prim :: rest) l = loadBehind (loadPrims descriptions rest)
      (load prim descriptions l).1 (load prim descriptions l).2 := by
  rw [loadPrims]
  rcases load prim descriptions l with ⟨e | _ | p, l₁⟩
  · rfl
  · rfl
  · dsimp only [loadBehind]
    rcases loadPrims descriptions rest l₁ with ⟨e | ps, l₂⟩ <;> rfl

lemma repeats_loadPrims (prims : List Schema.Prim) : Repeats (loadPrims descriptions prims) := by
  induction prims with
  | nil => exact Repeats.pure _
  | cons prim rest ih =>
    rw [funext (loadPrims_cons descriptions prim rest)]
    refine (repeats_load descriptions prim).bind fun found => ?_
    rcases found with e | _ | p
    -- the prim is refused
    · exact Repeats.pure _
    -- the prim is left out
    · exact ih
    -- the prim gives a prototype
    · exact ih.bind fun others => Repeats.pure (others.map (p :: ·))

end Session

/-! ## Runs -/

/-- Grouping and synthesis report nothing on new enumerations. -/
lemma recurs_of_mem_group {ps : List Prototype} {d : Diagnostic}
    (hd : d ∈ (group ps).diagnostics) : d.recurs = true := by
  rcases mem_diagnostics_group hd with ⟨_, _, _, _, rfl⟩ | ⟨_, _, _, rfl⟩ <;> rfl

lemma recurs_of_isSynthesis {d : Diagnostic} (h : d.IsSynthesis) : d.recurs = true := by
  cases h <;> rfl

namespace Session

variable {s s₀ : Session} {stage : Schema.Stage} {ps : List Prototype}

/-- Loading a stage again gives the same prototypes, whatever has been reported meanwhile. -/
lemma loadStage_again (hload : s.loadStage stage descriptions = (.ok ps, s₀)) :
    ∃ new, s₀.ledger.diagnostics = s.ledger.diagnostics ++ new ∧
      ∀ reports, (s₀.report reports).loadStage stage descriptions
        = (.ok ps, (s₀.report reports).report (new.filter Diagnostic.recurs)) := by
  obtain ⟨new, hnew, -, hagain⟩ := repeats_loadPrims descriptions stage.nodes s.ledger
  rw [loadPrims_of_loadStage hload] at hnew hagain
  refine ⟨new, hnew, fun reports => ?_⟩
  rw [loadStage, hagain (s₀.report reports).ledger (.refl _)]
  rfl

/-- The reports on the groups of some prototypes and on their bindings. -/
def groupReports (strict : Bool) (enums : EnumRegistry) (ps : List Prototype) : Diagnostics :=
  (group ps).diagnostics ++ (addBindings strict enums [] (group ps).value.values).diagnostics

/-- All reports behind the loading recur. -/
lemma filter_recurs_groupReports (strict : Bool) (enums : EnumRegistry) (ps : List Prototype) :
    (groupReports strict enums ps).filter Diagnostic.recurs = groupReports strict enums ps := by
  refine List.filter_eq_self.2 fun d hd => ?_
  rcases List.mem_append.1 hd with hd | hd
  · exact recurs_of_mem_group hd
  · exact recurs_of_isSynthesis
      (isSynthesis_of_mem_addBindings (fun set hset => (uniform_of_mem_values hset).1) hd)

lemma run_of_loadStage (hload : s.loadStage stage descriptions = (.ok ps, s₀)) :
    s.run stage descriptions
      = (.ok ⟨s₀.ledger.enums.identities,
          (addBindings s₀.strict s₀.ledger.enums [] (group ps).value.values).value⟩,
        s₀.report (groupReports s₀.strict s₀.ledger.enums ps)) := by
  rw [run, hload]
  simp only [buildOverloads, synthesizeAll, report, Ledger.report, groupReports, List.append_assoc]

end Session

/-- **A second run over a stage changes nothing.**  In the session behind a run the same run makes
the same module again.  It leaves the registry as it is, and it makes the same reports in the same
order, without those on new enumerations. -/
theorem run_again {s s₁ : Session} {stage : Schema.Stage} {descriptions : Schema.Descriptions}
    {m : BindingModule} (hrun : s.run stage descriptions = (.ok m, s₁)) :
    ∃ new s₂, s₁.ledger.diagnostics = s.ledger.diagnostics ++ new ∧
      s₁.run stage descriptions = (.ok m, s₂) ∧ s₂.ledger.enums = s₁.ledger.enums ∧
      s₂.ledger.diagnostics = s₁.ledger.diagnostics ++ new.filter Diagnostic.recurs := by
  obtain ⟨ps, s₀, hload, -, -⟩ := Session.exists_loadStage_of_run hrun
  rw [Session.run_of_loadStage descriptions hload] at hrun
  obtain ⟨hm, rfl⟩ := Prod.mk.inj hrun
  obtain rfl := Except.ok.inj hm
  obtain ⟨loaded, hloaded, hagain⟩ := Session.loadStage_again descriptions hload
  -- the second run goes on behind the reports of the first one
  have hrun' := Session.run_of_loadStage descriptions
    (hagain (Session.groupReports s₀.strict s₀.ledger.enums ps))
  refine ⟨loaded ++ Session.groupReports s₀.strict s₀.ledger.enums ps, _, ?_, hrun', rfl, ?_⟩
  · rw [Session.report, Ledger.report, hloaded, List.append_assoc]
  · rw [List.filter_append, Session.filter_recurs_groupReports, ← List.append_assoc]
    rfl

/-- A session with reports of its own. -/
def mixedSession : Session := ((Session.new false).run mixStage []).2

theorem run_again_pick :
    ∃ m s₁ s₂, mixedSession.run pickStage [] = (.ok m, s₁) ∧
      m.enums.map (·.name) = ["Enum1_fast"] ∧
      s₁.ledger.diagnostics = mixedSession.ledger.diagnostics ++
        [.unnamedEnum "ND_pick_float" ["fast"] "Enum1_fast",
          .unknownSchemaType "ND_pick_float" "out" "quatf",
          .unknownSchemaType "ND_pick_color3" "out" "quatf", .noDiscriminator "pick" 2 false] ∧
      s₁.run pickStage [] = (.ok m, s₂) ∧ s₂.ledger.enums = s₁.ledger.enums ∧
      s₂.ledger.diagnostics = s₁.ledger.diagnostics ++
        [.unknownSchemaType "ND_pick_float" "out" "quatf",
          .unknownSchemaType "ND_pick_color3" "out" "quatf", .noDiscriminator "pick" 2 false] := by
  have hnames : (mixedSession.run pickStage []).1.toOption.map (fun m => m.enums.map (·.name))
      = some ["Enum1_fast"] := by
    decide +kernel
  have hreports : (mixedSession.run pickStage []).2.ledger.diagnostics
      = mixedSession.ledger.diagnostics ++
        [.unnamedEnum "ND_pick_float" ["fast"] "Enum1_fast",
          .unknownSchemaType "ND_pick_float" "out" "quatf",
          .unknownSchemaType "ND_pick_color3" "out" "quatf", .noDiscriminator "pick" 2 false] := by
    decide +kernel
  rcases hrun : mixedSession.run pickStage [] with ⟨e | m, s₁⟩
  · simp [hrun, Except.toOption] at hnames
  simp only [hrun, Except.toOption, Option.map_some, Option.some.injEq] at hnames hreports
  obtain ⟨new, s₂, hnew, hrun', henums, hagain⟩ := run_again hrun
  rw [List.append_cancel_left (hnew.symm.trans hreports)] at hagain
  exact ⟨m, s₁, s₂, rfl, hnames, hreports, hrun', henums, hagain⟩

end ShaderBindings
