/-
# Every session stays sound

A session is used through three operations: loading a stage, grouping loaded prototypes, and
synthesizing the bindings of groups.  They may come in any order and number.  What one operation
relies on is established by others: the groups have members with one number of inputs, and the
enumerations of the members have been registered on loading.  The invariant `Sound` carries these
facts along, together with the absence of reports on broken invariants.

It follows that the bindings of a sound session are well formed, that their files exist, and that
generation never ends in a fault.
-/
import ShaderBindings.Generation
import ShaderBindings.Proofs.Accounting
import ShaderBindings.Proofs.WellFormed

namespace ShaderBindings

/-- The diagnostic is about a broken invariant. -/
def Diagnostic.isInternal : Diagnostic → Bool
  | internal .. => true
  | _ => false

namespace Session

/-- What a loading returns. -/
def loaded : Except InvalidMetadata (List Prototype) → List Prototype
  | .ok ps => ps
  | .error _ => []

/-- The states of a session after any operations, with the prototypes that it has loaded and the
sets that it has grouped. -/
inductive Reachable : Session → List Prototype → List OverloadSet → Prop where
  /-- A new session. -/
  | new (strict : Bool) : Reachable (Session.new strict) [] []
  /-- A stage is loaded. -/
  | load {s : Session} {ps : List Prototype} {sets : List OverloadSet} (stage : Schema.Stage)
      (descriptions : Schema.Descriptions) : Reachable s ps sets →
      Reachable (s.loadStage stage descriptions).2 (ps ++ loaded (s.loadStage stage descriptions).1)
        sets
  /-- Some loaded prototypes are grouped. -/
  | group {s : Session} {ps chosen : List Prototype} {sets : List OverloadSet} :
      Reachable s ps sets → chosen ⊆ ps →
      Reachable (s.buildOverloads chosen).2 ps (sets ++ (s.buildOverloads chosen).1.values)
  /-- The bindings of some groups are synthesized. -/
  | synthesize {s : Session} {ps : List Prototype} {sets : List OverloadSet}
      {chosen : OverloadSets} : Reachable s ps sets → chosen.values ⊆ sets →
      Reachable (s.synthesizeAll chosen).2 ps sets

/-- What every operation relies on. -/
structure Sound (s : Session) (ps : List Prototype) (sets : List OverloadSet) : Prop where
  enums : s.ledger.enums.WellFormed
  /-- The enumerations of the loaded prototypes are registered. -/
  registered : ∀ p ∈ ps, p.Registered s.ledger.enums
  /-- The grouped sets have members, with one number of inputs. -/
  uniform : ∀ set ∈ sets, set.Uniform
  /-- The members of the grouped sets have been loaded. -/
  grouped : ∀ set ∈ sets, ∀ p ∈ set.prototypes, p ∈ ps
  /-- No report is about a broken invariant. -/
  quiet : ∀ d ∈ s.ledger.diagnostics, d.isInternal = false

variable {s : Session} {ps : List Prototype} {sets : List OverloadSet}

/-! ## Operations -/

lemma isInternal_of_isAdmission {d : Diagnostic} (h : d.IsAdmission) : d.isInternal = false := by
  cases h <;> rfl

lemma isInternal_of_mem_group {qs : List Prototype} {d : Diagnostic}
    (hd : d ∈ (ShaderBindings.group qs).diagnostics) : d.isInternal = false := by
  rcases mem_diagnostics_group hd with ⟨_, _, _, _, rfl⟩ | ⟨_, _, _, rfl⟩ <;> rfl

lemma isInternal_of_isSynthesis {d : Diagnostic} (h : d.IsSynthesis) : d.isInternal = false := by
  cases h <;> rfl

lemma Sound.new (strict : Bool) : Sound (Session.new strict) [] [] where
  enums := EnumRegistry.WellFormed.empty
  registered := fun _ hp => absurd hp List.not_mem_nil
  uniform := fun _ hset => absurd hset List.not_mem_nil
  grouped := fun _ hset => absurd hset List.not_mem_nil
  quiet := fun _ hd => absurd hd List.not_mem_nil

lemma Sound.load (h : s.Sound ps sets) (stage : Schema.Stage)
    (descriptions : Schema.Descriptions) :
    (s.loadStage stage descriptions).2.Sound
      (ps ++ loaded (s.loadStage stage descriptions).1) sets := by
  rcases hload : s.loadStage stage descriptions with ⟨found, s'⟩
  obtain ⟨-, hextends, hspec⟩ := loadStage_spec hload
  obtain ⟨hwellFormed, hregistered⟩ := hspec h.enums
  refine ⟨hwellFormed, fun p hp => ?_, h.uniform, fun set hset p hp => ?_, fun d hd => ?_⟩
  · rcases List.mem_append.1 hp with hp | hp
    -- what is registered stays so
    · exact (h.registered p hp).mono hextends.enums
    · rcases found with e | qs
      · exact absurd hp List.not_mem_nil
      · exact hregistered qs rfl p hp
  · exact List.mem_append_left _ (h.grouped set hset p hp)
  · obtain ⟨new, hnew, hadmission⟩ := hextends.diagnostics
    rw [hnew] at hd
    rcases List.mem_append.1 hd with hd | hd
    · exact h.quiet d hd
    · exact isInternal_of_isAdmission (hadmission d hd)

lemma Sound.group (h : s.Sound ps sets) {chosen : List Prototype} (hchosen : chosen ⊆ ps) :
    (s.buildOverloads chosen).2.Sound ps (sets ++ (s.buildOverloads chosen).1.values) := by
  refine ⟨h.enums, h.registered, fun set hset => ?_, fun set hset p hp => ?_, fun d hd => ?_⟩
  · rcases List.mem_append.1 hset with hset | hset
    · exact h.uniform set hset
    · exact (uniform_of_mem_values hset).1
  · rcases List.mem_append.1 hset with hset | hset
    · exact h.grouped set hset p hp
    · exact hchosen ((uniform_of_mem_values hset).2 p hp)
  · rcases List.mem_append.1 hd with hd | hd
    · exact h.quiet d hd
    · exact isInternal_of_mem_group hd

lemma Sound.synthesize (h : s.Sound ps sets) {chosen : OverloadSets}
    (hchosen : chosen.values ⊆ sets) : (s.synthesizeAll chosen).2.Sound ps sets := by
  refine ⟨h.enums, h.registered, h.uniform, h.grouped, fun d hd => ?_⟩
  rcases List.mem_append.1 hd with hd | hd
  · exact h.quiet d hd
  · exact isInternal_of_isSynthesis
      (isSynthesis_of_mem_addBindings (fun set hset => h.uniform set (hchosen hset)) hd)

/-- Every reachable session is sound. -/
lemma Reachable.sound (h : Reachable s ps sets) : s.Sound ps sets := by
  induction h with
  | new strict => exact Sound.new strict
  | load stage descriptions _ ih => exact ih.load stage descriptions
  | group _ hchosen ih => exact ih.group hchosen
  | synthesize _ hchosen ih => exact ih.synthesize hchosen

/-- A run is a loading, a grouping and a synthesis, or a loading that fails. -/
lemma Reachable.run (h : Reachable s ps sets) (stage : Schema.Stage)
    (descriptions : Schema.Descriptions) :
    ∃ ps' sets', Reachable (s.run stage descriptions).2 ps' sets' := by
  have hload := h.load stage descriptions
  rcases run_cases s stage descriptions with ⟨e, s₁, heq, hrun⟩ | ⟨qs, s₁, heq, hrun⟩
  · rw [heq] at hload
    rw [hrun]
    exact ⟨_, _, hload⟩
  · rw [heq] at hload
    rw [hrun]
    exact ⟨_, _, (hload.group (List.subset_append_right ps qs)).synthesize
      (List.subset_append_right sets _)⟩

/-! ## Bindings -/

/-- The bindings of uniform sets are well formed when the enumerations of the members are
registered. -/
lemma exists_wellFormed {chosen : OverloadSets} (huniform : ∀ set ∈ chosen.values, set.Uniform)
    (hregistered : ∀ set ∈ chosen.values, ∀ p ∈ set.prototypes, p.Registered s.ledger.enums)
    {b : Binding} (hb : b ∈ (s.synthesizeAll chosen).1.bindings) :
    ∃ set ∈ chosen.values, b.baseName = set.baseName ∧
      b.WellFormed set (s.synthesizeAll chosen).1 := by
  obtain ⟨set, hset, rfl⟩ := exists_made_of_mem (fun set hset => (huniform set hset).nonempty) hb
  exact ⟨set, hset, rfl, OverloadSet.wellFormed_binding (huniform set hset)
    (OverloadSet.join?_eq_returned (huniform set hset).nonempty) rfl (hregistered set hset)⟩

/-- The bindings of groups in a sound session are well formed. -/
lemma Sound.wellFormed (h : s.Sound ps sets) {chosen : OverloadSets}
    (hchosen : chosen.values ⊆ sets) {b : Binding}
    (hb : b ∈ (s.synthesizeAll chosen).1.bindings) :
    ∃ set ∈ chosen.values, b.baseName = set.baseName ∧
      b.WellFormed set (s.synthesizeAll chosen).1 :=
  exists_wellFormed (fun set hset => h.uniform set (hchosen hset))
    (fun set hset p hp => h.registered p (h.grouped set (hchosen hset) p hp)) hb

lemma Sound.exists_units (h : s.Sound ps sets) {chosen : OverloadSets}
    (hchosen : chosen.values ⊆ sets) :
    ∃ units, Swift.Units.ofModule (s.synthesizeAll chosen).1 = .ok units := by
  refine ShaderBindings.exists_units fun b hb => ?_
  obtain ⟨set, -, -, hwellFormed⟩ := h.wellFormed hchosen hb
  exact ⟨set, hwellFormed⟩

end Session

/-! ## Generation -/

/-- Generation from a stage succeeds when its run reports nothing fatal and the texts of its module
exist. -/
lemma Generated.ofStage_eq_ok_iff {stage : Schema.Stage} {descriptions : Schema.Descriptions}
    {strict : Bool} {g : Generated} : Generated.ofStage stage descriptions strict = .ok g ↔
      ∃ m s, (Session.new strict).run stage descriptions = (.ok m, s) ∧
        s.ledger.diagnostics.hasFatal = false ∧
          Generated.ofModule m s.ledger.diagnostics = .ok g := by
  rw [ofStage]
  rcases (Session.new strict).run stage descriptions with ⟨e | m, s⟩
  · simp
  · rcases hfatal : s.ledger.diagnostics.hasFatal with _ | _
    · rcases hmodule : Generated.ofModule m s.ledger.diagnostics with f | generated
      · simp [hfatal, hmodule]
      · simp [hfatal, hmodule]
    · simp [hfatal]

/-- What is generated carries the diagnostics of the run. -/
lemma Generated.diagnostics_ofModule {m : BindingModule} {ds : Diagnostics} {g : Generated}
    (h : Generated.ofModule m ds = .ok g) : g.diagnostics = ds := by
  obtain ⟨units, -, heq⟩ := Fault.bind_eq_ok_iff.1 h
  exact congrArg Generated.diagnostics (Except.ok.inj heq).symm

/-- Generation from a text succeeds when the text is a stage from which it succeeds. -/
lemma generate_eq_ok_iff {schema : String} {descriptions : Schema.Descriptions} {strict : Bool}
    {g : Generated} : generate schema descriptions strict = .ok g ↔
      ∃ stage, Schema.Stage.ofText? schema = some stage ∧
        Generated.ofStage stage descriptions strict = .ok g := by
  rw [generate]
  rcases Schema.Stage.ofText? schema with _ | stage
  · simp
  · simp

/-- Generation ends in a fault for no stage. -/
lemma ofStage_ne_fault (stage : Schema.Stage) (descriptions : Schema.Descriptions)
    (strict : Bool) (f : Fault) :
    Generated.ofStage stage descriptions strict ≠ .error (.fault f) := by
  intro h
  rw [Generated.ofStage] at h
  rcases Session.run_cases (Session.new strict) stage descriptions with
    ⟨e, s₁, hload, hrun⟩ | ⟨qs, s₁, hload, hrun⟩
  · simp [hrun] at h
  · have hsound := (Session.Sound.new strict).load stage descriptions
    rw [hload] at hsound
    obtain ⟨units, hunits⟩ := (hsound.group (List.subset_append_right [] qs)).exists_units
      (List.subset_append_right [] _)
    have hgenerated : ∀ ds, ∃ g, Generated.ofModule
        ((s₁.buildOverloads qs).2.synthesizeAll (s₁.buildOverloads qs).1).1 ds = .ok g :=
      fun ds => ⟨_, Fault.bind_eq_ok_iff.2 ⟨units, hunits, rfl⟩⟩
    simp only [hrun] at h
    split_ifs at h
    · exact absurd (Except.error.inj h) (by simp)
    · obtain ⟨g, hg⟩ := hgenerated
        ((s₁.buildOverloads qs).2.synthesizeAll (s₁.buildOverloads qs).1).2.ledger.diagnostics
      simp [hg] at h

/-- Generation fails for a text that is no schema, for refused metadata and for fatal reports
only. -/
lemma generate_error_cases {schema : String} {descriptions : Schema.Descriptions} {strict : Bool}
    {e : GenerationError} (h : generate schema descriptions strict = .error e) :
    e = .schemaSyntax ∨ (∃ defect, e = .invalidMetadata defect) ∨ ∃ ds, e = .fatal ds := by
  rw [generate] at h
  split at h
  · exact Or.inl (Except.error.inj h).symm
  · rename_i stage _
    rcases e with _ | defect | ds | f
    · exact Or.inl rfl
    · exact Or.inr (Or.inl ⟨defect, rfl⟩)
    · exact Or.inr (Or.inr ⟨ds, rfl⟩)
    · exact absurd h (ofStage_ne_fault stage descriptions strict f)

/-- **Every reachable session is safe.**  No report in it is about a broken invariant.  The
bindings that it makes of its groups are well formed, and their files exist.  Runs lead to reachable
sessions again.  So generation fails for a text that is no schema, for refused metadata and for
fatal reports only. -/
theorem reachable_session_safe {s : Session} {ps : List Prototype} {sets : List OverloadSet}
    (h : Session.Reachable s ps sets) :
    (∀ d ∈ s.ledger.diagnostics, d.isInternal = false) ∧
      (∀ chosen : OverloadSets, chosen.values ⊆ sets →
        (∀ b ∈ (s.synthesizeAll chosen).1.bindings, ∃ set ∈ chosen.values,
            b.baseName = set.baseName ∧ b.WellFormed set (s.synthesizeAll chosen).1) ∧
          ∃ units, Swift.Units.ofModule (s.synthesizeAll chosen).1 = .ok units) ∧
      (∀ stage descriptions, ∃ ps' sets',
        Session.Reachable (s.run stage descriptions).2 ps' sets') ∧
      ∀ schema descriptions strict e, generate schema descriptions strict = .error e →
        e = .schemaSyntax ∨ (∃ defect, e = .invalidMetadata defect) ∨ ∃ ds, e = .fatal ds := by
  refine ⟨h.sound.quiet, fun chosen hchosen => ⟨fun b hb => ?_, ?_⟩, h.run, ?_⟩
  · exact h.sound.wellFormed hchosen hb
  · exact h.sound.exists_units hchosen
  · exact fun schema descriptions strict e he => generate_error_cases he

/-- The session that has loaded three nodes. -/
def mixSession : Session := ((Session.new false).loadStage mixStage []).2

/-- The nodes that it has loaded. -/
def mixNodes : List Prototype := Session.loaded ((Session.new false).loadStage mixStage []).1

theorem reachable_session_safe_mix :
    Session.Reachable (mixSession.buildOverloads mixNodes).2 mixNodes
        (mixSession.buildOverloads mixNodes).1.values ∧
      ∃ m, ((mixSession.buildOverloads mixNodes).2.synthesizeAll
          (mixSession.buildOverloads mixNodes).1).1 = m ∧
        m.bindings.map (·.name) = ["mix"] ∧
        (∀ b ∈ m.bindings, ∃ set ∈ (mixSession.buildOverloads mixNodes).1.values,
          b.baseName = set.baseName ∧ b.WellFormed set m) ∧
        ∃ units, Swift.Units.ofModule m = .ok units := by
  have h : Session.Reachable (mixSession.buildOverloads mixNodes).2 mixNodes
      (mixSession.buildOverloads mixNodes).1.values :=
    ((Session.Reachable.new false).load mixStage []).group (List.Subset.refl _)
  have hnames : ((mixSession.buildOverloads mixNodes).2.synthesizeAll
      (mixSession.buildOverloads mixNodes).1).1.bindings.map (·.name) = ["mix"] := by
    decide +kernel
  obtain ⟨-, hsafe, -⟩ := reachable_session_safe h
  obtain ⟨hwellFormed, hunits⟩ := hsafe (mixSession.buildOverloads mixNodes).1
    (List.Subset.refl _)
  exact ⟨h, _, rfl, hnames, hwellFormed, hunits⟩

end ShaderBindings
