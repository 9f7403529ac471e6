/-
# Generating again

`check` and `generate` render the same artifacts, and each has its own test for what is out of date.
The tests agree (`stale_eq_pending`), so `check` succeeds exactly when `generate` has nothing to
write.

After a writing every destination holds its artifact, and the files that were read are as before,
except for the document, which now holds the table.  Splicing the table into it again gives the
document itself.  So what is rendered afterwards is what has been written (`render_again`).
-/
import ShaderBindings.Command.Footprint
import ShaderBindings.Command.Run
import ShaderBindings.Proofs.Splice
import ShaderBindings.Proofs.Writing

namespace ShaderBindings

open FileTree

/-! ## The files that are read -/

/-- The configuration file that is read, when there is one. -/
def Options.configFile? (o : Options) (t : FileTree) : Option Path :=
  o.config?.or (if t.isFile defaultConfigFile then some defaultConfigFile else .none)

/-- What the schema and the descriptions of a configuration generate. -/
def Rendered.generated (t : FileTree) (c : Config) : Except RenderError Generated := do
  let schema ← readAs t "schema" c.schema
  let descriptions ← descriptions t c
  match generate schema descriptions c.strict with
  | .error e => .error (.generation e)
  | .ok generated => .ok generated

/-- The files that a command writes stand at different places, and none of them is a file that it
reads for another purpose. -/
structure Options.Disjoint (o : Options) (t : FileTree) (c : Config) : Prop where
  written : ((c.destinations.flatMap Path.withTemporary).map t.place).Nodup
  read : ∀ p ∈ (o.configFile? t).toList ++ c.sources,
    t.place p ∉ (c.destinations.flatMap Path.withTemporary).map t.place

section Reading

variable {t t' : FileTree} {o : Options} {c : Config}

lemma Options.fileConfig_eq (o : Options) (t : FileTree) :
    o.fileConfig t = match o.configFile? t with
      | some path => Config.load t path
      | .none => .ok Config.default := by
  rw [fileConfig, configFile?]
  rcases o.config? with _ | path
  · by_cases hfile : t.isFile defaultConfigFile = true
    · simp [hfile]
    · simp [hfile]
  · rfl

lemma Config.load_congr {path : Path} (h : Config.load t path = .ok c)
    (hread : ∀ text, t.read path = .ok text → t'.read path = .ok text) :
    Config.load t' path = .ok c := by
  rw [load] at h ⊢
  rcases htext : t.read path with e | text
  · simp [htext] at h
  · rw [hread text htext]
    rwa [htext] at h

lemma Rendered.readAs_eq_ok_iff {what text : String} {path : Path} :
    readAs t what path = .ok text ↔ t.read path = .ok text := by
  rw [readAs]
  rcases t.read path with e | found <;> simp

lemma Rendered.generated_congr {generated : Generated} (h : Rendered.generated t c = .ok generated)
    (hread : ∀ path ∈ c.sources, ∀ text, t.read path = .ok text → t'.read path = .ok text) :
    Rendered.generated t' c = .ok generated := by
  obtain ⟨schema, hschema, h⟩ := Fault.bind_eq_ok_iff.1 h
  obtain ⟨table, htable, h⟩ := Fault.bind_eq_ok_iff.1 h
  have hschema' : readAs t' "schema" c.schema = .ok schema := readAs_eq_ok_iff.2
    (hread c.schema (by simp [Config.sources]) schema (readAs_eq_ok_iff.1 hschema))
  have htable' : descriptions t' c = .ok table := by
    rw [descriptions] at htable ⊢
    rcases hpath : c.descriptions? with _ | path
    · rwa [hpath] at htable
    · simp only [hpath] at htable ⊢
      obtain ⟨text, htext, htable⟩ := Fault.bind_eq_ok_iff.1 htable
      exact Fault.bind_eq_ok_iff.2 ⟨text, readAs_eq_ok_iff.2 (hread path
        (by simp [Config.sources, hpath]) text (readAs_eq_ok_iff.1 htext)), htable⟩
  exact Fault.bind_eq_ok_iff.2 ⟨schema, hschema', Fault.bind_eq_ok_iff.2 ⟨table, htable', h⟩⟩

lemma Rendered.document_eq_ok_iff {table : String} {artifacts : List Artifact} :
    document t c table = .ok artifacts ↔ (c.docs? = none ∧ artifacts = []) ∨
      ∃ path text spliced, c.docs? = some path ∧ t.read path = .ok text ∧
        Docs.splice text table = .ok spliced ∧ artifacts = [⟨path, spliced⟩] := by
  rw [document]
  rcases c.docs? with _ | path
  · simp [eq_comm]
  · simp only [Fault.bind_eq_ok_iff, readAs_eq_ok_iff]
    constructor
    · rintro ⟨text, htext, h⟩
      rcases hsplice : Docs.splice text table with defect | spliced
      · simp [hsplice] at h
      · simp only [hsplice] at h
        exact Or.inr ⟨path, text, spliced, rfl, htext, hsplice, (Except.ok.inj h).symm⟩
    · rintro (⟨hnone, -⟩ | ⟨_, text, spliced, hpath, htext, hsplice, rfl⟩)
      · exact absurd hnone (by simp)
      · obtain rfl := Option.some.inj hpath
        exact ⟨text, htext, by simp [hsplice]⟩

/-- The artifacts are those of the two source files and that of the document. -/
lemma Rendered.ofConfig_eq_ok_iff {rendered : Rendered} :
    ofConfig t c = .ok rendered ↔ ∃ generated documents, Rendered.generated t c = .ok generated ∧
      document t c generated.docsTable = .ok documents ∧
      rendered = ⟨[⟨c.operationsPath, generated.operations⟩, ⟨c.sourcesPath, generated.sources⟩]
        ++ documents, generated.summary⟩ := by
  rw [ofConfig, Rendered.generated]
  simp only [Fault.bind_eq_ok_iff]
  constructor
  · rintro ⟨schema, hschema, table, htable, h⟩
    rcases hgenerate : generate schema table c.strict with e | generated
    · simp [hgenerate] at h
    · simp only [hgenerate, Fault.bind_eq_ok_iff] at h
      obtain ⟨documents, hdocuments, h⟩ := h
      exact ⟨generated, documents, ⟨schema, hschema, table, htable, by simp [hgenerate]⟩,
        hdocuments, (Except.ok.inj h).symm⟩
  · rintro ⟨generated, documents, ⟨schema, hschema, table, htable, h⟩, hdocuments, rfl⟩
    refine ⟨schema, hschema, table, htable, ?_⟩
    rcases hgenerate : generate schema table c.strict with e | found
    · simp [hgenerate] at h
    · simp only [hgenerate] at h
      obtain rfl := Except.ok.inj h
      exact Fault.bind_eq_ok_iff.2 ⟨documents, hdocuments, rfl⟩

/-- The artifacts belong at the destinations of the configuration. -/
lemma Rendered.map_path_artifacts {rendered : Rendered} (h : ofConfig t c = .ok rendered) :
    rendered.artifacts.map (·.path) = c.destinations := by
  obtain ⟨generated, documents, -, hdocument, rfl⟩ := ofConfig_eq_ok_iff.1 h
  rcases document_eq_ok_iff.1 hdocument with ⟨hdocs, rfl⟩ | ⟨path, text, spliced, hdocs, -, -, rfl⟩
  · simp [Config.destinations, hdocs]
  · simp [Config.destinations, hdocs]

/-! The default configuration file is found or not found in the working directory. -/

lemma reaches_defaultConfigFile (t : FileTree) : t.Reaches defaultConfigFile ∧
    t.place defaultConfigFile = t.base ++ ["opgen.toml"] := by
  have hnames : names defaultConfigFile = ["opgen.toml"] := names_of_no_slash (by decide)
  have hstart : t.start defaultConfigFile = t.base := by
    rw [start, if_neg (by decide)]
  have hplace : t.place defaultConfigFile = t.base ++ ["opgen.toml"] := by
    rw [place, hnames, hstart]
    rfl
  refine ⟨?_, hplace⟩
  have hbase : t.enter t.base = .ok () := by
    rw [enter_eq_ok_iff, entry?_eq]
    simp
  have hstep : t.step t.base "opgen.toml" = .ok (t.base ++ ["opgen.toml"]) := by
    rw [step, hbase]
    rfl
  have hdefect : defaultConfigFile.defect? = none := by decide
  rw [Reaches, hplace, locate, hnames, hstart, hdefect]
  simp only [walk, hstep]

lemma isFile_defaultConfigFile_iff :
    t.isFile defaultConfigFile = true ↔ (t.file? (t.base ++ ["opgen.toml"])).isSome = true := by
  obtain ⟨hreaches, hplace⟩ := reaches_defaultConfigFile t
  rw [isFile_iff, Option.isSome_iff_exists]
  simp only [Holds, hreaches, hplace, true_and]

/-- Under the default configuration no source file is written in the place of its file. -/
lemma sources_ne_defaultConfigFile (t : FileTree) (o : Options) :
    t.place (o.override Config.default).operationsPath ≠ t.base ++ ["opgen.toml"] ∧
      t.place (o.override Config.default).sourcesPath ≠ t.base ++ ["opgen.toml"] := by
  have hother : ∀ (dir : Path) (name : String), '/' ∉ name.toList → isStay name = false →
      name ≠ ".." → name ≠ "opgen.toml" → t.place (dir.join ⟨name⟩) ≠ t.base ++ ["opgen.toml"] := by
    intro dir name hslash hstay hup hne heq
    obtain ⟨p, hp⟩ := exists_place_join t dir hslash hstay hup
    rw [hp] at heq
    exact hne (by simpa using (List.append_inj' heq rfl).2)
  exact ⟨hother _ "Operations.g.swift" (by decide) (by decide) (by decide) (by decide),
    hother _ "Sources.g.swift" (by decide) (by decide) (by decide) (by decide)⟩

end Reading

/-! ## Rendering again -/

section Rendering

variable {t t' : FileTree} {o : Options} {c : Config} {rendered : Rendered} {written : List Path}

/-- The artifacts of a disjoint configuration have places of their own. -/
lemma Options.Disjoint.separate (h : o.Disjoint t c)
    (hrendered : Rendered.ofConfig t c = .ok rendered) :
    Artifact.Separate t rendered.artifacts := by
  have hwritten := h.written
  rw [← Rendered.map_path_artifacts hrendered, List.flatMap_map, List.map_flatMap] at hwritten
  exact hwritten

/-- A file that is read for another purpose stays when the artifacts are written. -/
lemma holds_of_disjoint (h : o.Disjoint t c) (hrendered : Rendered.ofConfig t c = .ok rendered)
    (hwrite : Artifact.writeAll rendered.artifacts t = (.ok written, t')) {path : Path}
    (hpath : path ∈ (o.configFile? t).toList ++ c.sources) {bytes : ByteArray}
    (hholds : t.Holds path bytes) : t'.Holds path bytes := by
  obtain ⟨hchanges, -⟩ := Artifact.holds_of_writeAll (h.separate hrendered) hwrite
  have hother := h.read path hpath
  rw [← Rendered.map_path_artifacts hrendered, List.flatMap_map, List.map_flatMap] at hother
  refine hchanges.holds ?_ ?_ hholds
  · intro hlost
    obtain ⟨a, ha, heq⟩ := List.mem_map.1 hlost
    refine hother (List.mem_flatMap.2 ⟨a, ha, ?_⟩)
    rw [← heq]
    exact List.mem_cons_of_mem _ List.mem_cons_self
  · intro hgained
    obtain ⟨a, ha, heq⟩ := List.mem_map.1 hgained
    refine hother (List.mem_flatMap.2 ⟨a, ha, ?_⟩)
    rw [← heq]
    exact List.mem_cons_self

lemma read_of_disjoint (h : o.Disjoint t c) (hrendered : Rendered.ofConfig t c = .ok rendered)
    (hwrite : Artifact.writeAll rendered.artifacts t = (.ok written, t')) {path : Path}
    (hpath : path ∈ (o.configFile? t).toList ++ c.sources) {text : String}
    (hread : t.read path = .ok text) : t'.read path = .ok text :=
  read_eq_ok_iff.2 (holds_of_disjoint h hrendered hwrite hpath (read_eq_ok_iff.1 hread))

/-- When no configuration file is read, none is written in the place of the default one. -/
lemma defaultConfigFile_not_mem (hnone : o.configFile? t = none) (hresolve : o.resolve t = .ok c)
    (hrendered : Rendered.ofConfig t c = .ok rendered) :
    t.base ++ ["opgen.toml"] ∉ rendered.artifacts.map (Artifact.destination t) := by
  have hconfig : o.fileConfig t = .ok Config.default := by rw [Options.fileConfig_eq, hnone]
  obtain rfl : o.override Config.default = c := by
    rw [Options.resolve, hconfig] at hresolve
    exact Except.ok.inj hresolve
  intro hmem
  obtain ⟨a, ha, heq⟩ := List.mem_map.1 hmem
  obtain ⟨generated, documents, -, hdocument, rfl⟩ := Rendered.ofConfig_eq_ok_iff.1 hrendered
  rcases List.mem_append.1 ha with ha | ha
  · obtain ⟨hoperations, hsources⟩ := sources_ne_defaultConfigFile t o
    rcases List.mem_pair.1 ha with rfl | rfl
    · exact hoperations heq
    · exact hsources heq
  -- the document has been read, so that it would be the configuration file
  · rcases Rendered.document_eq_ok_iff.1 hdocument with ⟨-, rfl⟩ | ⟨path, text, _, -, htext, -, rfl⟩
    · exact absurd ha List.not_mem_nil
    · obtain rfl := List.mem_singleton.1 ha
      have hfile := (read_eq_ok_iff.1 htext).2
      have hdefault : t.isFile defaultConfigFile = true := by
        rw [isFile_defaultConfigFile_iff, ← heq]
        exact Option.isSome_iff_exists.2 ⟨_, hfile⟩
      rw [Options.configFile?, if_pos hdefault] at hnone
      simp at hnone

/-- The same configuration file is read after a writing, or again none. -/
lemma configFile?_of_writeAll (h : o.Disjoint t c) (hresolve : o.resolve t = .ok c)
    (hrendered : Rendered.ofConfig t c = .ok rendered)
    (hwrite : Artifact.writeAll rendered.artifacts t = (.ok written, t')) :
    o.configFile? t' = o.configFile? t := by
  rcases hconfig : o.config? with _ | path
  swap
  · rw [Options.configFile?, Options.configFile?, hconfig]
    rfl
  have hdefault : ∀ u : FileTree, o.configFile? u
      = if u.isFile defaultConfigFile then some defaultConfigFile else none := by
    intro u
    rw [Options.configFile?, hconfig]
    rfl
  by_cases hfile : t.isFile defaultConfigFile = true
  -- the file stays
  · have hmem : defaultConfigFile ∈ (o.configFile? t).toList ++ c.sources := by
      rw [hdefault, if_pos hfile]
      simp
    obtain ⟨bytes, hholds⟩ := isFile_iff.1 hfile
    have hfile' : t'.isFile defaultConfigFile = true :=
      isFile_iff.2 ⟨bytes, holds_of_disjoint h hrendered hwrite hmem hholds⟩
    rw [hdefault, hdefault, if_pos hfile, if_pos hfile']
  -- no artifact is written in its place
  · have hnone : t.file? (t.base ++ ["opgen.toml"]) = none := by
      rw [isFile_defaultConfigFile_iff] at hfile
      simpa using hfile
    obtain ⟨hchanges, -⟩ := Artifact.holds_of_writeAll (h.separate hrendered) hwrite
    have hfree := defaultConfigFile_not_mem (by rw [hdefault, if_neg hfile]) hresolve hrendered
    have hfile' : ¬ t'.isFile defaultConfigFile = true := by
      rw [isFile_defaultConfigFile_iff, hchanges.base_eq, hchanges.file?_eq_none hfree hnone]
      simp
    rw [hdefault, hdefault, if_neg hfile, if_neg hfile']

/-- The configuration stays the same. -/
lemma resolve_of_writeAll (h : o.Disjoint t c) (hresolve : o.resolve t = .ok c)
    (hrendered : Rendered.ofConfig t c = .ok rendered)
    (hwrite : Artifact.writeAll rendered.artifacts t = (.ok written, t')) :
    o.resolve t' = .ok c := by
  have hfile := configFile?_of_writeAll h hresolve hrendered hwrite
  obtain ⟨found, hfound, rfl⟩ := Fault.map_eq_ok_iff.1 hresolve
  refine Fault.map_eq_ok_iff.2 ⟨found, ?_, rfl⟩
  rw [Options.fileConfig_eq] at hfound ⊢
  rw [hfile]
  rcases hpath : o.configFile? t with _ | path
  · rwa [hpath] at hfound
  · simp only [hpath] at hfound ⊢
    exact Config.load_congr hfound fun text htext =>
      read_of_disjoint h hrendered hwrite (by simp [hpath]) htext

/-- What is rendered after a writing is what has been written. -/
lemma ofConfig_of_writeAll (h : o.Disjoint t c) (hrendered : Rendered.ofConfig t c = .ok rendered)
    (htable : ∀ generated, Rendered.generated t c = .ok generated →
      Text.contains Docs.endAnchor generated.docsTable.toList = false)
    (hwrite : Artifact.writeAll rendered.artifacts t = (.ok written, t')) :
    Rendered.ofConfig t' c = .ok rendered := by
  obtain ⟨-, hholds⟩ := Artifact.holds_of_writeAll (h.separate hrendered) hwrite
  obtain ⟨generated, documents, hgenerated, hdocument, heq⟩ :=
    Rendered.ofConfig_eq_ok_iff.1 hrendered
  have hgenerated' := Rendered.generated_congr hgenerated fun path hpath text htext =>
    read_of_disjoint h hrendered hwrite (List.mem_append_right _ hpath) htext
  refine Rendered.ofConfig_eq_ok_iff.2 ⟨generated, documents, hgenerated', ?_, heq⟩
  rcases Rendered.document_eq_ok_iff.1 hdocument with
    ⟨hdocs, rfl⟩ | ⟨path, text, spliced, hdocs, -, hsplice, rfl⟩
  · exact Rendered.document_eq_ok_iff.2 (Or.inl ⟨hdocs, rfl⟩)
  -- the document holds the table now, and splicing it in again gives the same document
  · have hread := hholds ⟨path, spliced⟩ (by simp [heq])
    have hagain := Docs.splice_splice hsplice (htable generated hgenerated)
    exact Rendered.document_eq_ok_iff.2 (Or.inr ⟨path, spliced, spliced, hdocs, hread, hagain, rfl⟩)

end Rendering

/-! ## Commands -/

namespace Command

variable {t : FileTree} {o : Options} {c : Config} {rendered : Rendered}

/-- The paths of the files that `generate` writes. -/
def rewritten (o : Options) (t : FileTree) : List Path :=
  match render o t with
  | .error _ => []
  | .ok rendered => (Artifact.writeAll rendered.artifacts t).1.toOption.getD []

lemma render_eq_ok_iff : render o t = .ok rendered ↔
    ∃ c, o.resolve t = .ok c ∧ Rendered.ofConfig t c = .ok rendered := by
  rw [render]
  rcases o.resolve t with defect | c
  · simp
  · rcases hrendered : Rendered.ofConfig t c with e | found
    · simp [hrendered]
    · simp [hrendered]

/-- `generate` succeeds when rendering and writing do. -/
lemma generate_code_eq_zero_iff : (generate o t).1.code = 0 ↔ ∃ rendered written,
    render o t = .ok rendered ∧
      Artifact.writeAll rendered.artifacts t = (.ok written, (generate o t).2) ∧
      rewritten o t = written := by
  rw [generate, rewritten]
  rcases render o t with message | rendered
  · simp [Outcome.failure]
  · rcases hwrite : Artifact.writeAll rendered.artifacts t with ⟨f | written, t'⟩
    · simp [hwrite, Outcome.failure]
    · simp [hwrite, Outcome.success, Except.toOption]

/-- `check` finds those artifacts stale that `generate` writes. -/
lemma stale_eq_pending (t : FileTree) (artifacts : List Artifact) :
    stale t artifacts = Artifact.pending t artifacts := by
  refine List.filter_congr fun a _ => ?_
  rw [existing?, Artifact.isCurrent]
  rcases t.read a.path with e | text
  · rfl
  · simp [Except.toOption, bne, beq_eq_decide]

/-- `check` succeeds when nothing that is rendered has to be written. -/
lemma check_code_eq_zero_iff : (check o t).code = 0 ↔ ∃ rendered,
    render o t = .ok rendered ∧ Artifact.pending t rendered.artifacts = [] := by
  simp only [check, stale_eq_pending]
  rcases render o t with message | rendered
  · simp [Outcome.failure]
  · by_cases hpending : Artifact.pending t rendered.artifacts = []
    · simp [hpending, Outcome.success]
    · simp [hpending, Outcome.failure]

/-- What `check` finds in order, `generate` leaves as it is. -/
lemma generate_of_check (h : (check o t).code = 0) :
    (generate o t).1.code = 0 ∧ rewritten o t = [] ∧ (generate o t).2 = t := by
  obtain ⟨rendered, hrender, hpending⟩ := check_code_eq_zero_iff.1 h
  have hwrite := Artifact.writeAll_of_pending_eq_nil hpending
  simp [generate, rewritten, hrender, hwrite, Outcome.success, Except.toOption]

lemma check_of_generate (h : (generate o t).1.code = 0) (hrewritten : rewritten o t = []) :
    (check o t).code = 0 := by
  obtain ⟨rendered, written, hrender, hwrite, rfl⟩ := generate_code_eq_zero_iff.1 h
  refine check_code_eq_zero_iff.2 ⟨rendered, hrender, ?_⟩
  have hpaths := (Artifact.writeAll_eq_ok hwrite).1
  rw [hrewritten] at hpaths
  exact List.map_eq_nil_iff.1 hpaths.symm

/-- **Generating settles.**  `check` succeeds exactly when `generate` succeeds and writes nothing.
After `generate` succeeds, `check` does, and `generate` succeeds again and changes nothing. -/
theorem generate_settles (hresolve : o.resolve t = .ok c) (hdisjoint : o.Disjoint t c)
    (htable : ∀ generated, Rendered.generated t c = .ok generated →
      Text.contains Docs.endAnchor generated.docsTable.toList = false) :
    ((check o t).code = 0 ↔ (generate o t).1.code = 0 ∧ rewritten o t = []) ∧
      ∀ t', (generate o t).1.code = 0 → (generate o t).2 = t' →
        (check o t').code = 0 ∧ (generate o t').1.code = 0 ∧ rewritten o t' = [] ∧
          (generate o t').2 = t' := by
  refine ⟨⟨fun h => ?_, fun h => check_of_generate h.1 h.2⟩, ?_⟩
  · obtain ⟨hcode, hrewritten, -⟩ := generate_of_check h
    exact ⟨hcode, hrewritten⟩
  rintro t' hcode rfl
  obtain ⟨rendered, written, hrender, hwrite, -⟩ := generate_code_eq_zero_iff.1 hcode
  obtain ⟨c', hresolve', hrendered⟩ := render_eq_ok_iff.1 hrender
  obtain rfl : c' = c := Except.ok.inj (hresolve'.symm.trans hresolve)
  have hrender' := render_eq_ok_iff.2 ⟨c', resolve_of_writeAll hdisjoint hresolve hrendered hwrite,
    ofConfig_of_writeAll hdisjoint hrendered htable hwrite⟩
  have hholds := (Artifact.holds_of_writeAll (hdisjoint.separate hrendered) hwrite).2
  have hcheck : (check o (generate o t).2).code = 0 :=
    check_code_eq_zero_iff.2 ⟨rendered, hrender', Artifact.pending_eq_nil_iff.2 hholds⟩
  exact ⟨hcheck, generate_of_check hcheck⟩

/-- A working directory with a schema of one source and a document without its table. -/
def readmeTree : FileTree :=
  ((FileTree.empty ["work"]).put ["work", "schemas.json"]
    (.file ("\x7b\"prims\":[\x7b\"path\":\"/ND_time_float\",\"properties\":["
      ++ "\x7b\"name\":\"outputs:out\",\"typeName\":\"float\"\x7d]\x7d]\x7d").toUTF8)).put
    ["work", "README.md"]
    (.file "# Nodes\n<!-- BEGIN OPGEN TABLE -->\n<!-- END OPGEN TABLE -->\n".toUTF8)

def readmeOptions : Options := { Options.none with docs? := some ⟨"README.md"⟩ }

def readmeConfig : Config := { Config.default with docs? := some ⟨"README.md"⟩ }

theorem generate_settles_readme :
    ∃ t', (generate readmeOptions readmeTree).2 = t' ∧
      (generate readmeOptions readmeTree).1.code = 0 ∧
      rewritten readmeOptions readmeTree
        = [⟨"./Operations.g.swift"⟩, ⟨"./Sources.g.swift"⟩, ⟨"README.md"⟩] ∧
      (check readmeOptions t').code = 0 ∧ (generate readmeOptions t').1.code = 0 ∧
      rewritten readmeOptions t' = [] ∧ (generate readmeOptions t').2 = t' := by
  have hresolve : readmeOptions.resolve readmeTree = .ok readmeConfig := by decide +kernel
  have hdisjoint : readmeOptions.Disjoint readmeTree readmeConfig :=
    ⟨by decide +kernel, by decide +kernel⟩
  have hrun : (Rendered.generated readmeTree readmeConfig).toOption.map
        (fun generated => Text.contains Docs.endAnchor generated.docsTable.toList) = some false ∧
      (generate readmeOptions readmeTree).1.code = 0 ∧
      rewritten readmeOptions readmeTree
        = [⟨"./Operations.g.swift"⟩, ⟨"./Sources.g.swift"⟩, ⟨"README.md"⟩] := by
    decide +kernel
  obtain ⟨htable, hcode, hrewritten⟩ := hrun
  have hsettles := generate_settles hresolve hdisjoint fun generated hgenerated => by
    simpa [hgenerated, Except.toOption] using htable
  exact ⟨_, rfl, hcode, hrewritten, hsettles.2 _ hcode rfl⟩

end Command

end ShaderBindings
