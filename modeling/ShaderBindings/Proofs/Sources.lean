/-
# Operations and sources

A module is split into two files by the kinds of its bindings.  The kind is decided by the numbers
of inputs and of members, and the parameters by the number of inputs alone.  The two agree because
of a decision that is made elsewhere: several members without inputs are told apart by no input, so
grouping dissolves them (`IsGroup.isSingle`).  A binding without parameters is then a source, and
one with parameters is not.

The text of a computed property has no place for parameters, and the parentheses of a function are
printed even when nothing stands between them.  So the split is also what keeps the text of the
files complete (`Swift.Units.Renders`).  The text of each file is given as a whole: the texts of
its declarations stand behind its front, each of them once.
-/
import ShaderBindings.Proofs.Codegen
import ShaderBindings.Proofs.Infixes
import ShaderBindings.Proofs.Locality
import ShaderBindings.Proofs.Partition
import ShaderBindings.Proofs.Reachability
import ShaderBindings.Swift.Printer

namespace ShaderBindings

open Swift Fault

/-! ## What is to hold -/

/-- The binding is a plain value: it has one branch, which is always taken, and nothing around
it. -/
structure Binding.IsValue (b : Binding) : Prop where
  branch : ∃ branch, b.branches = [branch] ∧ branch.conditions = []
  guards : b.guards = []
  fallback : b.fallback? = none
  generic : b.generic? = none

/-- The functions and computed properties that a file declares. -/
def Swift.File.declared (f : File) : List Function :=
  f.functions ++ f.extensions.flatMap (·.members)

/-- The text of a file in front of its functions and extensions. -/
def Swift.File.front (f : File) : String :=
  markedLines 0 "// " f.header ++ markedLines 0 "import " f.imports
    ++ String.join (f.enums.map fun e => "\n" ++ e.text)

/-- The line that declares a function shows all its parameters, and it has no empty parentheses. -/
structure Swift.Function.ShowsParameters (f : Function) : Prop where
  shown : ∀ p ∈ f.parameters, p.text.toList <:+: f.signature.toList
  filled : f.kind = .free → commaList (f.parameters.map Parameter.text) ≠ ""

/-- The two files declare the bindings of a module without loss. -/
structure Swift.Units.Renders (units : Units) (m : BindingModule) : Prop where
  /-- The operations file declares the operations, in their order. -/
  operations : List.Forall₂ (fun b f => functionOf m b = .ok f) m.operations
    units.operations.declared
  /-- The sources file declares the sources, in their order. -/
  sources : List.Forall₂ (fun b f => functionOf m b = .ok f) m.sources units.sources.declared
  /-- The files together declare every binding under its name, and no name twice. -/
  perm : ((units.operations.declared ++ units.sources.declared).map (·.name)).Perm
    (m.bindings.map (·.name))
  nodup : ((units.operations.declared ++ units.sources.declared).map (·.name)).Nodup
  functions : ∀ f ∈ units.operations.declared, f.kind = .free ∧ f.parameters ≠ []
  properties : ∀ f ∈ units.sources.declared,
    f.kind = .staticVar ∧ f.parameters = [] ∧ f.typeParameters = []
  complete : ∀ f ∈ units.operations.declared ++ units.sources.declared, f.ShowsParameters
  /-- The text of the operations file has a block for each function, and no other block behind its
  front. -/
  operationsText : units.operations.text = units.operations.front
    ++ String.join (units.operations.declared.map fun f => "\n" ++ f.text 0)
  /-- The text of the sources file has a block for each computed property in its one extension, and
  the extension is all that stands behind its front. -/
  sourcesText : units.sources.text = units.sources.front
    ++ ("\n" ++ ("public extension " ++ sourceHost ++ " \x7b\n"
      ++ "\n".intercalate (units.sources.declared.map (Function.text 1)) ++ "\x7d\n"))

/-! ## The binding of a group -/

section Groups

variable {ps : List Prototype} {key : String} {s : OverloadSet} {enums : EnumRegistry}

/-- A group without inputs has one member, because no input tells several members apart. -/
lemma IsGroup.isSingle (h : IsGroup ps key s) (harity : s.arity = 0) : s.isSingle = true := by
  have hlength : 0 < s.members.length := List.length_pos_iff.2 h.nonempty
  have hone : ¬ 1 < s.members.length := by
    intro hseveral
    obtain ⟨index, hindex, -⟩ := h.distinguished hseveral
    omega
  rw [OverloadSet.isSingle, decide_eq_true_eq]
  omega

lemma OverloadSet.params_made_eq_nil_iff : (s.made enums).params = [] ↔ s.arity = 0 := by
  rw [← List.length_eq_zero_iff, made, length_params_binding]

lemma IsGroup.kind_eq_source_iff (h : IsGroup ps key s) :
    (s.made enums).kind = .source ↔ (s.made enums).params = [] := by
  rw [OverloadSet.params_made_eq_nil_iff]
  have hkind : (s.made enums).kind
      = if s.arity = 0 && s.isSingle then .source else .operation := rfl
  rw [hkind]
  by_cases harity : s.arity = 0
  · simp [harity, h.isSingle harity]
  · simp [harity]

/-- The binding of a single member without inputs is a plain value. -/
lemma OverloadSet.isValue_made (hsingle : s.isSingle = true) (harity : s.arity = 0) :
    (s.made enums).IsValue := by
  obtain ⟨m, hmembers⟩ := List.length_eq_one_iff.1 (of_decide_eq_true hsingle)
  have hpositions : (s.analysis s.returned).positions = [] := by
    rw [analysis, harity]
    rfl
  have hdiscriminating : (s.analysis s.returned).discriminating = [] := by
    rw [Analysis.discriminating, hpositions]
    rfl
  have hgeneric : s.genericPositions = [] := by
    rw [genericPositions, harity]
    split_ifs <;> rfl
  refine ⟨⟨OverloadSet.branch [] m.prototype, ?_, rfl⟩, ?_, ?_, ?_⟩
  · simp [made, branches_binding, hdiscriminating, prototypes, hmembers, leaders_nil]
  · simp [made, OverloadSet.guards, hpositions]
  · simp [made, hdiscriminating]
  · simp [made, analysis, hgeneric]

end Groups

/-! ## The modules of a session -/

section Modules

variable {s : Session} {sets : OverloadSets} {b : Binding}

lemma uniform_of_groups (hsets : ∀ set ∈ sets.values, ∃ ps, set ∈ (group ps).value.values) :
    ∀ set ∈ sets.values, set.Uniform := by
  intro set hset
  obtain ⟨ps, hmem⟩ := hsets set hset
  exact (uniform_of_mem_values hmem).1

/-- Every binding of a module is that of a group. -/
lemma Session.exists_isGroup (hsets : ∀ set ∈ sets.values, ∃ ps, set ∈ (group ps).value.values)
    (hb : b ∈ (s.synthesizeAll sets).1.bindings) :
    ∃ ps key set, IsGroup ps key set ∧ b = set.made s.ledger.enums := by
  obtain ⟨set, hset, rfl⟩ := exists_made_of_mem
    (fun set hset => (uniform_of_groups hsets set hset).nonempty) hb
  obtain ⟨ps, hmem⟩ := hsets set hset
  obtain ⟨⟨key, set⟩, hentry, rfl⟩ := List.mem_map.1 hmem
  exact ⟨ps, key, set, isGroup_of_mem_group hentry, rfl⟩

lemma BindingModule.operations_append_sources_perm (m : BindingModule) :
    (m.operations ++ m.sources).Perm m.bindings := by
  have hsources : m.sources = m.bindings.filter fun b => !decide (b.kind = .operation) := by
    refine List.filter_congr fun b _ => ?_
    rcases b.kind with _ | _ <;> rfl
  rw [hsources]
  exact List.filter_append_perm _ m.bindings

end Modules

/-! ## The printed parameters -/

namespace Swift

variable {f : Function}

lemma infix_commaList {items : List String} {item : String} (h : item ∈ items) :
    item.toList <:+: (commaList items).toList := infix_intercalate h

lemma Parameter.text_ne_empty (p : Parameter) : p.text ≠ "" := by
  rw [Parameter.text]
  split <;> simp

lemma Function.infix_signature (hkind : f.kind = .free) {p : Parameter} (hp : p ∈ f.parameters) :
    p.text.toList <:+: f.signature.toList := by
  have hlist : (commaList (f.parameters.map Parameter.text)).toList <:+: f.signature.toList := by
    rw [Function.signature, hkind]
    simp only [String.toList_append]
    -- the opening parenthesis ends what stands before the list, and three pieces stand behind it
    exact ⟨_, _, (List.append_assoc _ _ _).symm.trans (List.append_assoc _ _ _).symm⟩
  exact (infix_commaList (List.mem_map_of_mem hp)).trans hlist

/-- A function with parameters shows them. -/
lemma Function.showsParameters_of_free (hkind : f.kind = .free) (hne : f.parameters ≠ []) :
    f.ShowsParameters where
  shown := fun _ hp => infix_signature hkind hp
  filled := by
    intro _ hempty
    obtain ⟨p, hp⟩ := List.exists_mem_of_ne_nil _ hne
    have hinfix := infix_commaList (List.mem_map_of_mem (f := Parameter.text) hp)
    rw [hempty] at hinfix
    exact p.text_ne_empty (String.toList_eq_nil_iff.1 (List.infix_nil.1 hinfix))

/-- A computed property without parameters leaves none out. -/
lemma Function.showsParameters_of_staticVar (hkind : f.kind = .staticVar)
    (hnil : f.parameters = []) : f.ShowsParameters where
  shown := by
    intro p hp
    rw [hnil] at hp
    exact absurd hp List.not_mem_nil
  filled := fun hfree => absurd (hkind.symm.trans hfree) (by simp)

end Swift

/-! ## The files of a module -/

section Files

variable {m : BindingModule} {b : Binding} {f : Function} {units : Units}

/-- What a declaration takes over from its binding. -/
lemma functionOf_spec (h : functionOf m b = .ok f) :
    f.name = b.name ∧ f.kind = (if b.kind = .source then .staticVar else .free) ∧
      (f.parameters = [] ↔ b.params = []) ∧ (b.generic? = none → f.typeParameters = []) := by
  obtain ⟨hnames, -⟩ := Binding.functionOf_eq_ok h
  obtain ⟨parameters, -, h⟩ := bind_eq_ok_iff.1 h
  obtain ⟨result, -, h⟩ := bind_eq_ok_iff.1 h
  obtain ⟨body, -, h⟩ := bind_eq_ok_iff.1 h
  obtain rfl := Except.ok.inj h
  refine ⟨rfl, rfl, ?_, fun hgeneric => by rw [hgeneric]; rfl⟩
  have hlength := congrArg List.length hnames
  rw [List.length_map, Binding.names, List.length_map] at hlength
  rw [← List.length_eq_zero_iff, hlength, List.length_eq_zero_iff]

lemma map_name_declared {bindings : List Binding} {functions : List Function}
    (h : List.Forall₂ (fun b f => functionOf m b = .ok f) bindings functions) :
    functions.map (·.name) = bindings.map (·.name) := by
  induction h with
  | nil => rfl
  | cons hf _ ih => rw [List.map_cons, List.map_cons, ih, (functionOf_spec hf).1]

/-- The files declare the operations and the sources, each in their order. -/
lemma Swift.Units.forall₂_declared (h : Units.ofModule m = .ok units) :
    List.Forall₂ (fun b f => functionOf m b = .ok f) m.operations units.operations.declared ∧
      List.Forall₂ (fun b f => functionOf m b = .ok f) m.sources units.sources.declared := by
  obtain ⟨functions, hfunctions, h⟩ := bind_eq_ok_iff.1 h
  obtain ⟨members, hmembers, h⟩ := bind_eq_ok_iff.1 h
  obtain rfl := Except.ok.inj h
  simp only [File.declared, List.flatMap_nil, List.append_nil, List.flatMap_cons, List.nil_append]
  exact ⟨mapM_eq_ok_iff.1 hfunctions, mapM_eq_ok_iff.1 hmembers⟩

/-- Functions of a file without extensions stand behind its front. -/
lemma Swift.File.text_of_functions {file : File} (hextensions : file.extensions = []) :
    file.text = file.front ++ String.join (file.declared.map fun f => "\n" ++ f.text 0) := by
  rw [File.text, front, declared, hextensions]
  simp only [List.map_nil, List.flatMap_nil, List.append_nil, List.map_append, List.map_map,
    Function.comp_def, String.join_append]
  rw [← String.append_assoc]

-- The equation of `Extension.text` is stated here because deriving it takes long.
lemma Swift.Extension.text_mk (extended : String) (members : List Function) :
    Extension.text ⟨extended, members⟩ = "public extension " ++ extended ++ " \x7b\n"
      ++ "\n".intercalate (members.map (Function.text 1)) ++ "\x7d\n" := rfl

/-- The one extension of a file without functions stands behind its front. -/
lemma Swift.File.text_of_extension {file : File} {extended : String} {members : List Function}
    (hfunctions : file.functions = []) (hextensions : file.extensions = [⟨extended, members⟩]) :
    file.text = file.front ++ ("\n" ++ ("public extension " ++ extended ++ " \x7b\n"
      ++ "\n".intercalate (file.declared.map (Function.text 1)) ++ "\x7d\n")) := by
  rw [File.text, front, declared, hfunctions, hextensions]
  simp only [List.map_nil, List.map_cons, List.flatMap_cons, List.flatMap_nil, List.nil_append,
    List.append_nil, List.map_append, List.map_map, Function.comp_def, String.join_append,
    String.join_cons, String.join_nil, String.append_empty, Extension.text_mk]
  rw [← String.append_assoc]

lemma Swift.Units.extensions_eq (h : Units.ofModule m = .ok units) :
    units.operations.extensions = [] ∧ units.sources.functions = [] ∧
      ∃ members, units.sources.extensions = [⟨sourceHost, members⟩] := by
  obtain ⟨functions, -, h⟩ := bind_eq_ok_iff.1 h
  obtain ⟨members, -, h⟩ := bind_eq_ok_iff.1 h
  obtain rfl := Except.ok.inj h
  exact ⟨rfl, rfl, members, rfl⟩

/-- The functions of the bindings have parameters, and the computed properties have none, when the
bindings without parameters are the sources. -/
lemma Swift.Units.renders (h : Units.ofModule m = .ok units)
    (hkind : ∀ b ∈ m.bindings, b.kind = .source ↔ b.params = [])
    (hvalue : ∀ b ∈ m.bindings, b.kind = .source → b.IsValue)
    (hnodup : (m.bindings.map (·.name)).Nodup) : units.Renders m := by
  obtain ⟨hoperations, hsources⟩ := forall₂_declared h
  have hperm : ((units.operations.declared ++ units.sources.declared).map (·.name)).Perm
      (m.bindings.map (·.name)) := by
    rw [map_name_declared (List.rel_append hoperations hsources)]
    exact m.operations_append_sources_perm.map _
  have hfunctions : ∀ f ∈ units.operations.declared, f.kind = .free ∧ f.parameters ≠ [] := by
    intro f hf
    obtain ⟨b, hb, heq⟩ := exists_of_mem_mapM (mapM_eq_ok_iff.2 hoperations) hf
    obtain ⟨hmem, hoperation⟩ := List.mem_filter.1 hb
    obtain ⟨-, hfkind, hparameters, -⟩ := functionOf_spec heq
    have hne : b.kind ≠ .source := by simp [of_decide_eq_true hoperation]
    rw [if_neg hne] at hfkind
    exact ⟨hfkind, fun hnil => hne ((hkind b hmem).2 (hparameters.1 hnil))⟩
  have hproperties : ∀ f ∈ units.sources.declared,
      f.kind = .staticVar ∧ f.parameters = [] ∧ f.typeParameters = [] := by
    intro f hf
    obtain ⟨b, hb, heq⟩ := exists_of_mem_mapM (mapM_eq_ok_iff.2 hsources) hf
    obtain ⟨hmem, hsource⟩ := List.mem_filter.1 hb
    obtain ⟨-, hfkind, hparameters, hgeneric⟩ := functionOf_spec heq
    have hsource : b.kind = .source := of_decide_eq_true hsource
    rw [if_pos hsource] at hfkind
    exact ⟨hfkind, hparameters.2 ((hkind b hmem).1 hsource),
      hgeneric (hvalue b hmem hsource).generic⟩
  obtain ⟨hoperationsNone, hsourcesNone, members, hsourcesOne⟩ := extensions_eq h
  refine ⟨hoperations, hsources, hperm, hperm.nodup_iff.2 hnodup, hfunctions, hproperties, ?_,
    File.text_of_functions hoperationsNone, File.text_of_extension hsourcesNone hsourcesOne⟩
  intro f hf
  rcases List.mem_append.1 hf with hf | hf
  · exact Function.showsParameters_of_free (hfunctions f hf).1 (hfunctions f hf).2
  · exact Function.showsParameters_of_staticVar (hproperties f hf).1 (hproperties f hf).2.1

end Files

/-! ## The split -/

/-- **Operations and sources are split without loss.**  In a module that a session makes of groups,
the sources are the bindings without parameters, and they are plain values.  Every binding is an
operation or a source, and the files declare each of them once: an operation as a function with
parameters, and a source as a computed property without.  The files exist when the members of the
groups have been loaded in the session. -/
theorem synthesizeAll_splits {s : Session} {sets : OverloadSets}
    (hsets : ∀ set ∈ sets.values, ∃ ps, set ∈ (group ps).value.values) :
    (∀ b ∈ (s.synthesizeAll sets).1.bindings,
        (b.kind = .source ↔ b.params = []) ∧ (b.kind = .source → b.IsValue)) ∧
      ((s.synthesizeAll sets).1.operations ++ (s.synthesizeAll sets).1.sources).Perm
        (s.synthesizeAll sets).1.bindings ∧
      (∀ units, Units.ofModule (s.synthesizeAll sets).1 = .ok units →
        units.Renders (s.synthesizeAll sets).1) ∧
      ((∀ set ∈ sets.values, ∀ p ∈ set.prototypes, p.Registered s.ledger.enums) →
        ∃ units, Units.ofModule (s.synthesizeAll sets).1 = .ok units) := by
  have huniform := uniform_of_groups hsets
  have hkind : ∀ b ∈ (s.synthesizeAll sets).1.bindings, b.kind = .source ↔ b.params = [] := by
    intro b hb
    obtain ⟨ps, key, set, hgroup, rfl⟩ := Session.exists_isGroup hsets hb
    exact hgroup.kind_eq_source_iff
  have hvalue : ∀ b ∈ (s.synthesizeAll sets).1.bindings, b.kind = .source → b.IsValue := by
    intro b hb hsource
    have hnil := (hkind b hb).1 hsource
    obtain ⟨ps, key, set, hgroup, rfl⟩ := Session.exists_isGroup hsets hb
    have harity : set.arity = 0 := OverloadSet.params_made_eq_nil_iff.1 hnil
    exact OverloadSet.isValue_made (hgroup.isSingle harity) harity
  have hnodup : ((s.synthesizeAll sets).1.bindings.map (·.name)).Nodup :=
    Session.nodup_addBindings (fun set hset => (huniform set hset).nonempty) List.nodup_nil
  refine ⟨fun b hb => ⟨hkind b hb, hvalue b hb⟩, BindingModule.operations_append_sources_perm _,
    fun units hunits => Units.renders hunits hkind hvalue hnodup, fun hregistered => ?_⟩
  refine exists_units fun b hb => ?_
  obtain ⟨set, -, -, hwellFormed⟩ := Session.exists_wellFormed huniform hregistered hb
  exact ⟨set, hwellFormed⟩

/-- A node without inputs and a node with one. -/
def clockStage : Schema.Stage :=
  ⟨[{ path := "/ND_time_float"
      metadata := []
      properties := [plainProperty "outputs:out" "float"] },
    plainNode "abs_float" "float" "float"]⟩

/-- The session that has loaded the two nodes. -/
def clockSession : Session := ((Session.new false).loadStage clockStage []).2

/-- The nodes that it has loaded. -/
def clockNodes : List Prototype := Session.loaded ((Session.new false).loadStage clockStage []).1

theorem synthesizeAll_splits_clock :
    ∃ m units, (clockSession.synthesizeAll (group clockNodes).value).1 = m ∧
      Units.ofModule m = .ok units ∧
      m.operations.map (·.name) = ["abs"] ∧ m.sources.map (·.name) = ["time"] ∧
      (∀ b ∈ m.bindings, (b.kind = .source ↔ b.params = []) ∧ (b.kind = .source → b.IsValue)) ∧
      (m.operations ++ m.sources).Perm m.bindings ∧ units.Renders m := by
  have hnames : (clockSession.synthesizeAll (group clockNodes).value).1.operations.map (·.name)
        = ["abs"] ∧
      (clockSession.synthesizeAll (group clockNodes).value).1.sources.map (·.name) = ["time"] := by
    decide +kernel
  have hsound := ((Session.Reachable.new false).load clockStage []).sound
  obtain ⟨hbindings, hperm, hrenders, hexists⟩ :=
    synthesizeAll_splits (s := clockSession) fun set hset => ⟨clockNodes, hset⟩
  obtain ⟨units, hunits⟩ := hexists fun set hset p hp =>
    hsound.registered p ((uniform_of_mem_values hset).2 p hp)
  exact ⟨_, units, rfl, hunits, hnames.1, hnames.2, hbindings, hperm, hrenders units hunits⟩

end ShaderBindings
