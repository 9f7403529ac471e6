/-
# Default arguments are well typed

A parameter of a generated function may have a default.  It starts as the defaults of the sockets
at one position, which have to agree.  The first socket decides the shape of all of them, the
type of the parameter and the way in which the default is written.  So the default has the type
of its parameter (`isDefault_parameter`), up to one case: the components of a vector of integers
are written as floats.

The facts about sockets come from loading, and the absence of mixed enumerations from a run that
reports nothing fatal.
-/
import ShaderBindings.Generation
import ShaderBindings.Proofs.Accounting
import ShaderBindings.Proofs.Codegen
import ShaderBindings.Proofs.Shapes

namespace ShaderBindings

open Swift Fault

/-! ## Categories -/

namespace Category

lemma isEnumerated_iff {c : Category} : c.isEnumerated = true ↔ ∃ id, c = .enumerated id := by
  cases c <;> simp [isEnumerated]

end Category

/-- The constant of a position whose parameter has the type. -/
def ParamType.collapse? : ParamType → Option Collapse
  | .primitive dataType => some (.primitive dataType)
  | .enumerated id => some (.enumerated id)
  | .generic | .category _ => none

namespace OverloadSet

variable {s : OverloadSet} {index id : Nat} {c : Category} {l : Literal} {shape : Shape}

/-! ## Defaults that agree -/

lemma hasShape_of_mergeDefaults? {merged : Literal} {sockets : List Socket}
    (h : mergeDefaults? (some merged) sockets = some l) (hmerged : merged.HasShape shape) :
    l.HasShape shape := by
  induction sockets generalizing merged with
  | nil =>
    obtain rfl := Option.some.inj h
    exact hmerged
  | cons x rest ih =>
    rw [mergeDefaults?] at h
    split at h
    · exact absurd h (by simp)
    · split_ifs at h with hadds
      exact ih h (hmerged.of_agrees (Bool.and_eq_true_iff.1 hadds).2)

/-- The default of some sockets has the shape of the default of the first one. -/
lemma unifiedDefault?_cons {first : Socket} {rest : List Socket}
    (h : unifiedDefault? (first :: rest) = some l) :
    ∃ own ∈ first.default?, isRepresentable first own = true ∧
      ∀ shape, own.HasShape shape → l.HasShape shape := by
  obtain ⟨own, hown, hrepresentable, hmerge⟩ := unifiedDefault?_cons_eq_some_iff.1 h
  exact ⟨own, hown, hrepresentable, fun shape hshape => hasShape_of_mergeDefaults? hmerge hshape⟩

/-! ## Positions -/

lemma dataType_of_collapseOf? {first : Socket} {rest : List Socket} {dataType : String}
    (h : collapseOf? (first :: rest) = some (.primitive dataType)) : dataType = first.dataType := by
  classical
  by_cases hid : ∃ id, HaveEnumeration (first :: rest) id
  · obtain ⟨id, hid⟩ := hid
    rw [collapseOf?_of_haveEnumeration (List.cons_ne_nil _ _) hid] at h
    exact absurd h (by simp)
  · rw [collapseOf?_of_not_haveEnumeration (not_exists.1 hid)] at h
    split_ifs at h
    exact (Collapse.primitive.inj (Option.some.inj h)).symm

/-- The first socket of a position that does not become an enumeration decides the shape of the
default. -/
lemma exists_first (hroles : s.hasMixedRoles index = false)
    (hloaded : ∀ x ∈ s.socketsAt index, x.IsLoaded)
    (hplain : ∀ id, collapseOf? (s.socketsAt index) ≠ some (.enumerated id))
    (h : unifiedDefault? (s.socketsAt index) = some l) :
    ∃ first rest shape, s.socketsAt index = first :: rest ∧
      DataType.intrinsic? first.dataType = some first.category ∧
      runtimeShapes.lookup (DataType.runtime first.dataType) = some shape ∧ l.HasShape shape := by
  rcases hsockets : s.socketsAt index with _ | ⟨first, rest⟩
  · rw [hsockets] at h
    exact absurd h (by simp [unifiedDefault?, mergeDefaults?])
  · have hfirst : first ∈ s.socketsAt index := by simp [hsockets]
    have hcategory : first.category.isEnumerated = false := by
      refine Bool.eq_false_iff.2 fun henumerated => ?_
      obtain ⟨id, hid⟩ := Category.isEnumerated_iff.1 henumerated
      exact hplain id (collapseOf?_of_mem hroles hfirst hid)
    rw [hsockets] at h
    obtain ⟨own, hown, hrepresentable, hshape⟩ := unifiedDefault?_cons h
    obtain ⟨hintrinsic, shape, hlookup, hownShape⟩ :=
      exists_hasShape (hloaded first hfirst) hcategory hown hrepresentable
    exact ⟨first, rest, shape, rfl, hintrinsic, hlookup, hshape shape hownShape⟩

/-! ## Types of parameters -/

variable {a : Analysis} {p : Position}

/-- The type of a parameter tells the constant that its position becomes. -/
lemma collapseOf?_eq_of_parameterType {type : ParamType}
    (h : (parameterType a (s.position index)).1 = type) :
    collapseOf? (s.socketsAt index) = type.collapse? := by
  have hcollapse : (s.position index).collapse? = collapseOf? (s.socketsAt index) := rfl
  rw [← hcollapse, ← h, parameterType]
  split
  · rename_i heq
    exact heq
  · rename_i heq
    exact heq
  · rename_i heq
    rw [heq]
    split_ifs
    · rfl
    · split <;> rfl

/-- A parameter with a class has that of a category to which the category of the first socket
widens. -/
lemma join?_of_category {first : Category} (h : (parameterType a p).1 = .category c)
    (hfirst : p.categories.head? = some first) : Category.join? [first, c] = some c := by
  rw [parameterType] at h
  split at h
  · exact absurd h (by simp)
  · exact absurd h (by simp)
  · split_ifs at h
    split at h
    -- the members share the category
    · rename_i shared hshared
      obtain rfl := ParamType.category.inj h
      rw [Position.shared?] at hshared
      split_ifs at hshared
      obtain rfl := Option.some.inj (hfirst.symm.trans hshared)
      exact Category.join?_pair_of_le le_rfl
    -- the category is the join
    · have hmem : first ∈ p.categories := List.mem_of_mem_head? hfirst
      obtain ⟨d, hd⟩ := Category.exists_join? (List.ne_nil_of_mem hmem)
      have hjoin : (Category.join? p.categories).getD .value = c := ParamType.category.inj h
      rw [hd, Option.getD_some] at hjoin
      rw [← hjoin]
      exact Category.join?_pair_of_le ((Category.isLUB_of_join? hd).1 hmem)

/-! ## Defaults of parameters -/

variable {m : BindingModule} {r : EnumRegistry} {enums : List Enumeration} {e : Expr}

/-- The default of a parameter that is no enumeration is that of its position. -/
lemma unifiedDefault?_of_parameter
    (hplain : ∀ id, (parameterType (s.analysis c) (s.position index)).1 ≠ .enumerated id)
    (h : (parameter (s.analysis c) r (s.position index)).default? = some l) :
    unifiedDefault? (s.socketsAt index) = some l := by
  have hposition : (s.position index).default? = some l := by
    rw [default?_parameter, parameterDefault?.eq_def] at h
    split at h
    · rename_i id _ htype _
      exact absurd htype (hplain id)
    · exact h
  rw [position] at hposition
  dsimp only at hposition
  split_ifs at hposition
  exact hposition

/-- The default of a parameter that is an enumeration is one of its members. -/
lemma exists_identity_of_parameter {t : String}
    (htype : (parameterType (s.analysis c) (s.position index)).1 = .enumerated id)
    (h : (parameter (s.analysis c) r (s.position index)).default? = some (.string t)) :
    ∃ identity, r.get? id = some identity ∧ t ∈ identity.members := by
  rw [default?_parameter, htype, parameterDefault?.eq_def] at h
  split at h
  · rename_i id' t' hid _
    obtain rfl := ParamType.enumerated.inj hid
    split at h
    · rename_i identity hget
      split_ifs at h with hcontains
      obtain rfl := Literal.string.inj (Option.some.inj h)
      exact ⟨identity, hget, List.contains_iff_mem.1 hcontains⟩
    · exact absurd h (by simp)
  · rename_i hnone
    exact absurd h (hnone id t rfl)

lemma mem_of_enumOf {identity : EnumIdentity} (h : enumOf m id = .ok identity) :
    identity ∈ m.enums ∧ identity.id = id := by
  rw [enumOf] at h
  split at h
  · rename_i found hfound
    obtain rfl := Except.ok.inj h
    exact ⟨List.mem_of_find?_eq_some hfound, by simpa using List.find?_some hfound⟩
  · exact absurd h (by simp)

lemma isDefault_enumerated {t : String} {identity : EnumIdentity} (hm : m.enums = r.identities)
    (hr : r.WellFormed)
    (htype : (parameterType (s.analysis c) (s.position index)).1 = .enumerated id)
    (h : (parameter (s.analysis c) r (s.position index)).default? = some (.string t))
    (hidentity : enumOf m id = .ok identity) :
    IsDefault (m.enums.map enumerationOf) (.named identity.name)
      (.member (.identifier identity.name) (lowerCamel t)) := by
  obtain ⟨found, hget, ht⟩ := exists_identity_of_parameter htype h
  obtain ⟨hfound, hid⟩ := hr.get?_eq_some_iff.1 hget
  obtain ⟨hmem, hid'⟩ := mem_of_enumOf hidentity
  rw [hm] at hmem
  -- the registry and the module have one entry with the sequence number
  obtain rfl : found = identity := hr.eq_of_id_eq hfound hmem (hid.trans hid'.symm)
  have hdeclared : enumerationOf found ∈ m.enums.map enumerationOf :=
    List.mem_map_of_mem (hm ▸ hfound)
  have hcase : ⟨lowerCamel t, t⟩ ∈ (enumerationOf found).cases := List.mem_map_of_mem ht
  have hname : (enumerationOf found).name ∉ hostNames :=
    name_notMem_hostNames (hr.sound found hfound)
  exact .of_hasType (.enumCase hdeclared hname hcase) (not_isIntegerVector_named _)

lemma isDefault_primitive {dataType : String} (hroles : s.hasMixedRoles index = false)
    (hloaded : ∀ x ∈ s.socketsAt index, x.IsLoaded)
    (htype : (parameterType (s.analysis c) (s.position index)).1 = .primitive dataType)
    (h : (parameter (s.analysis c) r (s.position index)).default? = some l)
    (he : constantExpr? l dataType = some e) : IsDefault enums (constantType dataType) e := by
  have hcollapse : collapseOf? (s.socketsAt index) = some (.primitive dataType) :=
    collapseOf?_eq_of_parameterType htype
  have hunified := unifiedDefault?_of_parameter (by rw [htype]; simp) h
  obtain ⟨first, rest, shape, hsockets, -, hlookup, hshape⟩ :=
    exists_first hroles hloaded (by rw [hcollapse]; simp) hunified
  rw [hsockets] at hcollapse
  obtain rfl := dataType_of_collapseOf? hcollapse
  exact isDefault_constantExpr? hlookup hshape he

lemma isDefault_category {d : Category} (hroles : s.hasMixedRoles index = false)
    (hloaded : ∀ x ∈ s.socketsAt index, x.IsLoaded)
    (htype : (parameterType (s.analysis c) (s.position index)).1 = .category d)
    (h : (parameter (s.analysis c) r (s.position index)).default? = some l)
    (he : valueExpr? l (parameter (s.analysis c) r (s.position index)).dataType = some e) :
    IsDefault enums (.named (className d)) e := by
  have hcollapse : collapseOf? (s.socketsAt index) = none := collapseOf?_eq_of_parameterType htype
  have hunified := unifiedDefault?_of_parameter (by rw [htype]; simp) h
  obtain ⟨first, rest, shape, hsockets, hintrinsic, hlookup, hshape⟩ :=
    exists_first hroles hloaded (by rw [hcollapse]; simp) hunified
  have hhead : (s.position index).categories.head? = some first.category := by
    simp [position, hsockets]
  have hdataType : (parameter (s.analysis c) r (s.position index)).dataType = first.dataType := by
    simp [position, hsockets]
  rw [hdataType] at he
  have hjoin := join?_of_category htype hhead
  exact .of_hasType (hasType_valueExpr? hintrinsic hlookup hshape hjoin he)
    (not_isIntegerVector_named _)

/-- A default of a parameter of a set is a default of its type. -/
lemma isDefault_parameter {t : TypeExpr} (hm : m.enums = r.identities) (hr : r.WellFormed)
    (hroles : s.hasMixedRoles index = false) (hloaded : ∀ x ∈ s.socketsAt index, x.IsLoaded)
    (ht : typeOf m (parameter (s.analysis c) r (s.position index)).type = .ok t)
    (he : defaultOf m (parameter (s.analysis c) r (s.position index)) = .ok (some e)) :
    IsDefault (m.enums.map enumerationOf) t e := by
  rw [defaultOf] at he
  split at he
  · exact absurd (Except.ok.inj he) (by simp)
  · rename_i l hl
    split at he
    · rename_i id text htype
      rw [htype] at ht
      obtain ⟨identity, hidentity, heq⟩ := map_eq_ok_iff.1 he
      obtain ⟨identity', hidentity', rfl⟩ := map_eq_ok_iff.1 ht
      obtain rfl := Except.ok.inj (hidentity.symm.trans hidentity')
      obtain rfl := Option.some.inj heq
      exact isDefault_enumerated hm hr htype hl hidentity
    · rename_i dataType _ htype
      rw [htype] at ht
      obtain rfl := Except.ok.inj ht
      exact isDefault_primitive hroles hloaded htype hl (Except.ok.inj he)
    · rename_i d _ htype
      rw [htype] at ht
      obtain rfl := Except.ok.inj ht
      exact isDefault_category hroles hloaded htype hl (Except.ok.inj he)
    · exact absurd (Except.ok.inj he) (by simp)

end OverloadSet

/-! ## The files of a module -/

section Files

variable {m : BindingModule} {units : Units} {b : Binding} {f : Function}

/-- Every declaration of the files is that of a binding. -/
lemma exists_binding (h : Units.ofModule m = .ok units) (hf : f ∈ units.declarations) :
    ∃ b ∈ m.bindings, functionOf m b = .ok f := by
  obtain ⟨functions, hfunctions, h⟩ := bind_eq_ok_iff.1 h
  obtain ⟨members, hmembers, h⟩ := bind_eq_ok_iff.1 h
  obtain rfl := Except.ok.inj h
  have hmem : f ∈ functions ∨ f ∈ members := by simpa [Units.declarations] using hf
  rcases hmem with hf | hf
  · obtain ⟨b, hb, heq⟩ := exists_of_mem_mapM hfunctions hf
    exact ⟨b, (List.mem_filter.1 hb).1, heq⟩
  · obtain ⟨b, hb, heq⟩ := exists_of_mem_mapM hmembers hf
    exact ⟨b, (List.mem_filter.1 hb).1, heq⟩

lemma enums_ofModule (h : Units.ofModule m = .ok units) :
    units.operations.enums = m.enums.map enumerationOf := by
  obtain ⟨functions, -, h⟩ := bind_eq_ok_iff.1 h
  obtain ⟨members, -, h⟩ := bind_eq_ok_iff.1 h
  obtain rfl := Except.ok.inj h
  rfl

/-- Every parameter of a declaration is that of its binding. -/
lemma exists_param (h : functionOf m b = .ok f) {p : Parameter} (hp : p ∈ f.parameters) :
    ∃ q ∈ b.params, typeOf m q.type = .ok p.type ∧ defaultOf m q = .ok p.default? := by
  obtain ⟨parameters, hparameters, h⟩ := bind_eq_ok_iff.1 h
  obtain ⟨result, -, h⟩ := bind_eq_ok_iff.1 h
  obtain ⟨body, -, h⟩ := bind_eq_ok_iff.1 h
  obtain rfl := Except.ok.inj h
  obtain ⟨q, hq, heq⟩ := exists_of_mem_mapM hparameters hp
  obtain ⟨type, htype, heq⟩ := bind_eq_ok_iff.1 heq
  obtain ⟨default, hdefault, heq⟩ := bind_eq_ok_iff.1 heq
  obtain rfl := Except.ok.inj heq
  exact ⟨q, hq, htype, hdefault⟩

end Files

/-! ## Generation -/

/-- The files that are made of a schema, when the run over it reports nothing fatal. -/
def filesOf? (schema : String) (descriptions : Schema.Descriptions) (strict : Bool) :
    Option Units := do
  let stage ← Schema.Stage.ofText? schema
  let run := (Session.new strict).run stage descriptions
  let m ← run.1.toOption
  if run.2.ledger.diagnostics.hasFatal then none else (Units.ofModule m).toOption

section Generation

variable {schema : String} {descriptions : Schema.Descriptions} {strict : Bool} {units : Units}

lemma filesOf?_eq_some_iff : filesOf? schema descriptions strict = some units ↔
    ∃ stage m session, Schema.Stage.ofText? schema = some stage ∧
      (Session.new strict).run stage descriptions = (.ok m, session) ∧
      session.ledger.diagnostics.hasFatal = false ∧ Units.ofModule m = .ok units := by
  constructor
  · intro h
    obtain ⟨stage, hstage, h⟩ := Option.bind_eq_some_iff.1 h
    obtain ⟨m, hm, h⟩ := Option.bind_eq_some_iff.1 h
    split_ifs at h with hfatal
    exact ⟨stage, m, _, hstage, Prod.ext (toOption_eq_some_iff.1 hm) rfl,
      Bool.eq_false_iff.2 hfatal, toOption_eq_some_iff.1 h⟩
  · rintro ⟨stage, m, session, hstage, hrun, hfatal, hunits⟩
    simp [filesOf?, hstage, hrun, hfatal, hunits, Except.toOption]

/-- A generation gives the texts of the files of the schema. -/
lemma exists_filesOf? {g : Generated} (h : generate schema descriptions strict = .ok g) :
    ∃ units, filesOf? schema descriptions strict = some units ∧
      g.operations = units.operations.text ∧ g.sources = units.sources.text := by
  rw [generate] at h
  split at h
  · exact absurd h (by simp)
  · rename_i stage hstage
    rw [Generated.ofStage] at h
    rcases hrun : (Session.new strict).run stage descriptions with ⟨e | m, session⟩
    · simp only [hrun] at h
      exact absurd h (by simp)
    · simp only [hrun] at h
      split_ifs at h with hfatal
      rcases hmodule : Generated.ofModule m session.ledger.diagnostics with fault | generated
      · simp only [hmodule] at h
        exact absurd h (by simp)
      · simp only [hmodule] at h
        obtain rfl := Except.ok.inj h
        obtain ⟨units, hunits, heq⟩ := bind_eq_ok_iff.1 hmodule
        obtain rfl := Except.ok.inj heq
        exact ⟨units, filesOf?_eq_some_iff.2 ⟨stage, m, session, hstage, hrun,
          Bool.eq_false_iff.2 hfatal, hunits⟩, rfl, rfl⟩

/-- Something is generated from a schema that has files. -/
lemma exists_generate (h : filesOf? schema descriptions strict = some units) :
    ∃ g, generate schema descriptions strict = .ok g := by
  obtain ⟨stage, m, session, hstage, hrun, hfatal, hunits⟩ := filesOf?_eq_some_iff.1 h
  obtain ⟨g, hg⟩ : ∃ g, Generated.ofModule m session.ledger.diagnostics = .ok g :=
    ⟨_, bind_eq_ok_iff.2 ⟨units, hunits, rfl⟩⟩
  exact ⟨g, by simp [generate, hstage, Generated.ofStage, hrun, hfatal, hg]⟩

/-- When a run reports nothing fatal, every binding of its module is that of a set of loaded
sockets without mixed roles. -/
lemma exists_set_of_run {stage : Schema.Stage} {m : BindingModule} {session : Session}
    (hrun : (Session.new strict).run stage descriptions = (.ok m, session))
    (hfatal : session.ledger.diagnostics.hasFatal = false) :
    ∃ r : EnumRegistry, m.enums = r.identities ∧ r.WellFormed ∧
      ∀ b ∈ m.bindings, ∃ s : OverloadSet, b = s.made r ∧
        (∀ index < s.arity, s.hasMixedRoles index = false) ∧
          ∀ index, ∀ x ∈ s.socketsAt index, x.IsLoaded := by
  obtain ⟨ps, s₁, hload, rfl, rfl⟩ := Session.exists_loadStage_of_run hrun
  have hloaded := Session.isLoaded_loadStage hload
  refine ⟨s₁.ledger.enums, rfl, Session.wellFormed_loadStage hload, fun b hb => ?_⟩
  -- the last diagnostics are those of the synthesis of all sets
  simp only [Session.synthesizeAll, Session.buildOverloads, Session.report, Ledger.report]
    at hfatal hb
  rw [Diagnostics.hasFatal_append, Bool.or_eq_false_iff] at hfatal
  have hnonempty : ∀ s ∈ (group ps).value.values, s.members ≠ [] :=
    fun s hs => (uniform_of_mem_values hs).1.nonempty
  have hroles := Session.hasMixedRoles_of_not_fatal hnonempty hfatal.2
  obtain ⟨s, hs, rfl⟩ := Session.exists_made_of_mem hnonempty hb
  refine ⟨s, rfl, hroles s hs, fun index x hx => ?_⟩
  obtain ⟨p, hp, hx⟩ := OverloadSet.mem_socketsAt_iff.1 hx
  exact hloaded p ((uniform_of_mem_values hs).2 p hp) x (List.mem_of_getElem? hx)

/-- Every default in the files of a schema is a default of the type of its parameter. -/
lemma isDefault_of_filesOf? (h : filesOf? schema descriptions strict = some units) {f : Function}
    (hf : f ∈ units.declarations) {p : Parameter} (hp : p ∈ f.parameters) {e : Expr}
    (he : e ∈ p.default?) : IsDefault units.operations.enums p.type e := by
  obtain ⟨stage, m, session, -, hrun, hfatal, hunits⟩ := filesOf?_eq_some_iff.1 h
  obtain ⟨r, henums, hwellFormed, hsets⟩ := exists_set_of_run hrun hfatal
  obtain ⟨b, hb, hfunction⟩ := exists_binding hunits hf
  obtain ⟨s, rfl, hroles, hloaded⟩ := hsets b hb
  obtain ⟨q, hq, htype, hdefault⟩ := exists_param hfunction hp
  obtain ⟨index, hindex, rfl⟩ := OverloadSet.mem_params_binding_iff.1 hq
  rw [Option.mem_def.1 he] at hdefault
  rw [enums_ofModule hunits]
  exact OverloadSet.isDefault_parameter henums hwellFormed (hroles index hindex) (hloaded index)
    htype hdefault

/-- **Default arguments have the types of their parameters**, in the files of every schema from
which something is generated.  A vector of integers alone has a default of another type: it is made
from as many floats. -/
theorem defaults_hasType {g : Generated} (h : generate schema descriptions strict = .ok g) :
    ∃ units, filesOf? schema descriptions strict = some units ∧
      g.operations = units.operations.text ∧ g.sources = units.sources.text ∧
      ∀ f ∈ units.declarations, ∀ p ∈ f.parameters, ∀ e ∈ p.default?,
        (HasType units.operations.enums p.type e ↔ ¬ p.type.IsIntegerVector) ∧
          ∀ n, 0 < n → p.type = simdType n "Int" → IsVector .float n "Int" e := by
  obtain ⟨units, hunits, hoperations, hsources⟩ := exists_filesOf? h
  refine ⟨units, hunits, hoperations, hsources, fun f hf p hp e he => ?_⟩
  have hdefault := isDefault_of_filesOf? hunits hf hp he
  exact ⟨hdefault.hasType_iff, hdefault.isVector⟩

end Generation

/-! ## A schema with three defaults -/

/-- The lines of the text of a node with defaults for a value of the graph, an integer and a pair
of integers. -/
def tileLines : List String :=
  ["\x7b\"prims\":[\x7b\"path\":\"/ND_tile_color3\",\"properties\":[",
    "\x7b\"name\":\"inputs:amount\",\"typeName\":\"float\",",
    "\"default\":0.5\x7d,",
    "\x7b\"name\":\"inputs:index\",\"typeName\":\"int\",",
    "\"default\":3,\"metadata\":\x7b\"connectability\":\"interfaceOnly\"\x7d\x7d,",
    "\x7b\"name\":\"inputs:size\",\"typeName\":\"int2\",",
    "\"default\":[1,2],\"metadata\":\x7b\"connectability\":\"interfaceOnly\"\x7d\x7d,",
    "\x7b\"name\":\"outputs:out\",\"typeName\":\"color3f\"\x7d]\x7d]\x7d"]

def tileSchema : String := String.join tileLines

/-- The types of the parameters with a default. -/
def defaultTypes (units : Units) : List TypeExpr :=
  ((units.declarations.flatMap (·.parameters)).filter fun p => p.default?.isSome).map (·.type)

/-- The type is that of pairs of integers. -/
def isIntegerPair : TypeExpr → Bool
  | .applied base [.named scalar] => base = "SIMD2" && scalar = "Int"
  | _ => false

lemma eq_of_isIntegerPair {t : TypeExpr} (h : isIntegerPair t = true) : t = simdType 2 "Int" := by
  rw [isIntegerPair.eq_def] at h
  split at h
  · obtain ⟨hbase, hscalar⟩ := Bool.and_eq_true_iff.1 h
    rw [of_decide_eq_true hbase, of_decide_eq_true hscalar]
    rfl
  · exact absurd h Bool.false_ne_true

lemma exists_filesOf?_tile : ∃ units, filesOf? tileSchema [] false = some units ∧
    (defaultTypes units).map TypeExpr.text = ["SGScalar", "Int", "SIMD2<Int>"] ∧
    (defaultTypes units).map isIntegerPair = [false, false, true] := by
  -- the characters of many short lines are found faster than those of one long text
  have htext : tileSchema.toList = tileLines.flatMap String.toList := String.toList_join
  have htypes : (filesOf? tileSchema [] false).map (fun units =>
      ((defaultTypes units).map TypeExpr.text, (defaultTypes units).map isIntegerPair))
        = some (["SGScalar", "Int", "SIMD2<Int>"], [false, false, true]) := by
    rw [filesOf?, Schema.Stage.ofText?, Json.Document.ofText?, htext]
    decide +kernel
  obtain ⟨units, hunits, heq⟩ := Option.map_eq_some_iff.1 htypes
  obtain ⟨htexts, hpairs⟩ := Prod.mk.inj heq
  exact ⟨units, hunits, htexts, hpairs⟩

theorem defaults_hasType_tile :
    ∃ g units, generate tileSchema [] false = .ok g ∧
      filesOf? tileSchema [] false = some units ∧ g.operations = units.operations.text ∧
      (defaultTypes units).map TypeExpr.text = ["SGScalar", "Int", "SIMD2<Int>"] ∧
      ∀ f ∈ units.declarations, ∀ p ∈ f.parameters, ∀ e ∈ p.default?,
        HasType units.operations.enums p.type e ↔ ¬ p.type.IsIntegerVector := by
  obtain ⟨units, hunits, htexts, -⟩ := exists_filesOf?_tile
  obtain ⟨g, hg⟩ := exists_generate hunits
  obtain ⟨units', hunits', hoperations, -, hdefaults⟩ := defaults_hasType hg
  obtain rfl := Option.some.inj (hunits.symm.trans hunits')
  exact ⟨g, units, hg, hunits, hoperations, htexts,
    fun f hf p hp e he => (hdefaults f hf p hp e he).1⟩

/-- The default for the pair of integers has not the type of its parameter. -/
theorem not_hasType_tile :
    ¬ ∀ schema descriptions strict g, generate schema descriptions strict = .ok g →
      ∃ units, filesOf? schema descriptions strict = some units ∧
        ∀ f ∈ units.declarations, ∀ p ∈ f.parameters, ∀ e ∈ p.default?,
          HasType units.operations.enums p.type e := by
  intro hall
  obtain ⟨units, hunits, -, hpairs⟩ := exists_filesOf?_tile
  obtain ⟨g, hg⟩ := exists_generate hunits
  obtain ⟨units', hunits', htyped⟩ := hall tileSchema [] false g hg
  obtain rfl := Option.some.inj (hunits.symm.trans hunits')
  have hmem : true ∈ (defaultTypes units).map isIntegerPair := by rw [hpairs]; decide
  obtain ⟨t, ht, hpair⟩ := List.mem_map.1 hmem
  obtain ⟨p, hp, rfl⟩ := List.mem_map.1 ht
  obtain ⟨hp, hdefault⟩ := List.mem_filter.1 hp
  obtain ⟨f, hf, hp⟩ := List.mem_flatMap.1 hp
  obtain ⟨e, he⟩ := Option.isSome_iff_exists.1 hdefault
  have hvector := (isDefault_of_filesOf? hunits hf hp he).hasType_iff.1 (htyped f hf p hp e he)
  exact hvector ⟨2, by decide, eq_of_isIntegerPair hpair⟩

end ShaderBindings
