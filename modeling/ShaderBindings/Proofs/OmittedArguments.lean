/-
# Omitted arguments pass the checks

A call may leave out an argument whose parameter has a default.  The default of an argument that is
a value of the graph is written as `SGValue.<case>(..)`, and the case is made from the schema type
that the first member has at the position.  The checks of a binding are made from runtime types
instead, before any default is written.

Both are the runtime type of the first member's socket: a guard because all members share it, and
the first branch because it is that of the first member.  So the two meet at the socket
(`eq_call_of_defaultOf`), and a call of the first member's types takes the first branch, whichever
of the defaulted arguments it leaves out.
-/
import ShaderBindings.Proofs.Defaults

namespace ShaderBindings

open Swift Fault

/-- The case of the value of the graph that an expression constructs, as in
`SGValue.<case>(..)`. -/
def Swift.Expr.valueCase? : Expr → Option String
  | .call (.member (.identifier "SGValue") case) _ => some case
  | _ => none

/-- The function of the binding has a default for the parameter. -/
def Binding.HasDefault (b : Binding) (m : BindingModule) (index : Nat) (e : Expr) : Prop :=
  ∃ p, b.params[index]? = some p ∧ defaultOf m p = .ok (some e)

/-- The parameter is a value of the graph whose default has the given case. -/
def Binding.DefaultCase (b : Binding) (m : BindingModule) (index : Nat) (case : String) : Prop :=
  ∃ p c e, b.params[index]? = some p ∧ p.type = .category c ∧
    defaultOf m p = .ok (some e) ∧ e.valueCase? = some case

/-- The check demands the case, also in the form in which it is written. -/
def TypeCheck.Demands (check : TypeCheck) (case : String) : Prop :=
  check.dataType = case ∧ dataTypeExpr check.dataType = .member (.identifier "SGDataType") case

/-- The arguments of a call have the types of the prototype's inputs, except that some are left
out.  What is left out has a default, and the type is the case of this default. -/
structure Prototype.AcceptsOmitting (p : Prototype) (b : Binding) (m : BindingModule)
    (omitted : Nat → Prop) (types : ArgumentTypes) : Prop where
  given : ∀ (index : Nat) (x : Socket), p.inputs[index]? = some x → ¬ omitted index →
    types index = x.runtimeType
  has_default : ∀ index, omitted index → ∃ e, b.HasDefault m index e
  default : ∀ index e case, omitted index → b.HasDefault m index e → e.valueCase? = some case →
    types index = case

/-- The defaults of a binding pass its checks: the binding of a set with the given first member. -/
structure Binding.AdmitsDefaults (b : Binding) (m : BindingModule) (first : Prototype) : Prop where
  /-- A guard demands the case of the default. -/
  guarded : ∀ index case, b.DefaultCase m index case →
    ∀ g ∈ b.guards, g.param = index → g.Demands case
  /-- The first branch demands the case of the default, when it looks at the parameter, and it looks
  at all that are reported when no branch fits. -/
  discriminating : ∀ index case, b.DefaultCase m index case → ∀ branch ∈ b.branches.head?,
    (∀ check ∈ branch.conditions, check.param = index → check.Demands case) ∧
      ∀ reported ∈ b.fallback?, index ∈ reported → ∃ check ∈ branch.conditions, check.param = index
  /-- The first branch builds the node of the first member, and a call with the types of this
  member takes it, with any defaulted arguments left out. -/
  taken : ∃ branch, b.branches.head? = some branch ∧ branch.nodeId = first.id ∧
    branch.Wires first ∧ ∀ omitted types, first.AcceptsOmitting b m omitted types →
      b.dispatch types = .taken branch

namespace Swift

variable {l : Literal} {dataType : String} {e : Expr}

/-- The runtime types of which values of the graph are constructed. -/
def valueTypes : List String :=
  ["float", "half", "int", "string"]
    ++ (["vector2f", "vector3f", "vector4f", "color3f", "color4f"]
      ++ ["matrix2d", "matrix3d", "matrix4d"])

lemma mem_valueTypes_of_valueArgs? {args : List Arg} (h : valueArgs? l dataType = some args) :
    DataType.runtime dataType ∈ valueTypes := by
  rw [valueArgs?.eq_def] at h
  dsimp only at h
  split_ifs at h with hplain htuple hmatrix
  · exact List.mem_append_left _ (List.contains_iff_mem.1 hplain)
  · exact List.mem_append_right _ (List.mem_append_left _ (List.contains_iff_mem.1 htuple))
  · exact List.mem_append_right _ (List.mem_append_right _ (List.contains_iff_mem.1 hmatrix))

/-- The case of a default is the runtime type of its schema type, which is its own runtime type. -/
lemma valueCase?_of_valueExpr? (h : valueExpr? l dataType = some e) :
    e.valueCase? = some (DataType.runtime dataType) ∧
      DataType.runtime (DataType.runtime dataType) = DataType.runtime dataType := by
  obtain ⟨args, hargs, rfl⟩ := Option.map_eq_some_iff.1 h
  have hall : ∀ t ∈ valueTypes, DataType.runtime t = t := by decide
  exact ⟨rfl, hall _ (mem_valueTypes_of_valueArgs? hargs)⟩

end Swift

namespace OverloadSet

variable {s : OverloadSet} {c : Category} {r : EnumRegistry} {index : Nat} {m : BindingModule}
  {first : Prototype} {rest : List Prototype} {e : Expr} {x : Socket} {types : ArgumentTypes}

/-! ## The default at a position -/

/-- The first member's socket stands first at its position. -/
lemma head?_socketsAt (hfirst : s.prototypes = first :: rest)
    (hx : first.inputs[index]? = some x) : (s.socketsAt index).head? = some x := by
  rw [socketsAt, hfirst, List.filterMap_cons, hx, List.head?_cons]

/-- The default of an argument that is no constant is written as a value of the graph. -/
lemma valueExpr?_of_defaultOf {p : Param} (hcollapse : p.type.collapse? = none)
    (he : defaultOf m p = .ok (some e)) : ∃ l, valueExpr? l p.dataType = some e := by
  rw [defaultOf] at he
  rcases hdefault : p.default? with _ | l
  · simp [hdefault] at he
  · simp only [hdefault] at he
    rcases htype : p.type with dataType | id | _ | d
    · simp [htype, ParamType.collapse?] at hcollapse
    · simp [htype, ParamType.collapse?] at hcollapse
    · simp [htype] at he
    · rw [htype] at he
      exact ⟨l, Except.ok.inj he⟩

/-- The default of an argument that is a value of the graph has the runtime type of the first
member's socket as its case. -/
lemma valueCase?_of_defaultOf (hcollapse : collapseOf? (s.socketsAt index) = none)
    (hhead : (s.socketsAt index).head? = some x) (hloaded : x.IsLoaded)
    (he : defaultOf m (parameter (s.analysis c) r (s.position index)) = .ok (some e)) :
    e.valueCase? = some x.runtimeType ∧ DataType.runtime x.runtimeType = x.runtimeType := by
  have hdataType : (parameter (s.analysis c) r (s.position index)).dataType = x.dataType := by
    simp [position, hhead]
  obtain ⟨l, hl⟩ :=
    valueExpr?_of_defaultOf ((collapseOf?_eq_of_parameterType rfl).symm.trans hcollapse) he
  rw [hdataType] at hl
  rw [hloaded.runtimeType]
  exact valueCase?_of_valueExpr? hl

lemma collapseOf?_of_mem_discriminating (h : index ∈ (s.analysis c).discriminating) :
    collapseOf? (s.socketsAt index) = none := by
  obtain ⟨hindex, -, hcollapsed⟩ := mem_discriminating_iff.1 h
  exact collapseOf?_of_not_collapsed hindex hcollapsed

/-- A check on the runtime type of the first member's socket demands the case of the default. -/
lemma demands_of_defaultCase (hs : s.Uniform) (hfirst : s.prototypes = first :: rest)
    (hloaded : first.IsLoaded) (hindex : index < s.arity)
    (hcollapse : collapseOf? (s.socketsAt index) = none) {case : String}
    (hcase : (s.binding (s.analysis c) r).DefaultCase m index case) :
    TypeCheck.Demands ⟨index, runtimeTypeAt first index⟩ case := by
  obtain ⟨x, hx⟩ := hs.exists_socket hindex (by simp [hfirst] : first ∈ s.prototypes)
  obtain ⟨p, d, e, hp, -, he, hcase⟩ := hcase
  obtain rfl := Option.some.inj ((getElem?_params_binding hindex).symm.trans hp)
  obtain ⟨hvalue, hruntime⟩ := valueCase?_of_defaultOf hcollapse (head?_socketsAt hfirst hx)
    (hloaded x (List.mem_of_getElem? hx)) he
  obtain rfl := Option.some.inj (hvalue.symm.trans hcase)
  rw [runtimeTypeAt_eq hx]
  exact ⟨rfl, by rw [dataTypeExpr, hruntime]⟩

/-! ## Calls -/

/-- An argument that is a value of the graph has the type of the first member, whether it is given
or left out. -/
lemma types_eq_of_acceptsOmitting (hs : s.Uniform) (hfirst : s.prototypes = first :: rest)
    (hloaded : first.IsLoaded) {omitted : Nat → Prop}
    (haccepts : first.AcceptsOmitting (s.binding (s.analysis c) r) m omitted types)
    (hindex : index < s.arity) (hcollapse : collapseOf? (s.socketsAt index) = none) :
    types index = runtimeTypeAt first index := by
  obtain ⟨x, hx⟩ := hs.exists_socket hindex (by simp [hfirst] : first ∈ s.prototypes)
  rw [runtimeTypeAt_eq hx]
  by_cases homitted : omitted index
  · obtain ⟨e, p, hp, he⟩ := haccepts.has_default index homitted
    obtain rfl := Option.some.inj ((getElem?_params_binding hindex).symm.trans hp)
    have hvalue := valueCase?_of_defaultOf hcollapse (head?_socketsAt hfirst hx)
      (hloaded x (List.mem_of_getElem? hx)) he
    exact haccepts.default index e _ homitted ⟨_, hp, he⟩ hvalue.1
  · exact haccepts.given index x hx homitted

lemma guard_eq (hs : s.Uniform) (hfirst : s.prototypes = first :: rest) {g : TypeCheck}
    (hg : g ∈ (s.binding (s.analysis c) r).guards) :
    g.param < s.arity ∧ collapseOf? (s.socketsAt g.param) = none ∧
      g = ⟨g.param, runtimeTypeAt first g.param⟩ := by
  obtain ⟨index, hindex, hguarded, rfl⟩ := mem_guards_iff.1 hg
  have hmem : first ∈ s.prototypes := by simp [hfirst]
  obtain ⟨x, hx⟩ := hs.exists_socket hindex hmem
  refine ⟨hindex, collapse?_of_isGuarded hguarded, ?_⟩
  rw [runtimeTypeAt_eq hx, head_runtimeTypes (sharesType_of_isGuarded hguarded)
    (mem_socketsAt hmem hx)]

lemma head?_branches_binding (hfirst : s.prototypes = first :: rest) :
    (s.binding (s.analysis c) r).branches.head?
      = some (branch (s.analysis c).discriminating first) := by
  rw [branches_binding, hfirst]
  rfl

lemma dispatch_of_acceptsOmitting (hs : s.Uniform) (hfirst : s.prototypes = first :: rest)
    (hloaded : first.IsLoaded) {omitted : Nat → Prop}
    (haccepts : first.AcceptsOmitting (s.binding (s.analysis c) r) m omitted types) :
    (s.binding (s.analysis c) r).dispatch types
      = .taken (branch (s.analysis c).discriminating first) := by
  refine Binding.dispatch_eq_taken_iff.2 ⟨fun g hg => ?_, ?_⟩
  · obtain ⟨hindex, hcollapse, heq⟩ := guard_eq hs hfirst hg
    rw [heq, TypeCheck.holds, decide_eq_true_eq]
    exact types_eq_of_acceptsOmitting hs hfirst hloaded haccepts hindex hcollapse
  · have hfits : (branch (s.analysis c).discriminating first).fits types = true := by
      refine fits_branch_iff.2 fun index hmem => ?_
      exact types_eq_of_acceptsOmitting hs hfirst hloaded haccepts
        (mem_discriminating_iff.1 hmem).1 (collapseOf?_of_mem_discriminating hmem)
    have hfound : ((first :: rest).find? fun p =>
        (branch (s.analysis c).discriminating p).fits types) = some first :=
      List.find?_cons_of_pos hfits
    rw [fitting?_binding, hfirst, hfound, Option.map_some]

/-- The binding of a uniform set of loaded prototypes admits its defaults. -/
lemma admitsDefaults_binding (hs : s.Uniform) (hfirst : s.prototypes = first :: rest)
    (hloaded : first.IsLoaded) : (s.binding (s.analysis c) r).AdmitsDefaults m first where
  guarded := by
    rintro index case hcase g hg rfl
    obtain ⟨hindex, hcollapse, heq⟩ := guard_eq hs hfirst hg
    rw [heq]
    exact demands_of_defaultCase hs hfirst hloaded hindex hcollapse hcase
  discriminating := by
    intro index case hcase b hb
    rw [head?_branches_binding hfirst] at hb
    obtain rfl := Option.some.inj hb
    constructor
    · rintro check hcheck rfl
      obtain ⟨index, hmem, rfl⟩ := List.mem_map.1 hcheck
      exact demands_of_defaultCase hs hfirst hloaded (mem_discriminating_iff.1 hmem).1
        (collapseOf?_of_mem_discriminating hmem) hcase
    · intro reported hreported hindex
      rw [mem_fallback_binding hreported] at hindex
      exact ⟨_, List.mem_map_of_mem hindex, rfl⟩
  taken := ⟨_, head?_branches_binding hfirst, rfl, branch_wires _ first,
    fun _ _ haccepts => dispatch_of_acceptsOmitting hs hfirst hloaded haccepts⟩

end OverloadSet

/-- **Defaults pass the checks of their binding.**  In every run, a call of a binding with the
types of the first member takes the branch of this member, whichever of the arguments with a
default it leaves out. -/
theorem run_admitsDefaults {session session' : Session} {stage : Schema.Stage}
    {descriptions : Schema.Descriptions} {m : BindingModule}
    (hrun : session.run stage descriptions = (.ok m, session')) {b : Binding}
    (hb : b ∈ m.bindings) :
    ∃ ps, (session.loadStage stage descriptions).1 = .ok ps ∧ ∃ entry ∈ (group ps).value,
      ∃ first rest, entry.2.prototypes = first :: rest ∧ b.baseName = entry.1 ∧
        b.AdmitsDefaults m first := by
  obtain ⟨ps, s₁, hload, rfl, -⟩ := Session.exists_loadStage_of_run hrun
  have hnonempty : ∀ s ∈ (group ps).value.values, s.members ≠ [] :=
    fun s hs => (uniform_of_mem_values hs).1.nonempty
  obtain ⟨s, hs, rfl⟩ := Session.exists_made_of_mem hnonempty hb
  obtain ⟨entry, hentry, rfl⟩ := List.mem_map.1 hs
  have hgrouped := wellGrouped_of_mem_group hentry
  obtain ⟨p, hp⟩ := hgrouped.toUniform.exists_prototype
  obtain ⟨first, rest, hfirst⟩ := List.exists_cons_of_ne_nil (List.ne_nil_of_mem hp)
  have hloaded : first.IsLoaded :=
    Session.isLoaded_loadStage hload first (hgrouped.subset first (by simp [hfirst]))
  exact ⟨ps, by rw [hload], entry, hentry, first, rest, hfirst, hgrouped.key_eq,
    OverloadSet.admitsDefaults_binding hgrouped.toUniform hfirst hloaded⟩

/-! ## A run with two defaulted arguments -/

namespace Binding

variable {b : Binding} {m : BindingModule} {index : Nat} {e e' : Expr}

lemma HasDefault.unique (h : b.HasDefault m index e) (h' : b.HasDefault m index e') : e = e' := by
  obtain ⟨p, hp, he⟩ := h
  obtain ⟨p', hp', he'⟩ := h'
  obtain rfl := Option.some.inj (hp.symm.trans hp')
  exact Option.some.inj (Except.ok.inj (he.symm.trans he'))

/-- The cases of the defaults that are values of the graph. -/
def defaultCases (b : Binding) (m : BindingModule) : List (Option String) :=
  b.params.map fun p => (defaultOf m p).toOption.join.bind Expr.valueCase?

lemma exists_of_defaultCases {case : String}
    (h : (b.defaultCases m)[index]? = some (some case)) :
    ∃ e, b.HasDefault m index e ∧ e.valueCase? = some case := by
  rw [defaultCases, List.getElem?_map, Option.map_eq_some_iff] at h
  obtain ⟨p, hp, hcase⟩ := h
  obtain ⟨e, he, hcase⟩ := Option.bind_eq_some_iff.1 hcase
  exact ⟨e, ⟨p, hp, toOption_eq_some_iff.1 (Option.join_eq_some_iff.1 he)⟩, hcase⟩

end Binding

/-- A prim with two inputs that have defaults. -/
def dimPrim (suffix inputType : String) : Schema.Prim :=
  { path := "/ND_dim" ++ suffix
    metadata := []
    properties :=
      [{ plainProperty "inputs:amount" inputType with default? := some (.number (.real 0.5)) },
        { plainProperty "inputs:gain" "float" with default? := some (.number (.integer 1)) },
        plainProperty "outputs:out" "float"] }

/-- Two nodes that the first input tells apart. -/
def dimStage : Schema.Stage := ⟨[dimPrim "_half" "half", dimPrim "_float" "float"]⟩

/-- A call without arguments takes the branch of the first node. -/
theorem run_admitsDefaults_dim :
    ∃ m s b branch, (Session.new false).run dimStage [] = (.ok m, s) ∧ m.bindings = [b] ∧
      b.defaultCases m = [some "half", some "float"] ∧ branch.nodeId = "ND_dim_half" ∧
      b.dispatch (fun index => if index = 0 then "half" else "float") = .taken branch := by
  have hvalue : ((Session.new false).run dimStage []).1.toOption.map (fun m =>
      m.bindings.map fun b => (b.defaultCases m, b.branches.map fun branch =>
        (branch.nodeId, branch.inputs.length)))
      = some [([some "half", some "float"], [("ND_dim_half", 2), ("ND_dim_float", 2)])] := by
    decide +kernel
  obtain ⟨m, hm, hbindings⟩ := Option.map_eq_some_iff.1 hvalue
  obtain ⟨b, hb, heq⟩ := List.map_eq_singleton_iff.1 hbindings
  obtain ⟨hcases, hbranches⟩ := Prod.mk.inj heq
  have hrun : (Session.new false).run dimStage []
      = (.ok m, ((Session.new false).run dimStage []).2) :=
    Prod.ext (toOption_eq_some_iff.1 hm) rfl
  obtain ⟨ps, -, entry, -, first, rest, -, -, hadmits⟩ :=
    run_admitsDefaults hrun (by simp [hb] : b ∈ m.bindings)
  obtain ⟨branch, hbranch, hnode, hwires, htaken⟩ := hadmits.taken
  obtain ⟨others, hothers⟩ := List.head?_eq_some_iff.1 hbranch
  rw [hothers, List.map_cons] at hbranches
  obtain ⟨hid, hlength⟩ := Prod.mk.inj (List.cons.inj hbranches).1
  have hdefault : ∀ index < 2, ∃ e, b.HasDefault m index e ∧
      e.valueCase? = some (if index = 0 then "half" else "float") := by
    intro index hindex
    refine Binding.exists_of_defaultCases ?_
    rw [hcases]
    have hsplit : index = 0 ∨ index = 1 := by omega
    rcases hsplit with rfl | rfl <;> rfl
  refine ⟨m, _, b, branch, hrun, hb, hcases, hid, htaken (fun index => index < 2) _ ?_⟩
  constructor
  · intro index x hx hgiven
    have hindex : index < first.inputs.length := (List.getElem?_eq_some_iff.1 hx).1
    rw [← hwires.1, hlength] at hindex
    exact absurd hindex hgiven
  · intro index homitted
    obtain ⟨e, he, -⟩ := hdefault index homitted
    exact ⟨e, he⟩
  · intro index e case homitted he hcase
    obtain ⟨e', he', hcase'⟩ := hdefault index homitted
    obtain rfl := he.unique he'
    exact Option.some.inj (hcase'.symm.trans hcase)

end ShaderBindings
