/-
# Well-formed bindings

A binding refers to its parameters by index: in its guards, in the conditions and inputs of its
branches, and in the report of its failure.  The binding of an overload set only refers to
parameters that it has, and it checks only those whose arguments are values of the graph.  The
enumerations that its types mention are those of the members' sockets, so they are registered
when the members are.

The generated files of a module of such bindings always exist (`exists_units`).
-/
import ShaderBindings.Proofs.Admission
import ShaderBindings.Proofs.Dispatch
import ShaderBindings.Proofs.Fault
import ShaderBindings.Swift.Units

namespace ShaderBindings

/-- All indices in a binding are those of its parameters. -/
structure Binding.InRange (b : Binding) : Prop where
  guards : ∀ g ∈ b.guards, g.param < b.params.length
  conditions : ∀ branch ∈ b.branches, ∀ c ∈ branch.conditions, c.param < b.params.length
  inputs : ∀ branch ∈ b.branches, ∀ input ∈ branch.inputs, input.param < b.params.length
  reported : ∀ reported ∈ b.fallback?, ∀ index ∈ reported, index < b.params.length

/-- The binding checks the argument of the parameter or reports its type. -/
def Binding.Looks (b : Binding) (index : Nat) : Prop :=
  (∃ g ∈ b.guards, g.param = index) ∨
    (∃ branch ∈ b.branches, ∃ c ∈ branch.conditions, c.param = index) ∨
      ∃ reported ∈ b.fallback?, index ∈ reported

/-- The way of an argument whose parameter has the type. -/
def ParamType.wiring : ParamType → Wiring
  | .primitive dataType => .constant dataType
  | .enumerated _ => .enumConstant
  | .generic | .category _ => .connection

/-- The enumeration that a type mentions. -/
def ParamType.enumId? : ParamType → Option Nat
  | .enumerated id | .category (.enumerated id) => some id
  | _ => none

/-- The members report several runtime types at a position, and the argument of the binding there
is a value of the graph. -/
def Binding.Discriminates (b : Binding) (s : OverloadSet) (index : Nat) : Prop :=
  ¬ s.SharesType index ∧ ∃ p, b.params[index]? = some p ∧ p.wiring = .connection

/-- What the back end expects of the binding of a set in a module. -/
structure Binding.WellFormed (b : Binding) (s : OverloadSet) (m : BindingModule) : Prop
    extends b.InRange where
  /-- Only arguments that are values of the graph are looked at. -/
  connected : ∀ index, b.Looks index → ∃ p, b.params[index]? = some p ∧ p.wiring = .connection
  /-- The way of an argument fits the type of its parameter. -/
  wired : ∀ p ∈ b.params, p.wiring = p.type.wiring
  /-- The conditions of a branch are on the discriminating positions, in increasing order. -/
  checked : ∃ positions : List Nat, positions.Pairwise (· < ·) ∧
    (∀ index, index ∈ positions ↔ b.Discriminates s index) ∧
      ∀ branch ∈ b.branches, branch.conditions.map (·.param) = positions
  /-- The module has the enumerations of the types. -/
  registered : ∀ type ∈ b.returnType :: b.params.map (·.type), ∀ id ∈ type.enumId?,
    (m.enum? id).isSome

namespace OverloadSet

variable {s : OverloadSet} {a : Analysis} {c : Category} {enums : EnumRegistry}

lemma length_params_binding : (s.binding (s.analysis c) enums).params.length = s.arity := by
  simp [analysis]

/-- The branches of the binding of a set are branches of its members. -/
lemma exists_member_of_mem_branches {b : Branch} (hb : b ∈ (s.binding a enums).branches) :
    ∃ p ∈ s.prototypes, b = branch a.discriminating p := by
  rw [branches_binding] at hb
  obtain ⟨p, hp, rfl⟩ := List.mem_map.1 hb
  exact ⟨p, mem_of_mem_leaders hp, rfl⟩

lemma mem_conditions_iff {positions : List Nat} {p : Prototype} {check : TypeCheck} :
    check ∈ conditions positions p
      ↔ ∃ index ∈ positions, check = ⟨index, runtimeTypeAt p index⟩ := by
  simp [conditions, eq_comm]

lemma param_lt_of_mem_inputs {positions : List Nat} {p : Prototype} {input : NodeInput}
    (h : input ∈ (branch positions p).inputs) : input.param < p.inputs.length := by
  obtain ⟨⟨x, index⟩, hx, rfl⟩ := List.mem_map.1 h
  exact (List.getElem?_eq_some_iff.1 (List.mem_zipIdx_iff_getElem?.1 hx)).1

lemma mem_fallback_binding {reported : List Nat}
    (h : reported ∈ (s.binding a enums).fallback?) : reported = a.discriminating := by
  have h := Option.mem_def.1 h
  rw [fallback?_binding] at h
  split_ifs at h
  exact (Option.some.inj h).symm

lemma inRange_binding (hs : s.Uniform) : (s.binding (s.analysis c) enums).InRange where
  guards := by
    intro g hg
    obtain ⟨index, hindex, -, rfl⟩ := mem_guards_iff.1 hg
    rw [length_params_binding]
    exact hindex
  conditions := by
    intro b hb check hcheck
    obtain ⟨p, -, rfl⟩ := exists_member_of_mem_branches hb
    obtain ⟨index, hindex, rfl⟩ := mem_conditions_iff.1 hcheck
    rw [length_params_binding]
    exact (mem_discriminating_iff.1 hindex).1
  inputs := by
    intro b hb input hinput
    obtain ⟨p, hp, rfl⟩ := exists_member_of_mem_branches hb
    rw [length_params_binding, hs.lt_arity_iff hp]
    exact param_lt_of_mem_inputs hinput
  reported := by
    intro reported hreported index hindex
    rw [mem_fallback_binding hreported] at hindex
    rw [length_params_binding]
    exact (mem_discriminating_iff.1 hindex).1

/-! ## Parameters -/

variable {index : Nat} {m : BindingModule}

lemma mem_params_binding_iff {p : Param} :
    p ∈ (s.binding (s.analysis c) enums).params
      ↔ ∃ index < s.arity, parameter (s.analysis c) enums (s.position index) = p := by
  simp only [params_binding, analysis, List.map_map, List.mem_map, List.mem_range,
    Function.comp_apply]

lemma getElem?_params_binding (hindex : index < s.arity) :
    (s.binding (s.analysis c) enums).params[index]?
      = some (parameter (s.analysis c) enums (s.position index)) := by
  simp [analysis, hindex]

lemma wiring_parameterType (p : Position) :
    (parameterType a p).2 = (parameterType a p).1.wiring := by
  rw [parameterType]
  split
  · rfl
  · rfl
  · split_ifs
    · rfl
    · split <;> rfl

/-- An argument is a value of the graph when its position does not become a constant. -/
lemma wiring_parameter_iff :
    (parameter (s.analysis c) enums (s.position index)).wiring = .connection
      ↔ collapseOf? (s.socketsAt index) = none := by
  have hcollapse : (s.position index).collapse? = collapseOf? (s.socketsAt index) := rfl
  rw [wiring_parameter, parameterType, hcollapse]
  rcases collapseOf? (s.socketsAt index) with _ | _ | _
  · simp only [iff_true]
    split_ifs
    · rfl
    · split <;> rfl
  · simp
  · simp

/-- A category that is an enumeration is that of a member. -/
lemma mem_categories_of_parameterType {p : Position} {id : Nat}
    (h : (parameterType a p).1 = .category (.enumerated id)) : .enumerated id ∈ p.categories := by
  rw [parameterType] at h
  split at h
  · exact absurd h (by simp)
  · exact absurd h (by simp)
  · split_ifs at h
    split at h
    · rename_i shared hshared
      obtain rfl := ParamType.category.inj h
      rw [Position.shared?] at hshared
      split_ifs at hshared
      exact List.mem_of_mem_head? hshared
    · have hjoin : (Category.join? p.categories).getD .value = .enumerated id :=
        ParamType.category.inj h
      rcases hfound : Category.join? p.categories with _ | found
      · simp [hfound] at hjoin
      · obtain rfl : found = .enumerated id := by simpa [hfound] using hjoin
        exact Category.mem_of_join?_eq_enumerated hfound

lemma collapse?_of_parameterType {p : Position} {id : Nat}
    (h : (parameterType a p).1 = .enumerated id) : p.collapse? = some (.enumerated id) := by
  rw [parameterType] at h
  split at h
  · exact absurd h (by simp)
  · rename_i id' heq
    rw [heq, ParamType.enumerated.inj h]
  · split_ifs at h
    split at h
    · exact absurd h (by simp)
    · exact absurd h (by simp)

lemma enumId?_eq_some_iff {type : ParamType} {id : Nat} :
    type.enumId? = some id ↔ type = .enumerated id ∨ type = .category (.enumerated id) := by
  rcases type with _ | id' | _ | (_ | _ | _ | _ | _ | _ | _ | _ | _ | id' | _) <;>
    simp [ParamType.enumId?]

/-- The enumeration of a parameter is that of a socket at its position. -/
lemma exists_socket_of_enumId? {id : Nat}
    (h : (parameter (s.analysis c) enums (s.position index)).type.enumId? = some id) :
    ∃ x ∈ s.socketsAt index, x.category = .enumerated id := by
  rcases enumId?_eq_some_iff.1 h with h | h
  · obtain ⟨hne, hall⟩ := collapseOf?_eq_enumerated_iff.1 (collapse?_of_parameterType h)
    obtain ⟨x, rest, hcons⟩ := List.exists_cons_of_ne_nil hne
    have hx : x ∈ s.socketsAt index := by simp [hcons]
    exact ⟨x, hx, hall x hx⟩
  · exact List.mem_map.1 (mem_categories_of_parameterType h)

/-- The enumeration of a result is that of an output. -/
lemma exists_output_of_enumId? {id : Nat} (hc : Category.join? s.outputCategories = some c)
    (h : (s.binding (s.analysis c) enums).returnType.enumId? = some id) :
    ∃ p ∈ s.prototypes, p.output.category = .enumerated id := by
  have hreturn : (s.binding (s.analysis c) enums).returnType
      = if (s.analysis c).generic?.isSome then .generic else .category c := rfl
  rw [hreturn] at h
  split_ifs at h
  · exact absurd h (by simp [ParamType.enumId?])
  · rcases enumId?_eq_some_iff.1 h with h | h
    · exact absurd h (by simp)
    · obtain rfl := ParamType.category.inj h
      exact List.mem_map.1 (Category.mem_of_join?_eq_enumerated hc)

/-! ## The binding of a set -/

/-- The positions that a binding looks at do not become constants. -/
lemma collapse_of_looks (h : (s.binding (s.analysis c) enums).Looks index) :
    index < s.arity ∧ collapseOf? (s.socketsAt index) = none := by
  have hdiscriminating : ∀ i ∈ (s.analysis c).discriminating,
      i < s.arity ∧ collapseOf? (s.socketsAt i) = none := by
    intro i hi
    obtain ⟨hlt, -, hcollapsed⟩ := mem_discriminating_iff.1 hi
    rw [collapsed_analysis_iff, not_and] at hcollapsed
    exact ⟨hlt, Option.not_isSome_iff_eq_none.1 (hcollapsed hlt)⟩
  rcases h with ⟨g, hg, rfl⟩ | ⟨b, hb, check, hcheck, rfl⟩ | ⟨reported, hreported, hmem⟩
  -- a guard
  · obtain ⟨i, hi, hguard, rfl⟩ := mem_guards_iff.1 hg
    exact ⟨hi, collapse?_of_isGuarded hguard⟩
  -- a condition of a branch
  · obtain ⟨p, -, rfl⟩ := exists_member_of_mem_branches hb
    obtain ⟨i, hi, rfl⟩ := mem_conditions_iff.1 hcheck
    exact hdiscriminating i hi
  -- the report of the failure
  · rw [mem_fallback_binding hreported] at hmem
    exact hdiscriminating index hmem

/-- The discriminating positions of a set are those of its binding. -/
lemma mem_discriminating_iff_discriminates :
    index ∈ (s.analysis c).discriminating
      ↔ (s.binding (s.analysis c) enums).Discriminates s index := by
  rw [mem_discriminating_iff, collapsed_analysis_iff, Binding.Discriminates]
  constructor
  · rintro ⟨hindex, hshared, hcollapsed⟩
    refine ⟨hshared, _, getElem?_params_binding hindex, wiring_parameter_iff.2 ?_⟩
    exact Option.not_isSome_iff_eq_none.1 fun hsome => hcollapsed ⟨hindex, hsome⟩
  · rintro ⟨hshared, p, hp, hwiring⟩
    have hindex : index < s.arity := by
      have hlength : (s.binding (s.analysis c) enums).params.length = s.arity :=
        length_params_binding
      rw [← hlength]
      exact (List.getElem?_eq_some_iff.1 hp).1
    obtain rfl := Option.some.inj ((getElem?_params_binding hindex).symm.trans hp)
    refine ⟨hindex, hshared, fun hsome => ?_⟩
    rw [wiring_parameter_iff.1 hwiring] at hsome
    exact absurd hsome.2 (by simp)

lemma isSome_enum?_iff {id : Nat} : (m.enum? id).isSome ↔ ∃ e ∈ m.enums, e.id = id := by
  simp [BindingModule.enum?, List.find?_isSome]

/-- The binding of a uniform set is well formed in a module that has the enumerations of the
members. -/
lemma wellFormed_binding (hs : s.Uniform) (hc : Category.join? s.outputCategories = some c)
    {r : EnumRegistry} (henums : m.enums = r.identities) (hm : ∀ p ∈ s.prototypes, p.Registered r) :
    (s.binding (s.analysis c) enums).WellFormed s m where
  toInRange := inRange_binding hs
  connected := by
    intro index hlooks
    obtain ⟨hindex, hcollapse⟩ := collapse_of_looks hlooks
    exact ⟨_, getElem?_params_binding hindex, wiring_parameter_iff.2 hcollapse⟩
  wired := by
    intro p hp
    obtain ⟨index, -, rfl⟩ := mem_params_binding_iff.1 hp
    exact wiring_parameterType _
  checked := by
    refine ⟨(s.analysis c).discriminating, discriminating_increasing,
      fun index => mem_discriminating_iff_discriminates, fun b hb => ?_⟩
    obtain ⟨p, -, rfl⟩ := exists_member_of_mem_branches hb
    simp [branch, conditions, Function.comp_def]
  registered := by
    intro type htype id hid
    rw [isSome_enum?_iff, henums]
    rcases List.mem_cons.1 htype with rfl | htype
    -- the result
    · obtain ⟨p, hp, hcategory⟩ := exists_output_of_enumId? hc hid
      exact (hm p hp).output id hcategory
    -- a parameter
    · obtain ⟨q, hq, rfl⟩ := List.mem_map.1 htype
      obtain ⟨index, -, rfl⟩ := mem_params_binding_iff.1 hq
      obtain ⟨x, hx, hcategory⟩ := exists_socket_of_enumId? hid
      obtain ⟨p, hp, hx⟩ := mem_socketsAt_iff.1 hx
      exact (hm p hp).inputs x (List.mem_of_getElem? hx) id hcategory

end OverloadSet

/-! ## The back end -/

section BackEnd

open Swift Fault

variable {b : Binding} {m : BindingModule}

lemma exists_enumOf {id : Nat} (h : (m.enum? id).isSome) : ∃ e, enumOf m id = .ok e := by
  obtain ⟨e, he⟩ := Option.isSome_iff_exists.1 h
  exact ⟨e, by rw [enumOf, he]⟩

lemma exists_typeOf {type : ParamType} (h : ∀ id ∈ type.enumId?, (m.enum? id).isSome) :
    ∃ t, typeOf m type = .ok t := by
  rcases type with dataType | id | _ | c
  · exact ⟨_, rfl⟩
  · obtain ⟨e, he⟩ := exists_enumOf (h id rfl)
    exact ⟨_, map_eq_ok_iff.2 ⟨e, he, rfl⟩⟩
  · exact ⟨_, rfl⟩
  · exact ⟨_, rfl⟩

lemma exists_defaultOf {p : Param} (h : ∀ id ∈ p.type.enumId?, (m.enum? id).isSome) :
    ∃ d, defaultOf m p = .ok d := by
  rw [defaultOf]
  split
  · exact ⟨_, rfl⟩
  · split
    · rename_i htype _
      obtain ⟨e, he⟩ := exists_enumOf (h _ (by rw [htype]; rfl))
      exact ⟨_, map_eq_ok_iff.2 ⟨e, he, rfl⟩⟩
    · exact ⟨_, rfl⟩
    · exact ⟨_, rfl⟩
    · exact ⟨_, rfl⟩

lemma exists_branchStmts (result : TypeExpr) {branches : List Branch}
    (h : ∀ branch ∈ branches, ∀ input ∈ branch.inputs, input.param < b.params.length) :
    ∃ stmts, branchStmts b result branches = .ok stmts := by
  induction branches with
  | nil => exact ⟨[], rfl⟩
  | cons branch rest ih =>
    have hitems : ∀ input ∈ branch.inputs, ∃ item, inputExpr b branch.nodeId input = .ok item := by
      intro input hinput
      have hlt := h branch List.mem_cons_self input hinput
      exact ⟨_, by rw [inputExpr, List.getElem?_eq_getElem hlt]⟩
    obtain ⟨items, hitems⟩ := exists_mapM_eq_ok hitems
    obtain ⟨following, hfollowing⟩ := ih fun br hbr => h br (List.mem_cons_of_mem _ hbr)
    have hbody : branchBody b result branch = .ok _ := bind_eq_ok_iff.2 ⟨items, hitems, rfl⟩
    rw [branchStmts]
    rcases hconditions : branch.conditions with _ | ⟨first, others⟩
    · exact ⟨_, bind_eq_ok_iff.2 ⟨_, hbody, rfl⟩⟩
    · exact ⟨_, bind_eq_ok_iff.2 ⟨_, hbody, bind_eq_ok_iff.2 ⟨following, hfollowing, rfl⟩⟩⟩

lemma Binding.WellFormed.exists_functionOf {s : OverloadSet} (h : b.WellFormed s m) :
    ∃ f, functionOf m b = .ok f := by
  have hparameters : ∀ p ∈ b.params, ∃ q, parameterOf m p = .ok q := by
    intro p hp
    have hids := h.registered p.type (List.mem_cons_of_mem _ (List.mem_map_of_mem hp))
    obtain ⟨type, htype⟩ := exists_typeOf hids
    obtain ⟨default, hdefault⟩ := exists_defaultOf hids
    exact ⟨_, bind_eq_ok_iff.2 ⟨type, htype, bind_eq_ok_iff.2 ⟨default, hdefault, rfl⟩⟩⟩
  obtain ⟨parameters, hparameters⟩ := exists_mapM_eq_ok hparameters
  obtain ⟨result, hresult⟩ := exists_typeOf (h.registered b.returnType List.mem_cons_self)
  obtain ⟨branches, hbranches⟩ := exists_branchStmts result h.inputs
  have hbody : bodyOf b result = .ok _ := bind_eq_ok_iff.2 ⟨branches, hbranches, rfl⟩
  exact ⟨_, bind_eq_ok_iff.2 ⟨parameters, hparameters, bind_eq_ok_iff.2 ⟨result, hresult,
    bind_eq_ok_iff.2 ⟨_, hbody, rfl⟩⟩⟩⟩

/-- The generated files of a module of well-formed bindings exist. -/
lemma exists_units (h : ∀ b ∈ m.bindings, ∃ s, b.WellFormed s m) :
    ∃ units, Units.ofModule m = .ok units := by
  have hfunctions : ∀ bindings ⊆ m.bindings, ∃ fs, bindings.mapM (functionOf m) = .ok fs := by
    intro bindings hsubset
    refine exists_mapM_eq_ok fun b hb => ?_
    obtain ⟨s, hs⟩ := h b (hsubset hb)
    exact hs.exists_functionOf
  obtain ⟨functions, hfunctions'⟩ := hfunctions m.operations List.filter_sublist.subset
  obtain ⟨members, hmembers⟩ := hfunctions m.sources List.filter_sublist.subset
  exact ⟨_, bind_eq_ok_iff.2 ⟨functions, hfunctions', bind_eq_ok_iff.2 ⟨members, hmembers, rfl⟩⟩⟩

end BackEnd

end ShaderBindings
