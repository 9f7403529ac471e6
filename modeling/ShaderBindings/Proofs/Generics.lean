/-
# Type parameters

The result of a binding has the type of some of its parameters when the members return different
categories, and an input of each member has the category of its output at one and the same
position.  The positions are found before any parameter has a type, and three later stages rely on
them: the type of a parameter, its default and the type of the result.

All three ask whether a position is in one list, so the agreement of the stages comes down to the
meaning of that list (`mem_genericPositions_iff`).  It pairs the inputs at a position with the
outputs, and the pairs are those of the members because every member has an input there.
-/
import ShaderBindings.Proofs.Joins
import ShaderBindings.Proofs.WellFormed

namespace ShaderBindings

/-- Two members have outputs of different categories. -/
def OverloadSet.OutputsDiffer (s : OverloadSet) : Prop :=
  ∃ p ∈ s.prototypes, ∃ q ∈ s.prototypes, p.output.category ≠ q.output.category

/-- An input position that has the category of the output in every member and does not become a
constant. -/
structure OverloadSet.IsLinked (s : OverloadSet) (a : Analysis) (index : Nat) : Prop where
  lt_arity : index < s.arity
  not_collapsed : ¬ a.Collapsed index
  follows : ∀ p ∈ s.prototypes, ∀ x, p.inputs[index]? = some x →
    x.category = p.output.category

/-- The parameter of a position has the type parameter as its type. -/
def Binding.IsGenericAt (b : Binding) (index : Nat) : Prop :=
  ∃ p, b.params[index]? = some p ∧ p.type = .generic

/-- The type parameter of a binding is that of a set with an analysis. -/
structure Binding.InfersGenerics (b : Binding) (s : OverloadSet) (a : Analysis) : Prop where
  /-- There is a type parameter when the outputs differ and a position is linked to them. -/
  generic_iff : b.generic?.isSome ↔ s.OutputsDiffer ∧ ∃ index, s.IsLinked a index
  /-- The parameters of its type are those of the linked positions. -/
  isGenericAt_iff : ∀ index, b.IsGenericAt index ↔ b.generic?.isSome ∧ s.IsLinked a index
  /-- The result is of its type. -/
  returnType_iff : b.returnType = .generic ↔ b.generic?.isSome
  /-- The type of a generic result is that of a parameter. -/
  occurs : b.returnType = .generic → ∃ index, b.IsGenericAt index
  /-- The generic inputs of a member have the category of its output. -/
  one_category : ∀ p ∈ s.prototypes, ∀ index x, b.IsGenericAt index →
    p.inputs[index]? = some x → x.category = p.output.category
  /-- A generic position is no enumeration in any member. -/
  not_enumerated : ∀ index, b.IsGenericAt index →
    ∀ x ∈ s.socketsAt index, ∀ id, x.category ≠ .enumerated id
  /-- A generic position does not become a constant. -/
  not_collapsed : ∀ index, b.IsGenericAt index → ¬ a.Collapsed index
  /-- A generic position has no default, and its parameter has none. -/
  no_default : ∀ index, b.IsGenericAt index →
    (∀ p, a.positions[index]? = some p → p.default? = none) ∧
      ∀ p, b.params[index]? = some p → p.default? = none
  /-- The bound is the join of the categories of the outputs, which is the least category above
  all of them. -/
  bound : ∀ g ∈ b.generic?, Category.join? s.outputCategories = some g.bound ∧
    IsLUB {c | ∃ p ∈ s.prototypes, p.output.category = c} g.bound

namespace OverloadSet

variable {s : OverloadSet} {c : Category} {enums : EnumRegistry} {index : Nat}

/-! ## The positions of the type parameter -/

lemma allEqual_outputCategories_iff : allEqual s.outputCategories = false ↔ s.OutputsDiffer := by
  rw [← Bool.not_eq_true, outputCategories, allEqual_map_iff, OutputsDiffer]
  push Not
  rfl

/-- The inputs of the members, each with what belongs to its member. -/
lemma zip_filterMap {α β γ : Type} {f : α → Option β} {g : α → γ} {l : List α}
    (h : ∀ a ∈ l, ∃ b, f a = some b) :
    (l.filterMap f).zip (l.map g) = l.filterMap fun a => (f a).map (·, g a) := by
  induction l with
  | nil => rfl
  | cons a rest ih =>
    rw [List.forall_mem_cons] at h
    obtain ⟨b, hb⟩ := h.1
    rw [List.filterMap_cons_some hb, List.map_cons, List.zip_cons_cons, ih h.2,
      List.filterMap_cons, hb, Option.map_some]

/-- The sockets of a position stand beside the outputs of their members. -/
lemma mem_zip_socketsAt_iff (hs : s.Uniform) (hindex : index < s.arity) {x : Socket} :
    (x, c) ∈ (s.socketsAt index).zip s.outputCategories
      ↔ ∃ p ∈ s.prototypes, p.inputs[index]? = some x ∧ p.output.category = c := by
  rw [socketsAt, outputCategories, zip_filterMap fun p hp => hs.exists_socket hindex hp]
  simp [List.mem_filterMap]

lemma mem_genericPositions_iff (hs : s.Uniform) :
    index ∈ s.genericPositions ↔ s.OutputsDiffer ∧ s.IsLinked (s.analysis c) index := by
  rw [genericPositions]
  rcases hdiffer : allEqual s.outputCategories with _ | _
  · rw [if_neg Bool.false_ne_true, List.mem_filter, List.mem_range, Bool.and_eq_true,
      List.all_eq_true, Option.isNone_iff_eq_none]
    constructor
    · rintro ⟨hindex, hfollows, hcollapse⟩
      refine ⟨allEqual_outputCategories_iff.1 hdiffer, hindex, ?_, fun p hp x hx => ?_⟩
      · rw [collapsed_analysis_iff, hcollapse]
        simp
      · exact of_decide_eq_true
          (hfollows _ ((mem_zip_socketsAt_iff hs hindex).2 ⟨p, hp, hx, rfl⟩))
    · rintro ⟨-, hindex, hcollapsed, hfollows⟩
      refine ⟨hindex, ?_, ?_⟩
      · rintro ⟨x, d⟩ hpair
        obtain ⟨p, hp, hx, rfl⟩ := (mem_zip_socketsAt_iff hs hindex).1 hpair
        exact decide_eq_true (hfollows p hp x hx)
      · exact collapseOf?_of_not_collapsed hindex hcollapsed
  -- the outputs have one category
  · rw [if_pos rfl]
    refine iff_of_false List.not_mem_nil fun h => ?_
    rw [allEqual_outputCategories_iff.2 h.1] at hdiffer
    exact Bool.false_ne_true hdiffer

/-! ## The binding -/

lemma isGeneric_analysis_iff :
    (s.analysis c).isGeneric index = true ↔ index ∈ s.genericPositions := by
  rw [Analysis.isGeneric, analysis]
  rcases h : s.genericPositions with _ | ⟨first, rest⟩
  · simp
  · simp

lemma parameterType_eq_generic_iff {a : Analysis} {p : Position} :
    (parameterType a p).1 = .generic ↔ p.collapse? = none ∧ a.isGeneric p.index = true := by
  rw [parameterType]
  split
  · rename_i hcollapse
    simp [hcollapse]
  · rename_i hcollapse
    simp [hcollapse]
  · rename_i hcollapse
    split_ifs with hgeneric
    · exact iff_of_true rfl ⟨hcollapse, hgeneric⟩
    · refine iff_of_false ?_ fun h => hgeneric h.2
      split <;> simp

lemma isGenericAt_binding_iff (hs : s.Uniform) :
    (s.binding (s.analysis c) enums).IsGenericAt index ↔ index ∈ s.genericPositions := by
  constructor
  · rintro ⟨p, hp, hgeneric⟩
    have hindex : index < s.arity := by
      have hlength := (List.getElem?_eq_some_iff.1 hp).1
      rwa [length_params_binding] at hlength
    obtain rfl := Option.some.inj ((getElem?_params_binding hindex).symm.trans hp)
    exact isGeneric_analysis_iff.1 (parameterType_eq_generic_iff.1 hgeneric).2
  · intro h
    have hlinked := ((mem_genericPositions_iff (c := c) hs).1 h).2
    exact ⟨_, getElem?_params_binding hlinked.lt_arity, parameterType_eq_generic_iff.2
      ⟨collapseOf?_of_not_collapsed hlinked.lt_arity hlinked.not_collapsed,
        isGeneric_analysis_iff.2 h⟩⟩

lemma isSome_generic?_binding_iff :
    (s.binding (s.analysis c) enums).generic?.isSome ↔ ∃ index, index ∈ s.genericPositions := by
  rw [generic?_binding, analysis]
  dsimp only
  split_ifs with hempty
  · simp [List.isEmpty_iff.1 hempty]
  · simpa [List.isEmpty_iff, List.eq_nil_iff_forall_not_mem] using hempty

lemma returnType_binding_iff {a : Analysis} : (s.binding a enums).returnType = .generic
    ↔ (s.binding a enums).generic?.isSome := by
  rw [returnType_binding, generic?_binding, Option.isSome_map]
  split_ifs with hgeneric
  · exact iff_of_true rfl hgeneric
  · exact iff_of_false (by simp) hgeneric

lemma default?_position_of_mem (h : index ∈ s.genericPositions) :
    (s.position index).default? = none := by
  rw [position]
  dsimp only
  rw [if_pos (List.contains_iff_mem.2 h)]

/-- The parameter of a position without a default has none either. -/
lemma parameterDefault?_none (type : ParamType) : parameterDefault? enums type none = none := by
  rw [parameterDefault?.eq_def]
  split
  · rename_i hnone
    exact absurd hnone (by simp)
  · rfl

lemma bound_of_mem_generic? {g : GenericParam}
    (hg : g ∈ (s.binding (s.analysis c) enums).generic?) : g.bound = c := by
  obtain ⟨info, hinfo, rfl⟩ := Option.map_eq_some_iff.1 (Option.mem_def.1 hg)
  rw [analysis] at hinfo
  dsimp only at hinfo
  split_ifs at hinfo
  rw [← Option.some.inj hinfo]

lemma isLinked_of_isGenericAt (hs : s.Uniform)
    (h : (s.binding (s.analysis c) enums).IsGenericAt index) :
    s.IsLinked (s.analysis c) index :=
  ((mem_genericPositions_iff hs).1 ((isGenericAt_binding_iff hs).1 h)).2

/-- One enumeration makes a position a constant, so a linked one has none. -/
lemma IsLinked.category_ne_enumerated (h : s.IsLinked (s.analysis c) index)
    (hroles : ∀ index < s.arity, s.hasMixedRoles index = false) {x : Socket}
    (hx : x ∈ s.socketsAt index) (id : Nat) : x.category ≠ .enumerated id := by
  intro hid
  have hcollapse := collapseOf?_of_mem (hroles index h.lt_arity) hx hid
  refine h.not_collapsed (collapsed_analysis_iff.2 ⟨h.lt_arity, ?_⟩)
  rw [hcollapse]
  rfl

lemma isLUB_outputs (hc : Category.join? s.outputCategories = some c) :
    IsLUB {d | ∃ p ∈ s.prototypes, p.output.category = d} c := by
  have hset : {d | ∃ p ∈ s.prototypes, p.output.category = d} = {d | d ∈ s.outputCategories} :=
    Set.ext fun d => List.mem_map.symm
  rw [hset]
  exact Category.isLUB_of_join? hc

lemma isSome_generic?_iff_linked (hs : s.Uniform) :
    (s.binding (s.analysis c) enums).generic?.isSome
      ↔ s.OutputsDiffer ∧ ∃ index, s.IsLinked (s.analysis c) index := by
  simp only [isSome_generic?_binding_iff, mem_genericPositions_iff (c := c) hs, exists_and_left]

/-- The binding of a uniform set without mixed enumerations infers its type parameter. -/
lemma infersGenerics_binding (hs : s.Uniform) (hc : Category.join? s.outputCategories = some c)
    (hroles : ∀ index < s.arity, s.hasMixedRoles index = false) :
    (s.binding (s.analysis c) enums).InfersGenerics s (s.analysis c) where
  generic_iff := isSome_generic?_iff_linked hs
  isGenericAt_iff := by
    intro index
    rw [isGenericAt_binding_iff hs, mem_genericPositions_iff (c := c) hs,
      isSome_generic?_iff_linked hs]
    exact ⟨fun h => ⟨⟨h.1, index, h.2⟩, h.2⟩, fun h => ⟨h.1.1, h.2⟩⟩
  returnType_iff := returnType_binding_iff
  occurs := by
    intro h
    obtain ⟨index, hindex⟩ := isSome_generic?_binding_iff.1 (returnType_binding_iff.1 h)
    exact ⟨index, (isGenericAt_binding_iff hs).2 hindex⟩
  one_category := fun p hp index x h hx => (isLinked_of_isGenericAt hs h).follows p hp x hx
  not_enumerated := fun index h x hx id =>
    (isLinked_of_isGenericAt hs h).category_ne_enumerated hroles hx id
  not_collapsed := fun index h => (isLinked_of_isGenericAt hs h).not_collapsed
  no_default := by
    intro index h
    have hindex := (isLinked_of_isGenericAt hs h).lt_arity
    have hnone := default?_position_of_mem ((isGenericAt_binding_iff hs).1 h)
    constructor
    · intro p hp
      rw [← (getElem?_positions_analysis_iff.1 hp).2, hnone]
    · intro p hp
      rw [← Option.some.inj ((getElem?_params_binding hindex).symm.trans hp), default?_parameter,
        hnone, parameterDefault?_none]
  bound := by
    intro g hg
    rw [bound_of_mem_generic? hg]
    exact ⟨hc, isLUB_outputs hc⟩

end OverloadSet

/-- **The type parameter is inferred soundly and exactly.**  The binding of a set that grouping
returns is generic when the outputs of the members differ and an input follows them; then the type
parameter is the type of all such inputs and of the result, and of nothing else. -/
theorem binding_infersGenerics {ps : List Prototype} {entry : String × OverloadSet}
    (hentry : entry ∈ (group ps).value) {a : Analysis} (ha : entry.2.analyze.value = .ok a)
    {enums : EnumRegistry} {strict : Bool} {b : Binding}
    (hb : (entry.2.synthesize a enums strict).value = .ok b) : b.InfersGenerics entry.2 a := by
  have hs : entry.2.Uniform := (wellGrouped_of_mem_group hentry).toUniform
  obtain ⟨c, hc, rfl, hroles⟩ := OverloadSet.eq_analysis_of_analyze hs.nonempty ha
  rw [OverloadSet.synthesize_analysis] at hb
  obtain rfl := Except.ok.inj hb
  exact OverloadSet.infersGenerics_binding hs hc hroles

/-- The family of two nodes has a type parameter below numbers, at its first input. -/
theorem binding_infersGenerics_mix :
    (mixSet.binding (mixSet.analysis .numeric) .empty).InfersGenerics mixSet
        (mixSet.analysis .numeric) ∧
      (mixSet.binding (mixSet.analysis .numeric) .empty).generic?
        = some ⟨genericPlaceholder, .numeric⟩ ∧
      (mixSet.binding (mixSet.analysis .numeric) .empty).IsGenericAt 0 := by
  have hgroup : ("mix", mixSet) ∈ (group mixFamily).value := by decide +kernel
  have hanalyze : mixSet.analyze.value = .ok (mixSet.analysis .numeric) := by decide +kernel
  have hbinding : (mixSet.synthesize (mixSet.analysis .numeric) .empty false).value
      = .ok (mixSet.binding (mixSet.analysis .numeric) .empty) := by
    rw [OverloadSet.synthesize_analysis]
  have hinfers := binding_infersGenerics hgroup hanalyze hbinding
  exact ⟨hinfers, by decide +kernel, ⟨_, rfl, by decide +kernel⟩⟩

end ShaderBindings
