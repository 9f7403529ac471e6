/-
# Parameters of an analysed set

A position without categories has no type, and a set with such a position has no binding.  The
analysis of a set gives every position the categories of the members that have an input there, and
the first member has one, so that this never happens: synthesis with the set's own analysis always
succeeds (`synthesize_analysis`).

The binding is described without the failure.  `parameterType` takes the most general category for
a join that does not exist, which is never used.
-/
import ShaderBindings.Binding.Synthesis
import ShaderBindings.Proofs.Analysis

namespace ShaderBindings.OverloadSet

variable {s : OverloadSet} {a : Analysis} {p : Position}

/-! ## Bindings of positions with categories -/

/-- The type of a position with categories and the way of its argument. -/
def parameterType (a : Analysis) (p : Position) : ParamType × Wiring :=
  match p.collapse? with
  | some (.primitive dataType) => (.primitive dataType, .constant dataType)
  | some (.enumerated id) => (.enumerated id, .enumConstant)
  | none =>
    if a.isGeneric p.index then (.generic, .connection)
    else
      match p.shared? with
      | some c => (.category c, .connection)
      | none => (.category ((Category.join? p.categories).getD .value), .connection)

/-- The report on the join of the categories of a position, when its parameter has one. -/
def parameterReport (s : OverloadSet) (a : Analysis) (p : Position) : Diagnostics :=
  if p.collapse?.isNone && !a.isGeneric p.index && p.shared?.isNone then
    Category.joinReport ("input '" ++ p.name ++ "' of '" ++ s.baseName ++ "'") p.categories
  else []

def parameter (a : Analysis) (enums : EnumRegistry) (p : Position) : Param :=
  paramOf enums p (parameterType a p)

/-- The binding of a set whose positions all have categories. -/
def binding (s : OverloadSet) (a : Analysis) (enums : EnumRegistry) : Binding :=
  s.assemble a (a.positions.map (parameter a enums))

def bindingReports (s : OverloadSet) (a : Analysis) (strict : Bool) : Diagnostics :=
  a.positions.flatMap (s.parameterReport a) ++ s.dispatchReports a strict

section Fields

variable {enums : EnumRegistry}

@[simp]
lemma type_parameter : (parameter a enums p).type = (parameterType a p).1 := rfl

@[simp]
lemma wiring_parameter : (parameter a enums p).wiring = (parameterType a p).2 := rfl

@[simp]
lemma dataType_parameter : (parameter a enums p).dataType = p.dataTypes.head?.getD "" := rfl

@[simp]
lemma default?_parameter : (parameter a enums p).default?
    = parameterDefault? enums (parameterType a p).1 p.default? := rfl

@[simp]
lemma name_binding : (s.binding a enums).name = lowerCamel s.baseName := rfl

@[simp]
lemma baseName_binding : (s.binding a enums).baseName = s.baseName := rfl

@[simp]
lemma params_binding :
    (s.binding a enums).params = a.positions.map (parameter a enums) := rfl

@[simp]
lemma guards_binding : (s.binding a enums).guards = guards a := rfl

@[simp]
lemma fallback?_binding : (s.binding a enums).fallback?
    = if a.discriminating.isEmpty then none else some a.discriminating := rfl

@[simp]
lemma generic?_binding : (s.binding a enums).generic?
    = a.generic?.map fun g => ⟨genericPlaceholder, g.bound⟩ := rfl

@[simp]
lemma returnType_binding : (s.binding a enums).returnType
    = if a.generic?.isSome then .generic else .category a.returnCategory := rfl

end Fields

/-! ## The failure that does not occur -/

lemma typed_eq (hne : p.categories ≠ []) :
    s.typed a p = ⟨.ok (parameterType a p), s.parameterReport a p⟩ := by
  obtain ⟨c, hc⟩ := Category.exists_join? hne
  rw [typed, parameterType, parameterReport]
  rcases hcollapse : p.collapse? with _ | ⟨_ | _⟩
  · by_cases hgeneric : a.isGeneric p.index = true
    · simp [hgeneric]
    · rcases hshared : p.shared? with _ | d
      · simp [hgeneric, joined, hshared, Category.join, hc, Reported.map, Except.map]
      · simp [hgeneric, joined, hshared, Reported.map, Except.map]
  · rfl
  · rfl

lemma param_eq (enums : EnumRegistry) (hne : p.categories ≠ []) :
    s.param a enums p = ⟨.ok (parameter a enums p), s.parameterReport a p⟩ := by
  rw [param, typed_eq hne]
  rfl

lemma params_eq (enums : EnumRegistry) {positions : List Position}
    (hne : ∀ p ∈ positions, p.categories ≠ []) : s.params a enums positions
      = ⟨.ok (positions.map (parameter a enums)), positions.flatMap (s.parameterReport a)⟩ := by
  induction positions with
  | nil => rfl
  | cons p rest ih =>
    rw [params, param_eq enums (hne p List.mem_cons_self),
      ih fun q hq => hne q (List.mem_cons_of_mem p hq)]
    rfl

/-! ## The set's own analysis -/

lemma categories_ne_nil {c : Category} (hp : p ∈ (s.analysis c).positions) :
    p.categories ≠ [] := by
  obtain ⟨index, hindex, rfl⟩ := List.mem_map.1 hp
  simpa [position] using socketsAt_ne_nil (List.mem_range.1 hindex)

/-- Synthesis succeeds with the binding of the set when the analysis is its own. -/
lemma synthesize_analysis (s : OverloadSet) (c : Category) (enums : EnumRegistry) (strict : Bool) :
    s.synthesize (s.analysis c) enums strict
      = ⟨.ok (s.binding (s.analysis c) enums), s.bindingReports (s.analysis c) strict⟩ := by
  rw [synthesize, if_pos (show (s.analysis c).baseName = s.baseName from rfl),
    params_eq enums fun p hp => categories_ne_nil hp]
  rfl

end ShaderBindings.OverloadSet
