/-
# What the analysis says of a set

The analysis of an overload set looks at one input position at a time.  Here its answers are put
in terms of the sockets that the members have at the position:

* a position is shared when all its sockets report one runtime type;
* it becomes the constant of an enumeration when all its sockets have that enumeration, and a
  plain constant when it is shared, takes constants only and has no texture;
* it discriminates when it is neither shared nor a constant.

`analyze_cases` says when a set has an analysis, and which one.
-/
import Mathlib.Data.List.Basic
import Mathlib.Data.List.Sort
import ShaderBindings.Overload.Analysis
import ShaderBindings.Proofs.Grouping
import ShaderBindings.Proofs.Joins

namespace ShaderBindings

lemma allEqual_iff {α : Type} [DecidableEq α] {l : List α} :
    allEqual l = true ↔ ∀ x ∈ l, ∀ y ∈ l, x = y := by
  cases l with
  | nil => simp [allEqual]
  | cons first rest =>
    simp only [allEqual, List.all_eq_true, decide_eq_true_eq]
    constructor
    · intro h x hx y hy
      have heq : ∀ z ∈ first :: rest, z = first := by
        intro z hz
        rcases List.mem_cons.1 hz with rfl | hz
        · rfl
        · exact h z hz
      rw [heq x hx, heq y hy]
    · intro h x hx
      exact h x (List.mem_cons_of_mem _ hx) first List.mem_cons_self

lemma allEqual_map_iff {α β : Type} [DecidableEq β] {f : α → β} {l : List α} :
    allEqual (l.map f) = true ↔ ∀ x ∈ l, ∀ y ∈ l, f x = f y := by
  simp [allEqual_iff]

/-- An analysis lets one of its positions become a constant. -/
def Analysis.Collapsed (a : Analysis) (index : Nat) : Prop :=
  ∃ p ∈ a.positions, p.index = index ∧ p.collapse?.isSome

namespace OverloadSet

variable {s : OverloadSet} {index : Nat}

/-- The members report one runtime type at an input position. -/
def SharesType (s : OverloadSet) (index : Nat) : Prop :=
  ∀ x ∈ s.socketsAt index, ∀ y ∈ s.socketsAt index, x.runtimeType = y.runtimeType

lemma mem_socketsAt_iff {x : Socket} :
    x ∈ s.socketsAt index ↔ ∃ p ∈ s.prototypes, p.inputs[index]? = some x := by
  simp [socketsAt, List.mem_filterMap]

lemma mem_socketsAt {p : Prototype} (hp : p ∈ s.prototypes) {x : Socket}
    (hx : p.inputs[index]? = some x) : x ∈ s.socketsAt index :=
  mem_socketsAt_iff.2 ⟨p, hp, hx⟩

lemma Uniform.lt_arity_iff (hs : s.Uniform) {p : Prototype} (hp : p ∈ s.prototypes) :
    index < s.arity ↔ index < p.inputs.length := by
  rw [← hs.arity_eq p hp, Prototype.arity]

lemma Uniform.exists_socket (hs : s.Uniform) (hi : index < s.arity) {p : Prototype}
    (hp : p ∈ s.prototypes) : ∃ x, p.inputs[index]? = some x :=
  ⟨_, List.getElem?_eq_getElem ((hs.lt_arity_iff hp).1 hi)⟩

lemma Uniform.lt_arity (hs : s.Uniform) {p : Prototype} (hp : p ∈ s.prototypes) {x : Socket}
    (hx : p.inputs[index]? = some x) : index < s.arity :=
  (hs.lt_arity_iff hp).2 (List.getElem?_eq_some_iff.1 hx).1

lemma Uniform.exists_prototype (hs : s.Uniform) : ∃ p, p ∈ s.prototypes := by
  obtain ⟨m, members, hm⟩ := List.exists_cons_of_ne_nil hs.nonempty
  exact ⟨m.prototype, by simp [prototypes, hm]⟩

/-- The first member has an input at every position of a set. -/
lemma socketsAt_ne_nil (hindex : index < s.arity) : s.socketsAt index ≠ [] := by
  rw [arity] at hindex
  rcases hmembers : s.members with _ | ⟨first, rest⟩
  · simp [hmembers] at hindex
  · simp only [hmembers] at hindex
    simp [socketsAt, prototypes, hmembers, List.getElem?_eq_getElem hindex]

/-! ## Constants -/

/-- Sockets that take one and the same constant: they report one runtime type, take constants
only and are no textures. -/
structure TakesConstant (sockets : List Socket) : Prop where
  shared : ∀ x ∈ sockets, ∀ y ∈ sockets, x.runtimeType = y.runtimeType
  interfaceOnly : ∀ x ∈ sockets, x.isInterfaceOnly
  no_texture : ∀ x ∈ sockets, x.category ≠ .texture

/-- Sockets that all have one enumeration. -/
def HaveEnumeration (sockets : List Socket) (id : Nat) : Prop :=
  ∀ x ∈ sockets, x.category = .enumerated id

lemma takesConstant_iff {sockets : List Socket} :
    (allEqual (sockets.map (·.runtimeType)) && sockets.all Socket.isInterfaceOnly
        && !(sockets.map (·.category)).contains .texture) = true ↔ TakesConstant sockets := by
  simp only [Bool.and_eq_true, allEqual_map_iff, List.all_eq_true,
    Bool.not_eq_true', List.contains_eq_mem, decide_eq_false_iff_not, List.mem_map, not_exists,
    not_and]
  exact ⟨fun h => ⟨h.1.1, h.1.2, h.2⟩, fun h => ⟨⟨h.1, h.2⟩, h.3⟩⟩

lemma haveEnumeration_iff {first : Socket} {rest : List Socket} {id : Nat}
    (hfirst : first.category = .enumerated id) :
    allEqual ((first :: rest).map (·.category)) = true ↔ HaveEnumeration (first :: rest) id := by
  simp only [allEqual_map_iff, HaveEnumeration]
  constructor
  · intro h x hx
    rw [h x hx first List.mem_cons_self, hfirst]
  · intro h x hx y hy
    rw [h x hx, h y hy]

lemma collapseOf?_of_haveEnumeration {sockets : List Socket} {id : Nat} (hne : sockets ≠ [])
    (h : HaveEnumeration sockets id) : collapseOf? sockets = some (.enumerated id) := by
  obtain ⟨first, rest, rfl⟩ := List.exists_cons_of_ne_nil hne
  have hfirst : first.category = .enumerated id := h first List.mem_cons_self
  simp only [collapseOf?, hfirst]
  rw [if_pos ((haveEnumeration_iff hfirst).2 h)]

/-- Without a common enumeration the sockets become a plain constant when they take one. -/
lemma collapseOf?_of_not_haveEnumeration {first : Socket} {rest : List Socket}
    (h : ∀ id, ¬ HaveEnumeration (first :: rest) id) [Decidable (TakesConstant (first :: rest))] :
    collapseOf? (first :: rest)
      = if TakesConstant (first :: rest) then some (.primitive first.dataType) else none := by
  simp only [collapseOf?, takesConstant_iff]
  split
  · rename_i id hid
    rw [if_neg fun heq => h id ((haveEnumeration_iff hid).1 heq)]
  · rfl

lemma collapseOf?_eq_enumerated_iff {sockets : List Socket} {id : Nat} :
    collapseOf? sockets = some (.enumerated id) ↔ sockets ≠ [] ∧ HaveEnumeration sockets id := by
  classical
  refine ⟨fun h => ?_, fun h => collapseOf?_of_haveEnumeration h.1 h.2⟩
  cases sockets with
  | nil => simp [collapseOf?] at h
  | cons first rest =>
    refine ⟨List.cons_ne_nil _ _, ?_⟩
    by_cases hex : ∃ id', HaveEnumeration (first :: rest) id'
    · obtain ⟨id', hid'⟩ := hex
      rw [collapseOf?_of_haveEnumeration (List.cons_ne_nil _ _) hid'] at h
      obtain rfl : id' = id := by simpa using h
      exact hid'
    · rw [collapseOf?_of_not_haveEnumeration (not_exists.1 hex)] at h
      split at h <;> simp at h

lemma collapseOf?_isSome_iff {sockets : List Socket} (hne : sockets ≠ []) :
    (collapseOf? sockets).isSome
      ↔ (∃ id, HaveEnumeration sockets id) ∨ TakesConstant sockets := by
  classical
  obtain ⟨first, rest, rfl⟩ := List.exists_cons_of_ne_nil hne
  by_cases hex : ∃ id, HaveEnumeration (first :: rest) id
  · obtain ⟨id, hid⟩ := hex
    rw [collapseOf?_of_haveEnumeration hne hid]
    exact iff_of_true rfl (Or.inl ⟨id, hid⟩)
  · rw [collapseOf?_of_not_haveEnumeration (not_exists.1 hex)]
    by_cases hc : TakesConstant (first :: rest)
    · rw [if_pos hc]
      exact iff_of_true rfl (Or.inr hc)
    · rw [if_neg hc]
      exact iff_of_false (by simp) (not_or.2 ⟨hex, hc⟩)

/-- Without mixed roles one socket with an enumeration makes the position a constant of it. -/
lemma collapseOf?_of_mem (hroles : s.hasMixedRoles index = false) {x : Socket}
    {id : Nat} (hx : x ∈ s.socketsAt index) (hid : x.category = .enumerated id) :
    collapseOf? (s.socketsAt index) = some (.enumerated id) := by
  have henumerated : ((s.socketsAt index).map (·.category)).any Category.isEnumerated = true :=
    List.any_eq_true.2 ⟨x.category, List.mem_map_of_mem hx, by rw [hid]; rfl⟩
  have hequal : allEqual ((s.socketsAt index).map (·.category)) = true := by
    rw [hasMixedRoles, henumerated, Bool.and_true] at hroles
    simpa using hroles
  refine collapseOf?_of_haveEnumeration (List.ne_nil_of_mem hx) fun y hy => ?_
  rw [← hid]
  exact allEqual_map_iff.1 hequal y hy x hx

/-! ## Defaults -/

/-- The merge of some defaults starts from the first one. -/
lemma unifiedDefault?_cons_eq_some_iff {first : Socket} {rest : List Socket} {l : Literal} :
    unifiedDefault? (first :: rest) = some l ↔ ∃ own, first.default? = some own ∧
      isRepresentable first own = true ∧ mergeDefaults? (some own) rest = some l := by
  rw [unifiedDefault?, mergeDefaults?]
  rcases first.default? with _ | own
  · simp
  · simp only [Option.some.injEq, exists_eq_left', Option.map_none, Option.getD_none,
      Bool.and_true]
    split_ifs with hrepresentable
    · simp [hrepresentable]
    · simp [hrepresentable]

/-! ## Success -/

/-- The report on the join of the outputs. -/
def outputReport (s : OverloadSet) : Diagnostics :=
  Category.joinReport ("outputs of '" ++ s.baseName ++ "'") s.outputCategories

/-- The members of a set mix enumerations with something else at a position. -/
def MixesAt (s : OverloadSet) (index : Nat) : Prop :=
  index < s.arity ∧ s.hasMixedRoles index = true

/-- The report on a set whose members mix enumerations with something else at the position of an
input. -/
def mixedReport (s : OverloadSet) (input : String) : Diagnostic :=
  .roleMismatch s.baseName input "members declare different enumerations"

/-- A set with members has its analysis, or it mixes enumerations with something else at a
position, which is reported. -/
lemma analyze_cases (hne : s.members ≠ []) :
    ∃ c, Category.join? s.outputCategories = some c ∧
      (((∀ index < s.arity, s.hasMixedRoles index = false) ∧
          s.analyze = ⟨.ok (s.analysis c), s.outputReport⟩) ∨
        ∃ index fault, s.MixesAt index ∧ s.analyze
          = ⟨.error fault, s.outputReport ++ [s.mixedReport (s.inputName index)]⟩) := by
  have hout : s.outputCategories ≠ [] := by simpa [outputCategories, prototypes] using hne
  obtain ⟨c, hc⟩ := Category.exists_join? hout
  refine ⟨c, hc, ?_⟩
  simp only [analyze, Category.join, hc]
  rcases hmixed : (List.range s.arity).find? s.hasMixedRoles with _ | index
  · left
    refine ⟨fun index hindex => ?_, rfl⟩
    simpa using List.find?_eq_none.1 hmixed index (List.mem_range.2 hindex)
  · refine Or.inr ⟨index, _, ⟨?_, List.find?_some hmixed⟩, rfl⟩
    exact List.mem_range.1 (List.mem_of_find?_eq_some hmixed)

/-- A set with an analysis has the one that its positions and the join of its outputs give. -/
lemma eq_analysis_of_analyze (hne : s.members ≠ []) {a : Analysis}
    (h : s.analyze.value = .ok a) :
    ∃ c, Category.join? s.outputCategories = some c ∧ a = s.analysis c ∧
      ∀ index < s.arity, s.hasMixedRoles index = false := by
  obtain ⟨c, hc, ⟨hroles, heq⟩ | ⟨index, fault, -, heq⟩⟩ := analyze_cases hne
  · rw [heq] at h
    exact ⟨c, hc, (Except.ok.inj h).symm, hroles⟩
  · rw [heq] at h
    exact absurd h (by simp)

/-! ## Positions -/

variable {c : Category}

lemma getElem?_positions_analysis_iff {p : Position} :
    (s.analysis c).positions[index]? = some p ↔ index < s.arity ∧ s.position index = p := by
  rw [analysis]
  dsimp only
  rw [List.getElem?_map, Option.map_eq_some_iff]
  constructor
  · rintro ⟨i, hi, rfl⟩
    obtain ⟨hindex, rfl⟩ := List.getElem?_eq_some_iff.1 hi
    rw [List.length_range] at hindex
    exact ⟨hindex, by rw [List.getElem_range]⟩
  · rintro ⟨hindex, rfl⟩
    exact ⟨index, List.getElem?_range hindex, rfl⟩

lemma collapsed_analysis_iff :
    (s.analysis c).Collapsed index
      ↔ index < s.arity ∧ (collapseOf? (s.socketsAt index)).isSome := by
  constructor
  · rintro ⟨p, hp, hindex, hsome⟩
    obtain ⟨i, hi, rfl⟩ := List.mem_map.1 hp
    obtain rfl : i = index := hindex
    exact ⟨List.mem_range.1 hi, hsome⟩
  · rintro ⟨hi, hsome⟩
    exact ⟨s.position index, List.mem_map_of_mem (List.mem_range.2 hi), rfl, hsome⟩

/-- The sockets of a position that is no constant take none. -/
lemma collapseOf?_of_not_collapsed (hindex : index < s.arity)
    (h : ¬ (s.analysis c).Collapsed index) : collapseOf? (s.socketsAt index) = none := by
  rw [← Option.not_isSome_iff_eq_none]
  exact fun hsome => h (collapsed_analysis_iff.2 ⟨hindex, hsome⟩)

lemma sharedType_position_iff : (s.position index).sharedType = true ↔ s.SharesType index :=
  allEqual_map_iff

lemma discriminating_analysis :
    (s.analysis c).discriminating
      = (List.range s.arity).filter fun index => (s.position index).discriminates := by
  rw [Analysis.discriminating, analysis, List.filter_map, List.map_map]
  exact List.map_id _

/-- The discriminating positions are those where the members report several runtime types and the
argument does not become a constant. -/
lemma mem_discriminating_iff :
    index ∈ (s.analysis c).discriminating
      ↔ index < s.arity ∧ ¬ s.SharesType index ∧ ¬ (s.analysis c).Collapsed index := by
  rw [discriminating_analysis, List.mem_filter, List.mem_range, Position.discriminates,
    Bool.and_eq_true, Bool.not_eq_true', ← Bool.not_eq_true, sharedType_position_iff,
    collapsed_analysis_iff]
  refine and_congr_right fun hi => and_congr_right fun _ => ?_
  rw [not_and, Option.isNone_iff_eq_none, ← Option.not_isSome_iff_eq_none]
  exact ⟨fun h _ => h, fun h => h hi⟩

lemma discriminating_increasing : (s.analysis c).discriminating.Pairwise (· < ·) := by
  rw [discriminating_analysis]
  exact List.pairwise_lt_range.filter _

end OverloadSet

end ShaderBindings
