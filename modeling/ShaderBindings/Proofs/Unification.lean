/-
# The merge of defaults is exact

The defaults of the members at one position are merged by a loop that compares each of them with
the one before it and gives up at the first difference.  Equality of values is symmetric and
transitive, although it is not reflexive at a not-a-number.  So the loop goes through exactly when
each default is equal to the first one (`isSome_mergeDefaults?_iff`), which makes all of them equal
to one another and to the last one, the result.

What the loop asks of the members is settled by the set of their sockets, and so is the question
whether a position is generic.  The order of the members therefore has no say in either.
-/
import ShaderBindings.Proofs.Generics

namespace ShaderBindings

/-! ## Equality of values -/

section Numbers

open Float.Model

lemma compare_then_eq_iff {m n : Nat} {e f : Int} :
    (compare e f).then (compare m n) = .eq ↔ e = f ∧ m = n := by
  rw [Ordering.then_eq_eq, compare_eq_iff_eq, compare_eq_iff_eq]

/-- Numbers that are compared as equal are one number, or zeros. -/
lemma eq_or_zero_of_compare {a b : UnpackedFloat} (h : a.compare b = some .eq) :
    (a.isNaN = false ∧ a = b) ∨ ∃ s t, a = .zero s ∧ b = .zero t := by
  rcases a with (_ | _) | _ | s | ⟨_ | _, m, e, hm⟩ <;>
    rcases b with (_ | _) | _ | t | ⟨_ | _, n, f, hn⟩
  case infinity.negative.infinity.negative | infinity.positive.infinity.positive =>
    exact Or.inl ⟨rfl, rfl⟩
  case zero.zero => exact Or.inr ⟨s, t, rfl, rfl⟩
  case finite.negative.finite.negative =>
    obtain ⟨rfl, rfl⟩ := compare_then_eq_iff.1 (Ordering.swap_eq_eq.1 (Option.some.inj h))
    exact Or.inl ⟨rfl, rfl⟩
  case finite.positive.finite.positive =>
    obtain ⟨rfl, rfl⟩ := compare_then_eq_iff.1 (Option.some.inj h)
    exact Or.inl ⟨rfl, rfl⟩
  -- any other pair has another result, or none
  all_goals cases h

lemma compare_self_of_isNaN {a : UnpackedFloat} (h : a.isNaN = false) : a.compare a = some .eq := by
  rcases a with (_ | _) | _ | s | ⟨_ | _, m, e, hm⟩
  case notANumber => exact Bool.noConfusion h
  case finite.negative =>
    exact congrArg some (Ordering.swap_eq_eq.2 (compare_then_eq_iff.2 ⟨rfl, rfl⟩))
  case finite.positive => exact congrArg some (compare_then_eq_iff.2 ⟨rfl, rfl⟩)
  all_goals rfl

lemma compare_eq_some_eq_iff {a b : UnpackedFloat} : a.compare b = some .eq ↔
    (a.isNaN = false ∧ a = b) ∨ ∃ s t, a = .zero s ∧ b = .zero t := by
  refine ⟨eq_or_zero_of_compare, ?_⟩
  rintro (⟨hnan, rfl⟩ | ⟨s, t, rfl, rfl⟩)
  · exact compare_self_of_isNaN hnan
  · rfl

/-- Two numbers are equal as values when they are one number and no not-a-number, or zeros of any
signs. -/
lemma float_beq_iff {x y : Float} : (x == y) = true ↔
    (x.toModel.unpack.isNaN = false ∧ x.toModel.unpack = y.toModel.unpack) ∨
      ∃ s t, x.toModel.unpack = .zero s ∧ y.toModel.unpack = .zero t := by
  have hbeq : (x == y) = (x.toModel.unpack.compare y.toModel.unpack == some .eq) := rfl
  rw [hbeq, beq_iff_eq, compare_eq_some_eq_iff]

end Numbers

instance partialEquivBEqFloat : PartialEquivBEq Float where
  symm := by
    intro x y h
    rw [float_beq_iff] at h ⊢
    rcases h with ⟨hnan, heq⟩ | ⟨s, t, hx, hy⟩
    · exact Or.inl ⟨heq ▸ hnan, heq.symm⟩
    · exact Or.inr ⟨t, s, hy, hx⟩
  trans := by
    intro x y z hxy hyz
    rw [float_beq_iff] at hxy hyz ⊢
    rcases hxy with ⟨hnan, heq⟩ | ⟨s, t, hx, hy⟩
    · rwa [heq]
    -- a zero, the other one and a third number
    · rcases hyz with ⟨-, heq⟩ | ⟨s', t', -, hz⟩
      · exact Or.inr ⟨s, t, hx, heq ▸ hy⟩
      · exact Or.inr ⟨s, t', hx, hz⟩

instance partialEquivBEqList {α : Type} [BEq α] [PartialEquivBEq α] :
    PartialEquivBEq (List α) where
  symm := by
    intro a b h
    induction a generalizing b with
    | nil =>
      cases b with
      | nil => rfl
      | cons y ys => exact absurd h (by simp)
    | cons x xs ih =>
      cases b with
      | nil => exact absurd h (by simp)
      | cons y ys =>
        rw [List.cons_beq_cons, Bool.and_eq_true] at h ⊢
        exact ⟨BEq.symm h.1, ih h.2⟩
  trans := by
    intro a b c hab hbc
    induction a generalizing b c with
    | nil =>
      cases b with
      | nil => exact hbc
      | cons y ys => exact absurd hab (by simp)
    | cons x xs ih =>
      cases b with
      | nil => exact absurd hab (by simp)
      | cons y ys =>
        cases c with
        | nil => exact absurd hbc (by simp)
        | cons z zs =>
          rw [List.cons_beq_cons, Bool.and_eq_true] at hab hbc ⊢
          exact ⟨BEq.trans hab.1 hbc.1, ih hab.2 hbc.2⟩

lemma beq_self_of_forall {α : Type} [BEq α] {l : List α} (h : ∀ a ∈ l, (a == a) = true) :
    (l == l) = true := by
  induction l with
  | nil => rfl
  | cons a rest ih =>
    rw [List.forall_mem_cons] at h
    rw [List.cons_beq_cons, Bool.and_eq_true]
    exact ⟨h.1, ih h.2⟩

namespace Literal

variable {l m k : Literal}

/-- The numbers of a literal that may be a not-a-number. -/
def floats : Literal → List Float
  | float x => [x]
  | tuple components => components
  | matrix rows => rows.flatten
  | _ => []

/-- The literal holds no not-a-number. -/
def IsDefined (l : Literal) : Prop := ∀ x ∈ l.floats, x.isNaN = false

instance : DecidablePred IsDefined := fun l =>
  inferInstanceAs (Decidable (∀ x ∈ l.floats, x.isNaN = false))

lemma agrees_symm (h : l.agrees m = true) : m.agrees l = true := by
  cases l <;> cases m <;> simp only [agrees, decide_eq_true_eq, Bool.false_eq_true] at h ⊢
  case bool.bool | int.int | string.string => exact h.symm
  case float.float | tuple.tuple | matrix.matrix => exact BEq.symm h

lemma agrees_trans (hlm : l.agrees m = true) (hmk : m.agrees k = true) : l.agrees k = true := by
  cases l <;> cases m <;> cases k <;>
    simp only [agrees, decide_eq_true_eq, Bool.false_eq_true] at hlm hmk ⊢
  case bool.bool.bool | int.int.int | string.string.string => exact hlm.trans hmk
  case float.float.float | tuple.tuple.tuple | matrix.matrix.matrix => exact BEq.trans hlm hmk

/-- A literal without a not-a-number is equal to itself. -/
lemma IsDefined.agrees_self (h : l.IsDefined) : l.agrees l = true := by
  have hself : ∀ x ∈ l.floats, (x == x) = true := by
    intro x hx
    exact float_beq_iff.2 (Or.inl ⟨h x hx, rfl⟩)
  cases l with
  | bool | int | string => exact decide_eq_true rfl
  | float x => exact hself x (List.mem_singleton_self x)
  | tuple components => exact beq_self_of_forall hself
  | matrix rows =>
    refine beq_self_of_forall fun row hrow => beq_self_of_forall fun x hx => ?_
    exact hself x (List.mem_flatten.2 ⟨row, hrow, hx⟩)

end Literal

/-! ## What the defaults have to be -/

/-- The socket can have the literal as its default: the category asks for the kind, and the
runtime type for the number of components. -/
inductive Socket.Takes (x : Socket) : Literal → Prop where
  | enumerated (id : Nat) (t : String) : x.category = .enumerated id → t ≠ "" →
      x.Takes (.string t)
  | float (v : Float) : x.category = .scalar → x.Takes (.float v)
  | int (n : Int) : x.category = .scalar → x.Takes (.int n)
  | bool (b : Bool) : x.category = .value → x.Takes (.bool b)
  | string (t : String) : x.category = .string → x.Takes (.string t)
  | tuple (components : List Float) : x.category = .vector ∨ x.category = .color →
      DataType.components? x.runtimeType = some components.length → x.Takes (.tuple components)
  | matrix (rows : List (List Float)) : x.category = .matrix →
      DataType.components? x.runtimeType = some rows.length →
      (∀ row ∈ rows, row.length = rows.length) → x.Takes (.matrix rows)

/-- Every member has a default at the position that its socket can have, and all of them are equal
as values. -/
structure OverloadSet.Unifies (s : OverloadSet) (index : Nat) : Prop where
  takes : ∀ x ∈ s.socketsAt index, ∃ l, x.default? = some l ∧ x.Takes l
  agree : ∀ x ∈ s.socketsAt index, ∀ y ∈ s.socketsAt index,
    ∀ l ∈ x.default?, ∀ m ∈ y.default?, l.agrees m = true

/-- The defaults of an analysis are those that the members of the set have in common. -/
structure Analysis.UnifiesDefaults (a : Analysis) (s : OverloadSet) : Prop where
  /-- Every input position of the set is a position of the analysis. -/
  length_eq : a.positions.length = s.arity
  /-- A position has a default when it is not generic and the members have one in common. -/
  isSome_iff : ∀ index p, a.positions[index]? = some p →
    (p.default?.isSome ↔ a.isGeneric index = false ∧ s.Unifies index)
  /-- The default is equal to that of every member. -/
  agrees : ∀ index p, a.positions[index]? = some p → ∀ l ∈ p.default?,
    ∀ x ∈ s.socketsAt index, ∃ own, x.default? = some own ∧ l.agrees own = true
  /-- The members in another order have an analysis as well, with defaults at the same
  positions. -/
  perm : ∀ members : List OverloadMember, members.Perm s.members →
    ∃ a', (OverloadSet.mk s.baseName members).analyze.value = .ok a' ∧
      a'.positions.map (·.default?.isSome) = a.positions.map (·.default?.isSome)

namespace OverloadSet

variable {s t : OverloadSet} {c : Category} {index : Nat} {l m : Literal}

lemma isRepresentable_iff {x : Socket} : isRepresentable x l = true ↔ x.Takes l := by
  constructor
  · intro h
    rw [isRepresentable.eq_def] at h
    split at h
    · exact .enumerated _ _ ‹_› (by simpa using h)
    · exact .float _ ‹_›
    · exact .int _ ‹_›
    · exact .bool _ ‹_›
    · exact .string _ ‹_›
    · exact .tuple _ (Or.inl ‹_›) (of_decide_eq_true h)
    · exact .tuple _ (Or.inr ‹_›) (of_decide_eq_true h)
    · obtain ⟨hrows, hsquare⟩ := Bool.and_eq_true_iff.1 h
      refine .matrix _ ‹_› (of_decide_eq_true hrows) fun row hrow => ?_
      exact of_decide_eq_true (List.all_eq_true.1 hsquare row hrow)
    · exact absurd h Bool.false_ne_true
  · intro h
    cases h with
    | enumerated id t hcategory ht => simpa [isRepresentable, hcategory] using ht
    | float _ hcategory | int _ hcategory | bool _ hcategory | string _ hcategory =>
      simp [isRepresentable, hcategory]
    | tuple components hcategory hwidth =>
      rcases hcategory with hcategory | hcategory
      · simpa [isRepresentable, hcategory] using hwidth
      · simpa [isRepresentable, hcategory] using hwidth
    | matrix rows hcategory hwidth hsquare =>
      simpa [isRepresentable, hcategory, hwidth] using hsquare

/-! ## The merge -/

/-- The merge goes on as long as each default is equal to the one before it, and then each is
equal to the first one. -/
lemma isSome_mergeDefaults?_iff {sockets : List Socket} :
    (mergeDefaults? (some m) sockets).isSome
      ↔ ∀ x ∈ sockets, ∃ l, x.default? = some l ∧ x.Takes l ∧ m.agrees l = true := by
  induction sockets generalizing m with
  | nil => simp [mergeDefaults?]
  | cons x rest ih =>
    rw [mergeDefaults?, List.forall_mem_cons]
    rcases hdefault : x.default? with _ | l
    · simp
    · simp only [Option.some.injEq, exists_eq_left']
      by_cases htakes : x.Takes l ∧ m.agrees l = true
      · have hadds : (isRepresentable x l && ((some m).map fun m => m.agrees l).getD true) = true :=
          Bool.and_eq_true_iff.2 ⟨isRepresentable_iff.2 htakes.1, htakes.2⟩
        rw [if_pos hadds, ih]
        -- what agrees with this default agrees with the one before
        have hswap : ∀ k : Literal, l.agrees k = true ↔ m.agrees k = true := fun k =>
          ⟨Literal.agrees_trans htakes.2, Literal.agrees_trans (Literal.agrees_symm htakes.2)⟩
        simp only [hswap]
        exact ⟨fun h => ⟨htakes, h⟩, fun h => h.2⟩
      · have hadds :
            ¬ (isRepresentable x l && ((some m).map fun m => m.agrees l).getD true) = true :=
          fun h => htakes ⟨isRepresentable_iff.1 (Bool.and_eq_true_iff.1 h).1,
            (Bool.and_eq_true_iff.1 h).2⟩
        rw [if_neg hadds]
        exact iff_of_false (by simp) fun h => htakes h.1

/-- The result of a merge is equal to the default that it starts from. -/
lemma agrees_of_mergeDefaults? {sockets : List Socket} (hm : m.agrees m = true)
    (h : mergeDefaults? (some m) sockets = some l) : m.agrees l = true := by
  induction sockets generalizing m with
  | nil => rwa [← Option.some.inj h]
  | cons x rest ih =>
    rw [mergeDefaults?] at h
    split at h
    · exact absurd h (by simp)
    · rename_i own _
      split_ifs at h with hadds
      have hown : m.agrees own = true := (Bool.and_eq_true_iff.1 hadds).2
      have hself : own.agrees own = true := Literal.agrees_trans (Literal.agrees_symm hown) hown
      exact Literal.agrees_trans hown (ih hself h)

/-- The merge of the defaults at a position goes through when the members have one in common. -/
lemma isSome_unifiedDefault?_iff (hne : s.socketsAt index ≠ [])
    (hdefined : ∀ x ∈ s.socketsAt index, ∀ l ∈ x.default?, l.IsDefined) :
    (unifiedDefault? (s.socketsAt index)).isSome ↔ s.Unifies index := by
  obtain ⟨first, rest, hsockets⟩ := List.exists_cons_of_ne_nil hne
  rw [hsockets] at hdefined ⊢
  constructor
  · intro h
    obtain ⟨l, hl⟩ := Option.isSome_iff_exists.1 h
    obtain ⟨own, hown, hrepresentable, hmerge⟩ := unifiedDefault?_cons_eq_some_iff.1 hl
    have hrest := isSome_mergeDefaults?_iff.1 (Option.isSome_iff_exists.2 ⟨l, hmerge⟩)
    have hself : own.agrees own = true := (hdefined first List.mem_cons_self own hown).agrees_self
    have hall : ∀ x ∈ first :: rest,
        ∃ l, x.default? = some l ∧ x.Takes l ∧ own.agrees l = true := by
      rw [List.forall_mem_cons]
      exact ⟨⟨own, hown, isRepresentable_iff.1 hrepresentable, hself⟩, hrest⟩
    have hagree : ∀ x ∈ first :: rest, ∀ l ∈ x.default?, own.agrees l = true := by
      intro x hx l hl
      obtain ⟨l', hl', -, hown'⟩ := hall x hx
      obtain rfl := Option.some.inj (hl'.symm.trans hl)
      exact hown'
    refine ⟨fun x hx => ?_, fun x hx y hy l hl m hm => ?_⟩
    · rw [hsockets] at hx
      obtain ⟨l, hl, htakes, -⟩ := hall x hx
      exact ⟨l, hl, htakes⟩
    · rw [hsockets] at hx hy
      exact Literal.agrees_trans (Literal.agrees_symm (hagree x hx l hl)) (hagree y hy m hm)
  · rintro ⟨htakes, hagree⟩
    rw [hsockets] at htakes hagree
    obtain ⟨own, hown, hfirst⟩ := htakes first List.mem_cons_self
    have hmerge : (mergeDefaults? (some own) rest).isSome := by
      refine isSome_mergeDefaults?_iff.2 fun x hx => ?_
      obtain ⟨l, hl, hx'⟩ := htakes x (List.mem_cons_of_mem _ hx)
      exact ⟨l, hl, hx',
        hagree first List.mem_cons_self x (List.mem_cons_of_mem _ hx) own hown l hl⟩
    obtain ⟨l, hl⟩ := Option.isSome_iff_exists.1 hmerge
    exact Option.isSome_iff_exists.2 ⟨l, unifiedDefault?_cons_eq_some_iff.2
      ⟨own, hown, isRepresentable_iff.2 hfirst, hl⟩⟩

/-- The merged default is equal to that of every member. -/
lemma agrees_of_unifiedDefault? (hdefined : ∀ x ∈ s.socketsAt index, ∀ l ∈ x.default?, l.IsDefined)
    (h : unifiedDefault? (s.socketsAt index) = some l) {x : Socket} (hx : x ∈ s.socketsAt index) :
    ∃ own, x.default? = some own ∧ l.agrees own = true := by
  have hunifies := (isSome_unifiedDefault?_iff (List.ne_nil_of_mem hx) hdefined).1
    (Option.isSome_iff_exists.2 ⟨l, h⟩)
  obtain ⟨own, hown, -⟩ := hunifies.takes x hx
  obtain ⟨first, rest, hsockets⟩ := List.exists_cons_of_ne_nil (List.ne_nil_of_mem hx)
  have hfirst : first ∈ s.socketsAt index := by simp [hsockets]
  rw [hsockets] at h
  obtain ⟨start, hstart, -, hmerge⟩ := unifiedDefault?_cons_eq_some_iff.1 h
  have hself := (hdefined first hfirst start hstart).agrees_self
  have hresult : start.agrees l = true := agrees_of_mergeDefaults? hself hmerge
  exact ⟨own, hown, Literal.agrees_trans (Literal.agrees_symm hresult)
    (hunifies.agree first hfirst x hx start hstart own hown)⟩

/-! ## Positions -/

lemma isDefined_of_mem_socketsAt
    (h : ∀ p ∈ s.prototypes, ∀ x ∈ p.inputs, ∀ l ∈ x.default?, l.IsDefined) :
    ∀ x ∈ s.socketsAt index, ∀ l ∈ x.default?, l.IsDefined := by
  intro x hx
  obtain ⟨p, hp, hx⟩ := mem_socketsAt_iff.1 hx
  exact h p hp x (List.mem_of_getElem? hx)

lemma default?_position :
    (s.position index).default?
      = if (s.analysis c).isGeneric index then none else unifiedDefault? (s.socketsAt index) := by
  have hgeneric : (s.analysis c).isGeneric index = s.genericPositions.contains index := by
    rw [Bool.eq_iff_iff, isGeneric_analysis_iff, List.contains_iff_mem]
  rw [hgeneric]
  rfl

lemma isSome_default?_position_iff (hne : s.socketsAt index ≠ [])
    (hdefined : ∀ x ∈ s.socketsAt index, ∀ l ∈ x.default?, l.IsDefined) :
    (s.position index).default?.isSome
      ↔ (s.analysis c).isGeneric index = false ∧ s.Unifies index := by
  rw [default?_position (c := c)]
  rcases (s.analysis c).isGeneric index with _ | _
  · simpa using isSome_unifiedDefault?_iff hne hdefined
  · simp

/-! ## The order of the members -/

lemma takesConstant_of_mem_iff {sockets sockets' : List Socket}
    (h : ∀ x, x ∈ sockets ↔ x ∈ sockets') (hs : TakesConstant sockets) :
    TakesConstant sockets' where
  shared := by simpa only [h] using hs.shared
  interfaceOnly := by simpa only [h] using hs.interfaceOnly
  no_texture := by simpa only [h] using hs.no_texture

section Order

variable (h : ∀ p, p ∈ t.prototypes ↔ p ∈ s.prototypes)
include h

/-! Sets with the same members agree on all that is asked of their defaults. -/

lemma mem_socketsAt_congr {x : Socket} : x ∈ t.socketsAt index ↔ x ∈ s.socketsAt index := by
  simp only [mem_socketsAt_iff, h]

lemma unifies_congr : t.Unifies index ↔ s.Unifies index := by
  constructor
  · rintro ⟨htakes, hagree⟩
    simp only [mem_socketsAt_congr h] at htakes hagree
    exact ⟨htakes, hagree⟩
  · rintro ⟨htakes, hagree⟩
    simp only [← mem_socketsAt_congr h] at htakes hagree
    exact ⟨htakes, hagree⟩

lemma hasMixedRoles_congr : t.hasMixedRoles index = s.hasMixedRoles index := by
  have hequal : allEqual ((t.socketsAt index).map (·.category))
      = allEqual ((s.socketsAt index).map (·.category)) := by
    rw [Bool.eq_iff_iff, allEqual_map_iff, allEqual_map_iff]
    simp only [mem_socketsAt_congr h]
  have hany : ((t.socketsAt index).map (·.category)).any Category.isEnumerated
      = ((s.socketsAt index).map (·.category)).any Category.isEnumerated := by
    rw [Bool.eq_iff_iff, List.any_eq_true, List.any_eq_true]
    simp only [List.mem_map, mem_socketsAt_congr h]
  rw [hasMixedRoles, hasMixedRoles, hequal, hany]

lemma collapsed_of_collapsed (harity : t.arity = s.arity) (hne : s.socketsAt index ≠ [])
    (hcollapsed : (s.analysis c).Collapsed index) {d : Category} :
    (t.analysis d).Collapsed index := by
  rw [collapsed_analysis_iff] at hcollapsed ⊢
  obtain ⟨x, hx⟩ := List.exists_mem_of_ne_nil _ hne
  have hne' : t.socketsAt index ≠ [] := List.ne_nil_of_mem ((mem_socketsAt_congr h).2 hx)
  refine ⟨harity ▸ hcollapsed.1, (collapseOf?_isSome_iff hne').2 ?_⟩
  rcases (collapseOf?_isSome_iff hne).1 hcollapsed.2 with ⟨id, hid⟩ | hconstant
  · exact Or.inl ⟨id, fun x hx => hid x ((mem_socketsAt_congr h).1 hx)⟩
  · exact Or.inr (takesConstant_of_mem_iff (fun x => (mem_socketsAt_congr h).symm) hconstant)

/-- A position that is generic in one order of the members is generic in any other. -/
lemma isGeneric_of_isGeneric (hs : s.Uniform) (ht : t.Uniform) (harity : t.arity = s.arity)
    (hgeneric : (s.analysis c).isGeneric index = true) {d : Category} :
    (t.analysis d).isGeneric index = true := by
  rw [isGeneric_analysis_iff, mem_genericPositions_iff (c := c) hs] at hgeneric
  rw [isGeneric_analysis_iff, mem_genericPositions_iff (c := d) ht]
  obtain ⟨⟨p, hp, q, hq, hdiffer⟩, hlinked⟩ := hgeneric
  refine ⟨⟨p, (h p).2 hp, q, (h q).2 hq, hdiffer⟩, harity ▸ hlinked.lt_arity, fun hcollapsed => ?_,
    fun p hp => hlinked.follows p ((h p).1 hp)⟩
  have hne : t.socketsAt index ≠ [] := socketsAt_ne_nil (harity ▸ hlinked.lt_arity)
  exact hlinked.not_collapsed
    (collapsed_of_collapsed (fun p => (h p).symm) harity.symm hne hcollapsed)

end Order

section Perm

variable {members : List OverloadMember} (h : members.Perm s.members)
include h

lemma mem_prototypes_of_perm (p : Prototype) :
    p ∈ (OverloadSet.mk s.baseName members).prototypes ↔ p ∈ s.prototypes :=
  (h.map _).mem_iff

lemma Uniform.of_perm (hs : s.Uniform) : (OverloadSet.mk s.baseName members).Uniform ∧
    (OverloadSet.mk s.baseName members).arity = s.arity := by
  have hne : members ≠ [] := by
    rintro rfl
    exact hs.nonempty h.symm.eq_nil
  obtain ⟨first, rest, rfl⟩ := List.exists_cons_of_ne_nil hne
  have harity : (OverloadSet.mk s.baseName (first :: rest)).arity = s.arity :=
    hs.arity_eq first.prototype ((mem_prototypes_of_perm h _).1 List.mem_cons_self)
  refine ⟨⟨hne, fun p hp => ?_⟩, harity⟩
  rw [harity]
  exact hs.arity_eq p ((mem_prototypes_of_perm h p).1 hp)

/-- The members in another order have an analysis when they have one in the given order. -/
lemma exists_analyze_of_perm (hs : s.Uniform)
    (hroles : ∀ index < s.arity, s.hasMixedRoles index = false) :
    ∃ d, (OverloadSet.mk s.baseName members).analyze.value
      = .ok ((OverloadSet.mk s.baseName members).analysis d) := by
  obtain ⟨ht, harity⟩ := hs.of_perm h
  obtain ⟨d, -, ⟨-, heq⟩ | ⟨index, fault, ⟨hindex, hmixed⟩, -⟩⟩ := analyze_cases ht.nonempty
  · exact ⟨d, by rw [heq]⟩
  · rw [hasMixedRoles_congr (mem_prototypes_of_perm h), hroles index (harity ▸ hindex)] at hmixed
    exact absurd hmixed Bool.false_ne_true

end Perm

/-- The analysis of a uniform set without a not-a-number unifies the defaults of the members. -/
lemma unifiesDefaults_analysis (hs : s.Uniform)
    (hdefined : ∀ p ∈ s.prototypes, ∀ x ∈ p.inputs, ∀ l ∈ x.default?, l.IsDefined)
    (hroles : ∀ index < s.arity, s.hasMixedRoles index = false) :
    (s.analysis c).UnifiesDefaults s where
  length_eq := by simp [analysis]
  isSome_iff := by
    intro index p hp
    obtain ⟨hindex, rfl⟩ := getElem?_positions_analysis_iff.1 hp
    exact isSome_default?_position_iff (socketsAt_ne_nil hindex)
      (isDefined_of_mem_socketsAt hdefined)
  agrees := by
    intro index p hp l hl x hx
    obtain ⟨-, rfl⟩ := getElem?_positions_analysis_iff.1 hp
    rw [Option.mem_def, default?_position (c := c)] at hl
    split_ifs at hl
    exact agrees_of_unifiedDefault? (isDefined_of_mem_socketsAt hdefined) hl hx
  perm := by
    intro members hperm
    obtain ⟨d, hd⟩ := exists_analyze_of_perm hperm hs hroles
    obtain ⟨ht, harity⟩ := hs.of_perm hperm
    have hmem := mem_prototypes_of_perm hperm
    refine ⟨_, hd, ?_⟩
    rw [analysis, analysis]
    dsimp only
    rw [List.map_map, List.map_map, harity]
    refine List.map_congr_left fun index hindex => ?_
    have hne : s.socketsAt index ≠ [] := socketsAt_ne_nil (List.mem_range.1 hindex)
    have hne' : (OverloadSet.mk s.baseName members).socketsAt index ≠ [] :=
      socketsAt_ne_nil (harity ▸ List.mem_range.1 hindex)
    have hgeneric : ((OverloadSet.mk s.baseName members).analysis d).isGeneric index
        = (s.analysis c).isGeneric index := by
      rw [Bool.eq_iff_iff]
      exact ⟨fun h => isGeneric_of_isGeneric (fun p => (hmem p).symm) ht hs harity.symm h,
        fun h => isGeneric_of_isGeneric hmem hs ht harity h⟩
    rw [Bool.eq_iff_iff, Function.comp_apply, Function.comp_apply,
      isSome_default?_position_iff (c := c) hne (isDefined_of_mem_socketsAt hdefined),
      isSome_default?_position_iff (c := d) hne'
        (isDefined_of_mem_socketsAt fun p hp => hdefined p ((hmem p).1 hp)),
      hgeneric, unifies_congr hmem]

end OverloadSet

/-- **The merge of defaults is exact and does not depend on the order of the members.**  A position
has a default when it is not generic and all members have one that their sockets can have, equal as
values; the default of the position is equal to all of them. -/
theorem analyze_unifiesDefaults {s : OverloadSet} (hs : s.Uniform)
    (hdefined : ∀ p ∈ s.prototypes, ∀ x ∈ p.inputs, ∀ l ∈ x.default?, l.IsDefined)
    {a : Analysis} (ha : s.analyze.value = .ok a) : a.UnifiesDefaults s := by
  obtain ⟨c, -, rfl, hroles⟩ := OverloadSet.eq_analysis_of_analyze hs.nonempty ha
  exact OverloadSet.unifiesDefaults_analysis hs hdefined hroles

/-! ## A family with zeros of both signs -/

/-- A node whose second input has a number as its default. -/
def rampNode (suffix dataType : String) (amount : Float) : Prototype :=
  { mixNode suffix dataType with
    inputs :=
      [plainSocket "fg" dataType .free,
        { plainSocket "amount" "float" .free with default? := some (.float amount) }] }

/-- Two nodes with zeros of different signs as defaults. -/
def rampSet : OverloadSet :=
  ⟨"ramp", [⟨some "_float", rampNode "_float" "float" 0⟩,
    ⟨some "_color3", rampNode "_color3" "color3f" (-0)⟩]⟩

theorem analyze_unifiesDefaults_ramp :
    (rampSet.analysis .numeric).UnifiesDefaults rampSet ∧
      (rampSet.analysis .numeric).positions.map (·.default?)
        = [none, some (.float (-0))] := by
  have huniform : rampSet.Uniform := ⟨by decide, by decide +kernel⟩
  have hdefined : ∀ p ∈ rampSet.prototypes, ∀ x ∈ p.inputs, ∀ l ∈ x.default?, l.IsDefined := by
    decide +kernel
  have hanalyze : rampSet.analyze.value = .ok (rampSet.analysis .numeric) := by decide +kernel
  exact ⟨analyze_unifiesDefaults huniform hdefined hanalyze, by decide +kernel⟩

end ShaderBindings
