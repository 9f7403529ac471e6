/-
# The join of categories is a least upper bound

The categories are ordered by how general they are: short vectors are above vectors and colors,
numbers are above scalars, matrices and short vectors, and a value is above everything.  The join
of some categories is found by a cascade of tests on the list.  Each test settles one kind of
lists with two different members, because two different categories that are both short vectors
have no upper bound below short vectors, and so on up the order.

A least upper bound depends on the members of the list alone, so order and repetition do not
matter, and a list can be joined in parts.  The report on a join is settled by the members as
well: its texts are those of the distinct members in an order that no two of them share.
-/
import Mathlib.Data.List.Nodup
import Mathlib.Data.List.Sort
import Mathlib.Data.Prod.Lex
import Mathlib.Data.String.Basic
import Mathlib.Logic.Relation
import Mathlib.Order.Bounds.Basic
import ShaderBindings.Category.Join
import ShaderBindings.Proofs.Registry

namespace ShaderBindings.Category

variable {c d u : Category} {cs cs' : List Category}

/-! ## The order -/

/-- The second category is the next more general one after the first. -/
inductive Widens : Category → Category → Prop where
  | vector : Widens .vector .simd
  | color : Widens .color .simd
  | scalar : Widens .scalar .numeric
  | matrix : Widens .matrix .numeric
  | simd : Widens .simd .numeric
  | value (c : Category) : Widens c .value

/-- The second category is reached from the first one by widening. -/
def Below : Category → Category → Prop := Relation.ReflTransGen Widens

/-- How far up a category stands. -/
def generality : Category → Nat
  | value => 3
  | numeric => 2
  | simd => 1
  | _ => 0

lemma Widens.eq_or_lt (h : c.Widens d) : c = d ∨ c.generality < d.generality := by
  cases h with
  | value => cases c <;> simp [generality]
  | _ => exact Or.inr (by decide)

lemma Below.eq_or_lt (h : c.Below d) : c = d ∨ c.generality < d.generality := by
  induction h with
  | refl => exact Or.inl rfl
  | tail _ hstep ih =>
    rcases ih with rfl | hlt
    · exact hstep.eq_or_lt
    · rcases hstep.eq_or_lt with rfl | hlt'
      · exact Or.inr hlt
      · exact Or.inr (hlt.trans hlt')

/-- Categories by how general they are. -/
instance : PartialOrder Category where
  le := Below
  le_refl := fun _ => .refl
  le_trans := fun _ _ _ => .trans
  le_antisymm := by
    intro c d hcd hdc
    rcases hcd.eq_or_lt with rfl | hlt
    · rfl
    · rcases hdc.eq_or_lt with rfl | hlt'
      · rfl
      · omega

lemma le_value (c : Category) : c ≤ .value := .single (.value c)

lemma le_simd_iff : c ≤ .simd ↔ c.isSimd = true := by
  constructor
  · intro h
    induction h using Relation.ReflTransGen.head_induction_on with
    | refl => rfl
    | head hstep _ ih =>
      cases hstep with
      | vector | color => rfl
      | scalar | matrix | simd | value => exact absurd ih Bool.false_ne_true
  · intro h
    cases c with
    | vector => exact .single .vector
    | color => exact .single .color
    | simd => exact .refl
    | _ => exact absurd h Bool.false_ne_true

lemma le_numeric_iff : c ≤ .numeric ↔ c.isNumeric = true := by
  constructor
  · intro h
    induction h using Relation.ReflTransGen.head_induction_on with
    | refl => rfl
    | head hstep _ ih =>
      cases hstep with
      | vector | color | scalar | matrix | simd => rfl
      | value => exact absurd ih Bool.false_ne_true
  · intro h
    cases c with
    | scalar => exact .single .scalar
    | matrix => exact .single .matrix
    | numeric => exact .refl
    | vector | color | simd => exact (le_simd_iff.2 rfl).trans (.single .simd)
    | _ => exact absurd h Bool.false_ne_true

/-- What is strictly above a category is short vectors, numbers or values. -/
lemma eq_of_lt (h : c < u) :
    (u = .simd ∧ c.isSimd = true) ∨ (u = .numeric ∧ c.isNumeric = true) ∨ u = .value := by
  obtain ⟨v, -, hstep⟩ : ∃ v, c ≤ v ∧ Widens v u := by
    rcases Relation.ReflTransGen.cases_tail h.le with heq | hstep
    · exact absurd heq.symm h.ne
    · exact hstep
  cases hstep with
  | vector | color => exact Or.inl ⟨rfl, le_simd_iff.1 h.le⟩
  | scalar | matrix | simd => exact Or.inr (Or.inl ⟨rfl, le_numeric_iff.1 h.le⟩)
  | value => exact Or.inr (Or.inr rfl)

/-! ## Upper bounds of two categories -/

/-- An upper bound of two different categories is strictly above one of them. -/
lemma lt_or_lt_of_ne (hne : c ≠ d) (hc : c ≤ u) (hd : d ≤ u) : c < u ∨ d < u := by
  rcases eq_or_lt_of_le hc with rfl | hlt
  · exact Or.inr (lt_of_le_of_ne hd hne.symm)
  · exact Or.inl hlt

lemma simd_le_of_ne (hne : c ≠ d) (hc : c ≤ u) (hd : d ≤ u) : simd ≤ u := by
  have habove : ∀ e : Category, e < u → simd ≤ u := by
    intro e he
    rcases eq_of_lt he with ⟨rfl, -⟩ | ⟨rfl, -⟩ | rfl
    · exact le_rfl
    · exact .single .simd
    · exact le_value _
  rcases lt_or_lt_of_ne hne hc hd with hlt | hlt
  · exact habove c hlt
  · exact habove d hlt

lemma numeric_le_of_ne (hne : c ≠ d) (hc : c ≤ u) (hd : d ≤ u) (hsimd : c.isSimd = false) :
    numeric ≤ u := by
  -- short vectors are above no category but short vectors
  have hnot : u ≠ .simd := by
    rintro rfl
    rw [le_simd_iff, hsimd] at hc
    exact absurd hc Bool.false_ne_true
  have habove : ∀ e : Category, e < u → numeric ≤ u := by
    intro e he
    rcases eq_of_lt he with ⟨rfl, -⟩ | ⟨rfl, -⟩ | rfl
    · exact absurd rfl hnot
    · exact le_rfl
    · exact le_value _
  rcases lt_or_lt_of_ne hne hc hd with hlt | hlt
  · exact habove c hlt
  · exact habove d hlt

lemma value_le_of_ne (hne : c ≠ d) (hc : c ≤ u) (hd : d ≤ u) (hnumeric : c.isNumeric = false) :
    value ≤ u := by
  have hnot : ∀ v : Category, v ≤ .numeric → u ≠ v := by
    rintro v hv rfl
    rw [le_numeric_iff.1 (hc.trans hv)] at hnumeric
    exact absurd hnumeric (by decide)
  have habove : ∀ e : Category, e < u → value ≤ u := by
    intro e he
    rcases eq_of_lt he with ⟨rfl, -⟩ | ⟨rfl, -⟩ | rfl
    · exact absurd rfl (hnot _ (.single .simd))
    · exact absurd rfl (hnot _ le_rfl)
    · exact le_rfl
  rcases lt_or_lt_of_ne hne hc hd with hlt | hlt
  · exact habove c hlt
  · exact habove d hlt

/-! ## Joins -/

/-- The list has two different members. -/
def Varied (cs : List Category) : Prop := ∃ c ∈ cs, ∃ d ∈ cs, c ≠ d

/-- A varied list has a member other than a given category. -/
lemma Varied.exists_ne (h : Varied cs) (c : Category) : ∃ d ∈ cs, c ≠ d := by
  obtain ⟨a, ha, b, hb, hab⟩ := h
  by_cases hca : c = a
  · exact ⟨b, hb, hca ▸ hab⟩
  · exact ⟨a, ha, hca⟩

lemma mem_distinct : c ∈ distinct cs ↔ c ∈ cs := List.mem_eraseDups

/-- A list is empty, or repeats one category, or is varied. -/
lemma distinct_cases (cs : List Category) :
    (distinct cs = [] ∧ cs = []) ∨ (∃ c ∈ cs, distinct cs = [c] ∧ ∀ d ∈ cs, d = c) ∨
      ∃ a b rest, distinct cs = a :: b :: rest ∧ Varied cs := by
  rcases h : distinct cs with _ | ⟨a, _ | ⟨b, rest⟩⟩
  · refine Or.inl ⟨rfl, List.eq_nil_iff_forall_not_mem.2 fun c hc => ?_⟩
    rw [← mem_distinct, h] at hc
    exact absurd hc List.not_mem_nil
  · refine Or.inr (Or.inl ⟨a, mem_distinct.1 (by simp [h]), rfl, fun d hd => ?_⟩)
    rw [← mem_distinct, h] at hd
    exact List.mem_singleton.1 hd
  · refine Or.inr (Or.inr ⟨a, b, rest, rfl, a, mem_distinct.1 (by simp [h]), b,
      mem_distinct.1 (by simp [h]), ?_⟩)
    rintro rfl
    have hnodup : (a :: a :: rest).Nodup := h ▸ nodup_eraseDups cs
    simp at hnodup

lemma all_distinct (p : Category → Bool) : (distinct cs).all p = cs.all p := by
  rw [Bool.eq_iff_iff]
  simp [List.all_eq_true, mem_distinct]

/-- The join of a varied list. -/
lemma join?_of_varied (h : Varied cs) : join? cs
    = some (if cs.all isSimd then simd else if cs.all isNumeric then numeric else value) := by
  rcases distinct_cases cs with ⟨-, rfl⟩ | ⟨c, -, -, hall⟩ | ⟨a, b, rest, hdistinct, -⟩
  · obtain ⟨c, hc, -⟩ := h
    exact absurd hc List.not_mem_nil
  · obtain ⟨d, hd, hne⟩ := h.exists_ne c
    exact absurd (hall d hd).symm hne
  · have hsimd : (distinct cs).all isSimd = cs.all isSimd := all_distinct isSimd
    have hnumeric : (distinct cs).all isNumeric = cs.all isNumeric := all_distinct isNumeric
    rw [hdistinct] at hsimd hnumeric
    simp only [join?, hdistinct, hsimd, hnumeric]
    split_ifs <;> rfl

/-- The join of some categories is their least upper bound. -/
lemma isLUB_of_join? (h : join? cs = some c) : IsLUB {d | d ∈ cs} c := by
  rcases distinct_cases cs with ⟨hdistinct, -⟩ | ⟨a, ha, hdistinct, hall⟩ | ⟨a, b, rest, -, hvaried⟩
  · simp [join?, hdistinct] at h
  -- the list repeats one category
  · obtain rfl : a = c := by simpa [join?, hdistinct] using h
    exact ⟨fun d hd => (hall d hd).le, fun u hu => hu ha⟩
  · rw [join?_of_varied hvaried] at h
    obtain rfl := Option.some.inj h
    obtain ⟨x, hx, y, hy, hne⟩ := id hvaried
    split_ifs with hsimd hnumeric
    -- all are short vectors
    · exact ⟨fun d hd => le_simd_iff.2 (List.all_eq_true.1 hsimd d hd),
        fun u hu => simd_le_of_ne hne (hu hx) (hu hy)⟩
    -- all are numbers, and one is no short vector
    · refine ⟨fun d hd => le_numeric_iff.2 (List.all_eq_true.1 hnumeric d hd), fun u hu => ?_⟩
      obtain ⟨e, he, hesimd⟩ : ∃ e ∈ cs, e.isSimd = false := by simpa using hsimd
      obtain ⟨e', he', hne'⟩ := hvaried.exists_ne e
      exact numeric_le_of_ne hne' (hu he) (hu he') hesimd
    -- one is no number
    · refine ⟨fun d _ => le_value d, fun u hu => ?_⟩
      obtain ⟨e, he, henumeric⟩ : ∃ e ∈ cs, e.isNumeric = false := by simpa using hnumeric
      obtain ⟨e', he', hne'⟩ := hvaried.exists_ne e
      exact value_le_of_ne hne' (hu he) (hu he') henumeric

lemma join?_eq_none_iff : join? cs = none ↔ cs = [] := by
  constructor
  · intro h
    rcases distinct_cases cs with ⟨-, hnil⟩ | ⟨c, -, hdistinct, -⟩ | ⟨a, b, rest, -, hvaried⟩
    · exact hnil
    · simp [join?, hdistinct] at h
    · rw [join?_of_varied hvaried] at h
      exact absurd h (by simp)
  · rintro rfl
    rfl

lemma exists_join? (hne : cs ≠ []) : ∃ c, join? cs = some c :=
  Option.ne_none_iff_exists'.1 (mt join?_eq_none_iff.1 hne)

/-- The join of some categories is whatever is their least upper bound. -/
lemma join?_eq_some_of_isLUB (hne : cs ≠ []) (h : IsLUB {d | d ∈ cs} c) : join? cs = some c := by
  obtain ⟨c', hc'⟩ := exists_join? hne
  rw [hc', (isLUB_of_join? hc').unique h]

/-- A category that is at most another one is joined to it. -/
lemma join?_pair_of_le (h : c ≤ d) : join? [c, d] = some d := by
  refine join?_eq_some_of_isLUB (List.cons_ne_nil c [d]) ⟨fun e he => ?_, fun u hu => hu (by simp)⟩
  have hcases : e = c ∨ e = d := by simpa using he
  rcases hcases with rfl | rfl
  · exact h
  · exact le_rfl

/-- Only an enumeration is below an enumeration, so a join is one only of itself. -/
lemma mem_of_join?_eq_enumerated {id : Nat} (h : join? cs = some (.enumerated id)) :
    .enumerated id ∈ cs := by
  have hne : cs ≠ [] := by
    rintro rfl
    exact absurd h (by simp [join?, distinct])
  obtain ⟨c, hc⟩ := List.exists_mem_of_ne_nil cs hne
  rcases eq_or_lt_of_le ((isLUB_of_join? h).1 hc) with rfl | hlt
  · exact hc
  · rcases eq_of_lt hlt with ⟨heq, -⟩ | ⟨heq, -⟩ | heq <;> exact absurd heq (by simp)

/-- The order and the repetitions of the categories do not matter. -/
lemma join?_congr (h : ∀ c, c ∈ cs ↔ c ∈ cs') : join? cs = join? cs' := by
  rcases eq_or_ne cs [] with rfl | hne
  · have hnil : cs' = [] := List.eq_nil_iff_forall_not_mem.2 fun c hc => by simpa using (h c).2 hc
    rw [hnil]
  · obtain ⟨c, hc⟩ := exists_join? hne
    have hne' : cs' ≠ [] := by
      rintro rfl
      exact hne (List.eq_nil_iff_forall_not_mem.2 fun c hc => by simpa using (h c).1 hc)
    have hset : {d | d ∈ cs'} = {d | d ∈ cs} := Set.ext fun d => (h d).symm
    rw [hc, join?_eq_some_of_isLUB hne' (hset ▸ isLUB_of_join? hc)]

/-- Some categories can be joined in two parts. -/
lemma join?_append (hc : join? cs = some c) (hd : join? cs' = some d) :
    join? (cs ++ cs') = join? [c, d] := by
  have hne : cs ++ cs' ≠ [] := by
    intro hnil
    rw [(List.append_eq_nil_iff.1 hnil).1] at hc
    exact absurd hc (by simp [join?, distinct])
  obtain ⟨u, hu⟩ := exists_join? (List.cons_ne_nil c [d])
  rw [hu]
  refine join?_eq_some_of_isLUB hne ⟨fun e he => ?_, fun v hv => ?_⟩
  -- an upper bound of the joins is one of the parts
  · rcases List.mem_append.1 he with he | he
    · exact ((isLUB_of_join? hc).1 he).trans ((isLUB_of_join? hu).1 (by simp))
    · exact ((isLUB_of_join? hd).1 he).trans ((isLUB_of_join? hu).1 (by simp))
  -- and the other way round
  · refine (isLUB_of_join? hu).2 fun e he => ?_
    have hcases : e = c ∨ e = d := by simpa using he
    rcases hcases with rfl | rfl
    · exact (isLUB_of_join? hc).2 fun a ha => hv (List.mem_append_left _ ha)
    · exact (isLUB_of_join? hd).2 fun a ha => hv (List.mem_append_right _ ha)

/-! ## Reports -/

/-- The concrete families, which are values without further ado. -/
def baseFamilies : List Category :=
  [.scalar, .vector, .color, .matrix, .string, .texture, .numeric, .simd]

lemma isBaseFamily_iff : c.isBaseFamily = true ↔ c ∈ baseFamilies := by
  cases c <;> simp [isBaseFamily, baseFamilies]

/-- The categories have nothing in common but that they are values: they differ, they are not all
numbers, and they are not values together with concrete families. -/
structure Unrelated (cs : List Category) : Prop where
  varied : ∃ c ∈ cs, ∃ d ∈ cs, c ≠ d
  not_numeric : ¬ ∀ c ∈ cs, c ≤ .numeric
  not_based : ¬ (.value ∈ cs ∧ ∀ c ∈ cs, c = .value ∨ c ∈ baseFamilies)

lemma isWidening_iff : isWidening cs = true ↔ Unrelated cs := by
  rcases distinct_cases cs with
    ⟨-, rfl⟩ | ⟨c, -, hdistinct, hall⟩ | ⟨a, b, rest, hdistinct, hvaried⟩
  · refine iff_of_false (by simp [isWidening, distinct]) fun h => ?_
    obtain ⟨c, hc, -⟩ := h.varied
    exact absurd hc List.not_mem_nil
  · refine iff_of_false (by simp [isWidening, hdistinct]) fun h => ?_
    obtain ⟨d, hd, hne⟩ := Varied.exists_ne h.varied c
    exact hne (hall d hd).symm
  · have hnumeric : cs.all isNumeric = true ↔ ∀ c ∈ cs, c ≤ .numeric := by
      simp [List.all_eq_true, le_numeric_iff]
    have hbased : (cs.contains value && cs.all fun c => c = value || c.isBaseFamily) = true
        ↔ .value ∈ cs ∧ ∀ c ∈ cs, c = .value ∨ c ∈ baseFamilies := by
      simp [List.all_eq_true, isBaseFamily_iff]
    have hwidening : isWidening cs = !(cs.all isNumeric
        || (cs.contains value && cs.all fun c => c = value || c.isBaseFamily)) := by
      have hcontains : (distinct cs).contains value = cs.contains value := by
        rw [Bool.eq_iff_iff, List.contains_iff_mem, List.contains_iff_mem, mem_distinct]
      rw [← all_distinct isNumeric, ← all_distinct fun c => c = value || c.isBaseFamily,
        ← hcontains, hdistinct]
      simp only [isWidening, hdistinct]
    rw [hwidening, Bool.not_eq_true', ← Bool.not_eq_true, Bool.or_eq_true, hnumeric, hbased, not_or]
    exact ⟨fun h => ⟨hvaried, h.1, h.2⟩, fun h => ⟨h.not_numeric, h.not_based⟩⟩

/-- What the order of categories in lists compares. -/
def orderKey : Category → ℕ ×ₗ ℕ ×ₗ String
  | enumerated id => toLex (9, toLex (id, ""))
  | unknown raw => toLex (10, toLex (0, raw))
  | c => toLex (c.precedence, toLex (0, ""))

lemma atMost_iff : c.atMost d = true ↔ c.orderKey ≤ d.orderKey := by
  cases c <;> cases d <;> simp [atMost, orderKey, precedence, Prod.Lex.le_iff, Nat.le_iff_lt_or_eq]

lemma orderKey_injective : Function.Injective orderKey := by
  intro c d h
  cases c <;> cases d <;> simp_all [orderKey, precedence]

lemma sorted_distinct (cs : List Category) :
    ((distinct cs).mergeSort atMost).Pairwise fun c d => c.orderKey ≤ d.orderKey := by
  have htrans : ∀ a b c : Category, a.atMost b = true → b.atMost c = true → a.atMost c = true := by
    intro a b c hab hbc
    exact atMost_iff.2 ((atMost_iff.1 hab).trans (atMost_iff.1 hbc))
  have htotal : ∀ a b : Category, (a.atMost b || b.atMost a) = true := by
    intro a b
    rw [Bool.or_eq_true, atMost_iff, atMost_iff]
    exact le_total _ _
  exact (List.pairwise_mergeSort htrans htotal (distinct cs)).imp atMost_iff.1

lemma texts_congr (h : ∀ c, c ∈ cs ↔ c ∈ cs') : texts cs = texts cs' := by
  have hperm : (distinct cs).Perm (distinct cs') := by
    refine (List.perm_ext_iff_of_nodup (nodup_eraseDups cs) (nodup_eraseDups cs')).2 fun c => ?_
    rw [List.mem_eraseDups, List.mem_eraseDups, h]
  have hsorted : ((distinct cs).mergeSort atMost).Perm ((distinct cs').mergeSort atMost) :=
    (List.mergeSort_perm _ _).trans (hperm.trans (List.mergeSort_perm _ _).symm)
  have heq := hsorted.eq_of_pairwise (fun _ _ _ _ hcd hdc => orderKey_injective (hcd.antisymm hdc))
    (sorted_distinct cs) (sorted_distinct cs')
  rw [texts, texts, heq]

lemma unrelated_congr (h : ∀ c, c ∈ cs ↔ c ∈ cs') (hcs : Unrelated cs) : Unrelated cs' where
  varied := by simpa only [h] using hcs.varied
  not_numeric := by simpa only [h] using hcs.not_numeric
  not_based := by simpa only [h] using hcs.not_based

lemma joinReport_of_ne_nil {context : String} (h : cs ≠ []) :
    joinReport context cs
      = if isWidening cs then [.unjoinableCategories context (texts cs)] else [] := by
  rw [joinReport, if_neg (by simpa using h)]

lemma join_of_join?_eq_some {context : String} (h : join? cs = some c) :
    (join context cs).value = .ok c := by
  simp only [join, h]

/-- Joins of the same categories are one, with the reports. -/
lemma join_congr (context : String) (h : ∀ c, c ∈ cs ↔ c ∈ cs') :
    join context cs = join context cs' := by
  have hempty : cs.isEmpty = cs'.isEmpty := by
    rw [Bool.eq_iff_iff, List.isEmpty_iff, List.isEmpty_iff, ← join?_eq_none_iff,
      ← join?_eq_none_iff, join?_congr h]
  have hwidening : isWidening cs = isWidening cs' := by
    rw [Bool.eq_iff_iff, isWidening_iff, isWidening_iff]
    exact ⟨unrelated_congr h, unrelated_congr fun c => (h c).symm⟩
  simp only [join, joinReport, join?_congr h, hempty, hwidening, texts_congr h]

/-! ## The laws of joins -/

/-- What a join of categories and the report on it are to be. -/
structure IsJoin (context : String) (joined : List Category → Reported (Except Fault Category)) :
    Prop where
  /-- Some categories have their least upper bound. -/
  isLUB : ∀ cs ≠ [], ∃ c, (joined cs).value = .ok c ∧ IsLUB {d | d ∈ cs} c
  /-- The order and the repetitions of the categories do not matter, for the report either. -/
  congr : ∀ cs cs', (∀ c, c ∈ cs ↔ c ∈ cs') → joined cs = joined cs'
  /-- Some categories can be joined in two parts. -/
  append : ∀ cs cs' c d, (joined cs).value = .ok c → (joined cs').value = .ok d →
    (joined (cs ++ cs')).value = (joined [c, d]).value
  /-- The join of unrelated categories has one warning. -/
  warned : ∀ cs, Unrelated cs → ∃ d, (joined cs).diagnostics = [d] ∧
    d = .unjoinableCategories context (texts cs) ∧ d.severity = .warning
  /-- No other join has a report. -/
  silent : ∀ cs ≠ [], ¬ Unrelated cs → (joined cs).diagnostics = []
  /-- Without categories there is a fault, and one fatal report. -/
  empty : ∃ fault d, joined [] = ⟨.error fault, [d]⟩ ∧ d.isFatal = true

/-- **The join of categories is their least upper bound.**  Vectors and colors are below short
vectors, these and scalars and matrices below numbers, and everything below values. -/
theorem join_isJoin (context : String) : IsJoin context (join context) where
  isLUB := by
    intro cs hne
    obtain ⟨c, hc⟩ := exists_join? hne
    exact ⟨c, join_of_join?_eq_some hc, isLUB_of_join? hc⟩
  congr := fun _ _ h => join_congr context h
  append := by
    have hjoin? : ∀ {cs c}, (join context cs).value = .ok c → join? cs = some c := by
      intro cs c h
      rcases hfound : join? cs with _ | found
      · simp [join, hfound] at h
      · rw [join_of_join?_eq_some hfound] at h
        rw [Except.ok.inj h]
    intro cs cs' c d hc hd
    have happend := join?_append (hjoin? hc) (hjoin? hd)
    obtain ⟨u, hu⟩ := exists_join? (List.cons_ne_nil c [d])
    rw [join_of_join?_eq_some hu, join_of_join?_eq_some (happend.trans hu)]
  warned := by
    intro cs h
    have hne : cs ≠ [] := by
      rintro rfl
      obtain ⟨c, hc, -⟩ := h.varied
      exact absurd hc List.not_mem_nil
    refine ⟨_, ?_, rfl, rfl⟩
    show joinReport context cs = _
    rw [joinReport_of_ne_nil hne, if_pos (isWidening_iff.2 h)]
  silent := by
    intro cs hne h
    show joinReport context cs = _
    rw [joinReport_of_ne_nil hne, if_neg (mt isWidening_iff.1 h)]
  empty := ⟨_, _, rfl, rfl⟩

end ShaderBindings.Category
