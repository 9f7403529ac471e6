/-
# Sorted dictionaries

A dictionary that is built with `alter`, `insert` and `erase` from the empty one is sorted.  In a
sorted dictionary a key stands at most once, so that looking a key up finds every entry, and each
of the operations is described, up to the order of the entries, by one entry that comes and one
that goes:

* `alter key f` replaces the entry of `key`, when there is one, by what `f` makes of it;
* `erase key` removes the entry of `key`.
-/
import Mathlib.Data.List.Perm.Basic
import Mathlib.Data.List.Sort
import Mathlib.Data.String.Basic
import ShaderBindings.Dictionary

namespace ShaderBindings

section Entries

variable {κ α : Type _} [BEq κ] [LawfulBEq κ] {p q : κ}

/-- Without the entries of one key, the other keys are found as before. -/
lemma lookup_filter_of_ne (entries : List (κ × α)) (h : q ≠ p) :
    (entries.filter fun entry => entry.1 != p).lookup q = entries.lookup q := by
  induction entries with
  | nil => rfl
  | cons entry rest ih =>
    obtain ⟨key, found⟩ := entry
    by_cases hkey : key = p
    · rw [List.filter_cons_of_neg (by simpa using hkey), ih, List.lookup_cons,
        beq_false_of_ne (hkey ▸ h)]
    · rw [List.filter_cons_of_pos (by simpa using hkey), List.lookup_cons, List.lookup_cons, ih]

lemma lookup_filter_self (entries : List (κ × α)) (p : κ) :
    (entries.filter fun entry => entry.1 != p).lookup p = none := by
  rw [List.lookup_eq_none_iff]
  intro entry hentry
  have hne : entry.1 ≠ p := by simpa using (List.mem_filter.1 hentry).2
  exact bne_iff_ne.2 hne.symm

end Entries

namespace Dictionary

variable {α : Type _} {d : Dictionary α} {key : String} {v : α}

lemma sorted_nil : Sorted ([] : Dictionary α) := List.Pairwise.nil

lemma sorted_cons_iff {entry : String × α} :
    Sorted (entry :: d) ↔ (∀ other ∈ d, entry.1 < other.1) ∧ Sorted d :=
  List.pairwise_cons

/-! ## Looking up -/

lemma get?_cons (entry : String × α) :
    get? (entry :: d) key = if key = entry.1 then some entry.2 else get? d key := by
  obtain ⟨k, w⟩ := entry
  by_cases hk : key = k
  · simp [get?, hk]
  · simp [get?, List.lookup_cons, beq_false_of_ne hk, hk]

lemma mem_of_get? (h : d.get? key = some v) : (key, v) ∈ d := by
  induction d with
  | nil => simp [get?] at h
  | cons entry d ih =>
    rw [get?_cons] at h
    by_cases hk : key = entry.1
    · rw [if_pos hk, Option.some.injEq] at h
      rw [hk, ← h]
      exact List.mem_cons_self
    · rw [if_neg hk] at h
      exact List.mem_cons_of_mem _ (ih h)

lemma get?_eq_none_iff : d.get? key = none ↔ ∀ entry ∈ d, entry.1 ≠ key := by
  induction d with
  | nil => simp [get?]
  | cons entry d ih =>
    rw [get?_cons]
    by_cases hk : key = entry.1
    · simp [hk]
    · simp [hk, ih, Ne.symm hk]

/-- In a sorted dictionary every entry is found under its key. -/
lemma Sorted.get?_of_mem (h : d.Sorted) (hm : (key, v) ∈ d) : d.get? key = some v := by
  induction d with
  | nil => simp at hm
  | cons entry d ih =>
    obtain ⟨hlt, hd⟩ := sorted_cons_iff.1 h
    rw [get?_cons]
    rcases List.mem_cons.1 hm with rfl | hm
    · simp
    · rw [if_neg (hlt _ hm).ne']
      exact ih hd hm

/-! ## Removing an entry -/

lemma mem_erase_iff {entry : String × α} : entry ∈ d.erase key ↔ entry ∈ d ∧ entry.1 ≠ key := by
  simp [erase]

lemma erase_cons (entry : String × α) :
    erase (entry :: d) key = if entry.1 = key then erase d key else entry :: erase d key := by
  by_cases hk : entry.1 = key
  · simp [erase, hk]
  · simp [erase, hk]

lemma get?_erase_of_ne {k : String} (h : k ≠ key) : (d.erase key).get? k = d.get? k :=
  lookup_filter_of_ne d h

lemma get?_erase_self (d : Dictionary α) (key : String) : (d.erase key).get? key = none :=
  lookup_filter_self d key

lemma Sorted.filter (h : d.Sorted) (p : String × α → Bool) : Sorted (List.filter p d) :=
  List.Pairwise.filter p h

lemma Sorted.erase (h : d.Sorted) (key : String) : (d.erase key).Sorted := h.filter _

lemma erase_of_get?_eq_none (h : d.get? key = none) : d.erase key = d := by
  rw [Dictionary.erase, List.filter_eq_self]
  intro entry hentry
  simpa using get?_eq_none_iff.1 h entry hentry

/-- A sorted dictionary is the entry of a key and the rest. -/
lemma Sorted.perm_of_get? (h : d.Sorted) (hg : d.get? key = some v) :
    d.Perm ((key, v) :: d.erase key) := by
  induction d with
  | nil => simp [get?] at hg
  | cons entry d ih =>
    obtain ⟨hlt, hd⟩ := sorted_cons_iff.1 h
    rw [get?_cons] at hg
    by_cases hk : key = entry.1
    · rw [if_pos hk, Option.some.injEq] at hg
      have hentry : entry = (key, v) := by rw [hk, ← hg]
      have hrest : get? d key = none :=
        get?_eq_none_iff.2 fun other hother => hk ▸ (hlt other hother).ne'
      rw [erase_cons, if_pos hk.symm, erase_of_get?_eq_none hrest, hentry]
    · rw [if_neg hk] at hg
      rw [erase_cons, if_neg (Ne.symm hk)]
      exact ((ih hd hg).cons entry).trans (List.Perm.swap _ _ _)

/-! ## Changing an entry -/

/-- Changing the value of a key puts one entry in the place of the former one. -/
lemma Sorted.alter_perm (h : d.Sorted) (key : String) (f : Option α → α) :
    (d.alter key f).Perm ((key, f (d.get? key)) :: d.erase key) := by
  induction d with
  | nil => simp [Dictionary.alter, get?, Dictionary.erase]
  | cons entry d ih =>
    obtain ⟨hlt, hd⟩ := sorted_cons_iff.1 h
    rw [alter, get?_cons]
    by_cases hless : key < entry.1
    · have hnone : get? (entry :: d) key = none := by
        refine get?_eq_none_iff.2 fun other hother => ?_
        rcases List.mem_cons.1 hother with rfl | hother
        · exact hless.ne'
        · exact (hless.trans (hlt other hother)).ne'
      rw [if_pos hless, ← get?_cons, hnone, erase_of_get?_eq_none hnone]
    · rw [if_neg hless]
      by_cases hk : key = entry.1
      · have hrest : get? d key = none :=
          get?_eq_none_iff.2 fun other hother => hk ▸ (hlt other hother).ne'
        rw [if_pos hk, if_pos hk, erase_cons, if_pos hk.symm, erase_of_get?_eq_none hrest]
      · rw [if_neg hk, if_neg hk, erase_cons, if_neg (Ne.symm hk)]
        exact ((ih hd).cons entry).trans (List.Perm.swap _ _ _)

lemma Sorted.mem_alter_iff (h : d.Sorted) {f : Option α → α} {entry : String × α} :
    entry ∈ d.alter key f ↔ entry = (key, f (d.get? key)) ∨ (entry ∈ d ∧ entry.1 ≠ key) := by
  rw [(h.alter_perm key f).mem_iff, List.mem_cons, mem_erase_iff]

lemma Sorted.alter (h : d.Sorted) (key : String) (f : Option α → α) : (d.alter key f).Sorted := by
  induction d with
  | nil => exact List.pairwise_singleton _ _
  | cons entry d ih =>
    obtain ⟨hlt, hd⟩ := sorted_cons_iff.1 h
    rw [Dictionary.alter]
    by_cases hless : key < entry.1
    · rw [if_pos hless]
      refine sorted_cons_iff.2 ⟨fun other hother => ?_, h⟩
      rcases List.mem_cons.1 hother with rfl | hother
      · exact hless
      · exact hless.trans (hlt other hother)
    · rw [if_neg hless]
      by_cases hk : key = entry.1
      · rw [if_pos hk]
        exact sorted_cons_iff.2 ⟨fun other hother => hk ▸ hlt other hother, hd⟩
      · rw [if_neg hk]
        refine sorted_cons_iff.2 ⟨fun other hother => ?_, ih hd⟩
        rcases hd.mem_alter_iff.1 hother with rfl | ⟨hother, -⟩
        · exact lt_of_le_of_ne (not_lt.1 hless) (Ne.symm hk)
        · exact hlt other hother

/-- Changing the value of a key changes what is found under that key and nothing else. -/
lemma Sorted.get?_alter (h : d.Sorted) (key : String) (f : Option α → α) (k : String) :
    (d.alter key f).get? k = if k = key then some (f (d.get? key)) else d.get? k := by
  by_cases hk : k = key
  · rw [if_pos hk, hk]
    exact (h.alter key f).get?_of_mem (h.mem_alter_iff.2 (Or.inl rfl))
  · rw [if_neg hk]
    rcases hg : d.get? k with _ | v
    · refine get?_eq_none_iff.2 fun entry hentry heq => ?_
      rcases h.mem_alter_iff.1 hentry with rfl | ⟨hmem, -⟩
      · exact hk heq.symm
      · exact get?_eq_none_iff.1 hg entry hmem heq
    · exact (h.alter key f).get?_of_mem (h.mem_alter_iff.2 (Or.inr ⟨mem_of_get? hg, hk⟩))

/-- A key that is new gets its value, and every other key keeps its own, in whatever order the
entries stand. -/
lemma get?_alter_of_none (h : d.get? key = none) (f : Option α → α) (k : String) :
    (d.alter key f).get? k = if k = key then some (f none) else d.get? k := by
  induction d with
  | nil => exact get?_cons _
  | cons entry d ih =>
    rw [get?_cons] at h
    split_ifs at h with hk
    rw [Dictionary.alter, if_neg hk]
    by_cases hless : key < entry.1
    · rw [if_pos hless, get?_cons]
    · rw [if_neg hless, get?_cons, get?_cons, ih h]
      by_cases hfirst : k = entry.1
      · rw [if_pos hfirst, if_pos hfirst, if_neg fun heq => hk (heq.symm.trans hfirst)]
      · rw [if_neg hfirst, if_neg hfirst]

lemma get?_insert_of_none (h : d.get? key = none) (v : α) (k : String) :
    (d.insert key v).get? k = if k = key then some v else d.get? k :=
  get?_alter_of_none h _ k

lemma Sorted.insert (h : d.Sorted) (key : String) (v : α) : (d.insert key v).Sorted := h.alter key _

lemma Sorted.insert_perm (h : d.Sorted) (key : String) (v : α) :
    (d.insert key v).Perm ((key, v) :: d.erase key) := h.alter_perm key _

/-! ## Other values under the same keys -/

section MapValues

variable {β : Type _}

/-- The dictionary with another value under each key. -/
def mapValues (f : α → β) (d : Dictionary α) : Dictionary β :=
  List.map (fun entry => (entry.1, f entry.2)) d

variable (d) (f : α → β)

lemma keys_mapValues : (d.mapValues f).keys = d.keys := List.map_map

lemma values_mapValues : (d.mapValues f).values = d.values.map f := by
  rw [values, values, mapValues, List.map_map, List.map_map]
  rfl

lemma get?_mapValues (key : String) : (d.mapValues f).get? key = (d.get? key).map f := by
  induction d with
  | nil => rfl
  | cons entry d ih =>
    rw [mapValues, List.map_cons, get?_cons, get?_cons]
    split_ifs
    · rfl
    · exact ih

lemma mapValues_filter {p : String × α → Bool} {q : String × β → Bool}
    (h : ∀ entry, p entry = q (entry.1, f entry.2)) :
    mapValues f (List.filter p d) = List.filter q (d.mapValues f) := by
  rw [mapValues, mapValues, List.filter_map]
  exact congrArg _ (List.filter_congr fun entry _ => h entry)

lemma mapValues_erase (key : String) : (d.erase key).mapValues f = (d.mapValues f).erase key :=
  mapValues_filter d f fun _ => rfl

lemma mapValues_alter (key : String) {g : Option α → α} {g' : Option β → β}
    (h : ∀ found, f (g found) = g' (found.map f)) :
    (d.alter key g).mapValues f = (d.mapValues f).alter key g' := by
  induction d with
  | nil => exact congrArg (fun v => [(key, v)]) (h none)
  | cons entry d ih =>
    rw [alter, mapValues, mapValues, List.map_cons, alter]
    split_ifs
    · exact congrArg (fun v => (key, v) :: _) (h none)
    · exact congrArg (fun v => (key, v) :: _) (h (some entry.2))
    · exact congrArg _ ih

lemma mapValues_insert (key : String) (v : α) :
    (d.insert key v).mapValues f = (d.mapValues f).insert key (f v) :=
  mapValues_alter d f key fun _ => rfl

end MapValues

/-! ## Comparing dictionaries -/

variable {d' : Dictionary α}

/-- A sorted dictionary with some of the entries of another one lists them in the same order. -/
lemma Sorted.sublist_of_subset (h : d.Sorted) (h' : d'.Sorted) (hsubset : d ⊆ d') :
    d.Sublist d' := by
  have : Std.Antisymm fun a b : String × α => a.1 < b.1 := ⟨fun _ _ hab hba => absurd hab hba.asymm⟩
  have hnodup : d.Nodup := h.imp fun hlt heq => hlt.ne (congrArg Prod.fst heq)
  exact List.sublist_of_subperm_of_pairwise (List.subperm_of_subset hnodup hsubset) h h'

/-- Sorted dictionaries in which every key has the same value are equal. -/
lemma Sorted.ext_get? (h : d.Sorted) (h' : d'.Sorted) (hget : ∀ k, d.get? k = d'.get? k) :
    d = d' := by
  have hsubset : ∀ {a b : Dictionary α}, a.Sorted → (∀ k, a.get? k = b.get? k) → a ⊆ b := by
    intro a b ha hab entry hentry
    have hfound : a.get? entry.1 = some entry.2 := ha.get?_of_mem hentry
    exact mem_of_get? (hab entry.1 ▸ hfound)
  have hsub := h.sublist_of_subset h' (hsubset h hget)
  have hsub' := h'.sublist_of_subset h (hsubset h' fun k => (hget k).symm)
  exact hsub.antisymm hsub'

end Dictionary

end ShaderBindings
