/-
# Computations that may fail

Loading a prim answers with a value or refuses its metadata, and the stages after the synthesis
answer with a value or a fault.  The statements about them take a chain of such computations
apart, step by step, and put it together again.
-/
import Mathlib.Data.List.Forall2
import ShaderBindings.Fault

namespace ShaderBindings.Fault

variable {ε α β : Type}

lemma bind_eq_ok_iff {x : Except ε α} {f : α → Except ε β} {b : β} :
    (x >>= f) = .ok b ↔ ∃ a, x = .ok a ∧ f a = .ok b := by
  cases x with
  | error fault => simp [bind, Except.bind]
  | ok a => simp [bind, Except.bind]

lemma ok_bind (a : α) (f : α → Except ε β) : (Except.ok a >>= f) = f a := rfl

/-- A step in front does not matter when what follows it looks the same through `k`. -/
lemma bind_eq_map_bind {γ : Type} {x : Except ε α} {f : α → Except ε β} {g : α → Except ε γ}
    {k : γ → β} (h : ∀ a, f a = (g a).map k) : (x >>= f) = (x >>= g).map k := by
  rcases x with fault | a
  · rfl
  · exact h a

lemma map_eq_ok_iff {x : Except ε α} {f : α → β} {b : β} :
    x.map f = .ok b ↔ ∃ a, x = .ok a ∧ f a = b := by
  cases x with
  | error fault => simp [Except.map]
  | ok a => simp [Except.map]

/-- Two computations that look the same through `f` fail alike, or have results that look the
same. -/
lemma map_eq_map_cases {x y : Except ε α} {f : α → β} (h : x.map f = y.map f) :
    (∃ e, x = .error e ∧ y = .error e) ∨ ∃ a b, x = .ok a ∧ y = .ok b ∧ f a = f b := by
  rcases x with e | a <;> rcases y with e' | b
  · exact Or.inl ⟨e, rfl, congrArg Except.error (Except.error.inj h).symm⟩
  · exact absurd h (by simp [Except.map])
  · exact absurd h (by simp [Except.map])
  · exact Or.inr ⟨a, b, rfl, rfl, Except.ok.inj h⟩

lemma toOption_eq_some_iff {x : Except ε α} {a : α} : x.toOption = some a ↔ x = .ok a := by
  cases x with
  | error fault => simp [Except.toOption]
  | ok a => simp [Except.toOption]

/-- A traversal succeeds with the results of the items. -/
lemma mapM_eq_ok_iff {f : α → Except ε β} {l : List α} {ys : List β} :
    l.mapM f = .ok ys ↔ List.Forall₂ (fun x y => f x = .ok y) l ys := by
  induction l generalizing ys with
  | nil => cases ys <;> simp [pure, Except.pure]
  | cons x rest ih =>
    rw [List.mapM_cons, bind_eq_ok_iff, List.forall₂_cons_left_iff]
    constructor
    · rintro ⟨y, hy, h⟩
      obtain ⟨tail, htail, h⟩ := bind_eq_ok_iff.1 h
      exact ⟨y, tail, hy, ih.1 htail, (Except.ok.inj h).symm⟩
    · rintro ⟨y, tail, hy, htail, rfl⟩
      exact ⟨y, hy, bind_eq_ok_iff.2 ⟨tail, ih.2 htail, rfl⟩⟩

lemma exists_mem_of_mapM {f : α → Except ε β} {l : List α} {ys : List β}
    (h : l.mapM f = .ok ys) {x : α} (hx : x ∈ l) : ∃ y ∈ ys, f x = .ok y := by
  have hall : List.Forall₂ (fun x y => f x = .ok y) l ys := mapM_eq_ok_iff.1 h
  induction hall with
  | nil => exact absurd hx List.not_mem_nil
  | cons hy htail ih =>
    rcases List.mem_cons.1 hx with rfl | hx
    · exact ⟨_, List.mem_cons_self, hy⟩
    · obtain ⟨y, hmem, hy⟩ := ih (mapM_eq_ok_iff.2 htail) hx
      exact ⟨y, List.mem_cons_of_mem _ hmem, hy⟩

/-- The results of a traversal come from its items. -/
lemma exists_of_mem_mapM {f : α → Except ε β} {l : List α} {ys : List β}
    (h : l.mapM f = .ok ys) {y : β} (hy : y ∈ ys) : ∃ x ∈ l, f x = .ok y := by
  have hall : List.Forall₂ (fun x y => f x = .ok y) l ys := mapM_eq_ok_iff.1 h
  induction hall with
  | nil => exact absurd hy List.not_mem_nil
  | cons hx htail ih =>
    rcases List.mem_cons.1 hy with rfl | hy
    · exact ⟨_, List.mem_cons_self, hx⟩
    · obtain ⟨x, hmem, hx⟩ := ih (mapM_eq_ok_iff.2 htail) hy
      exact ⟨x, List.mem_cons_of_mem _ hmem, hx⟩

/-- The results of a traversal stand at the places of their items. -/
lemma getElem?_of_mapM {f : α → Except ε β} {l : List α} {ys : List β} (h : l.mapM f = .ok ys)
    {i : Nat} {y : β} (hy : ys[i]? = some y) : ∃ x, l[i]? = some x ∧ f x = .ok y := by
  have hall : List.Forall₂ (fun x y => f x = .ok y) l ys := mapM_eq_ok_iff.1 h
  induction hall generalizing i with
  | nil => exact absurd hy (by simp)
  | cons hx htail ih =>
    cases i with
    | zero =>
      obtain rfl := Option.some.inj hy
      exact ⟨_, rfl, hx⟩
    | succ i => exact ih (mapM_eq_ok_iff.2 htail) hy

/-- A traversal of related items gives related results when the function on them does. -/
lemma mapM_map {α' β' : Type} {f : α → Except ε β} {f' : α' → Except ε β'} {g : α → α'} {k : β → β'}
    (h : ∀ x, f' (g x) = (f x).map k) (l : List α) :
    (l.map g).mapM f' = (l.mapM f).map (List.map k) := by
  induction l with
  | nil => rfl
  | cons x rest ih =>
    rw [List.map_cons, List.mapM_cons, List.mapM_cons, h, ih]
    rcases f x with e | y
    · rfl
    · rcases rest.mapM f with e | ys <;> rfl

/-- A traversal succeeds when every item does. -/
lemma exists_mapM_eq_ok {f : α → Except ε β} {l : List α}
    (h : ∀ x ∈ l, ∃ y, f x = .ok y) : ∃ ys, l.mapM f = .ok ys := by
  induction l with
  | nil => exact ⟨[], rfl⟩
  | cons x rest ih =>
    obtain ⟨y, hy⟩ := h x List.mem_cons_self
    obtain ⟨tail, htail⟩ := ih fun z hz => h z (List.mem_cons_of_mem _ hz)
    exact ⟨y :: tail, mapM_eq_ok_iff.2 (List.Forall₂.cons hy (mapM_eq_ok_iff.1 htail))⟩

end ShaderBindings.Fault
