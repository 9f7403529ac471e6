/-
# The availability of a binding

Availabilities are compared by the numbers in them and then as texts.  The numbers are those that
the longest runs of digits write (`numbers`).  As long as none of them is too large, the comparison
is the lexicographic order of the numbers with the text behind them (`atMost_iff`), a linear order
in which different texts are never equal.  So the greatest of some texts depends on which texts
there are and not on their order (`greatest?_congr`).

A set has the greatest of the availabilities that its members declare, and a report lists them when
there are several (`availability_isResolved`).
-/
import Mathlib.Data.List.Lex
import Mathlib.Data.List.SplitBy
import Mathlib.Data.Prod.Lex
import Mathlib.Data.String.Basic
import ShaderBindings.Binding.Synthesis
import ShaderBindings.Proofs.Dispatch
import ShaderBindings.Proofs.Registry

namespace ShaderBindings

namespace Availability

/-! ## Runs of digits -/

/-- The longest runs of digits in a text, from first to last. -/
def digitRuns (s : List Char) : List (List Char) :=
  (s.splitBy fun c d => c.isDigit == d.isDigit).filter fun run => run.all Char.isDigit

/-- The numbers that the runs of digits in a text write. -/
def numbers (s : String) : List Nat :=
  (digitRuns s.toList).map fun run => Nat.ofDigitChars 10 run 0

/-- The numbers in the text fit in 64 bits. -/
def IsBounded (s : String) : Prop := ∀ n ∈ numbers s, n < 2 ^ 64

/-- The parts of a text between the characters that are no digits, without the empty ones. -/
def pieces (s : List Char) : List (List Char) :=
  (s.splitOnP fun c => !c.isDigit).filter fun piece => !piece.isEmpty

section Runs

variable {w rest : List Char} {kind : Bool}

/-- A beginning of one kind of characters that goes as far as it can is a group of its own. -/
lemma digitRuns_append (hne : w ≠ []) (hw : ∀ c ∈ w, c.isDigit = kind)
    (hrest : ∀ c, rest.head? = some c → c.isDigit ≠ kind) :
    digitRuns (w ++ rest) = (if kind then [w] else []) ++ digitRuns rest := by
  have hchain : w.IsChain fun c d => (c.isDigit == d.isDigit) = true :=
    (List.pairwise_of_forall_mem_list fun c hc d hd => by simp [hw c hc, hw d hd]).isChain
  have hseam : ∀ c ∈ w.getLast?, ∀ d ∈ rest.head?, (c.isDigit == d.isDigit) = false := by
    intro c hc d hd
    rw [hw c (List.mem_of_mem_getLast? hc), beq_eq_false_iff_ne]
    exact (hrest d hd).symm
  have hall : w.all Char.isDigit = kind := by
    obtain ⟨c, w, rfl⟩ := List.exists_cons_of_ne_nil hne
    cases kind with
    | true => exact List.all_eq_true.2 hw
    | false => simp [hw c List.mem_cons_self]
  rw [digitRuns, List.splitBy_append hseam, List.splitBy_of_isChain hne hchain,
    List.filter_append, List.filter_singleton, hall, Bool.cond_eq_ite, digitRuns]

lemma pieces_append_of_gap (hw : ∀ c ∈ w, c.isDigit = false) :
    pieces (w ++ rest) = pieces rest := by
  induction w with
  | nil => rfl
  | cons c w ih =>
    rw [List.forall_mem_cons] at hw
    have hskip : pieces (c :: (w ++ rest)) = pieces (w ++ rest) := by
      simp [pieces, List.splitOnP_cons_eq_if_modifyHead, hw.1]
    rw [List.cons_append, hskip, ih hw.2]

lemma pieces_append_of_digits (hne : w ≠ []) (hw : ∀ c ∈ w, c.isDigit = true)
    (hrest : ∀ c, rest.head? = some c → c.isDigit ≠ true) :
    pieces (w ++ rest) = w :: pieces rest := by
  have hdigits : ∀ c ∈ w, (!c.isDigit) = false := by simpa using hw
  have hkeep : ∀ more, (w :: more).filter (fun piece => !piece.isEmpty)
      = w :: more.filter fun piece => !piece.isEmpty :=
    fun more => List.filter_cons_of_pos (by simpa using hne)
  cases rest with
  | nil =>
    rw [List.append_nil, pieces, List.splitOnP_eq_singleton hdigits, hkeep]
    rfl
  | cons d rest =>
    have hd : (!d.isDigit) = true := by simpa using hrest d rfl
    have hskip : pieces (d :: rest) = pieces rest :=
      pieces_append_of_gap (w := [d]) (by simpa using hd)
    rw [hskip, pieces, List.splitOnP_append_cons_of_forall_mem hdigits d hd, hkeep, pieces]

/-- A text begins with a longest run of characters of the kind of its first one. -/
lemma exists_run (c : Char) (s : List Char) : ∃ run rest, c :: s = run ++ rest ∧
    rest.length ≤ s.length ∧ run ≠ [] ∧ (∀ d ∈ run, d.isDigit = c.isDigit) ∧
    ∀ d, rest.head? = some d → d.isDigit ≠ c.isDigit := by
  refine ⟨c :: s.takeWhile fun d => d.isDigit == c.isDigit,
    s.dropWhile fun d => d.isDigit == c.isDigit, ?_, ?_, by simp, ?_, fun d hd => ?_⟩
  · rw [List.cons_append, List.takeWhile_append_dropWhile]
  · exact (List.dropWhile_sublist _).length_le
  · rw [List.forall_mem_cons]
    exact ⟨rfl, fun d hd => by simpa using List.all_eq_true.1 List.all_takeWhile d hd⟩
  · have hhead := List.head?_dropWhile_not (fun d => d.isDigit == c.isDigit) s
    rw [hd] at hhead
    simpa using hhead

/-- What stands between other characters is a longest run of digits. -/
lemma pieces_eq_digitRuns (s : List Char) : pieces s = digitRuns s := by
  match s with
  | [] => rfl
  | c :: s =>
    obtain ⟨run, rest, hsplit, hlength, hne, hrun, hrest⟩ := exists_run c s
    have ih := pieces_eq_digitRuns rest
    rw [hsplit, digitRuns_append hne hrun hrest]
    cases hkind : c.isDigit with
    | true =>
      rw [hkind] at hrun hrest
      rw [pieces_append_of_digits hne hrun hrest, ih]
      rfl
    | false =>
      rw [hkind] at hrun
      rw [pieces_append_of_gap hrun, ih]
      rfl
termination_by s.length
decreasing_by exact Nat.lt_succ_of_le hlength

end Runs

lemma versionKey_eq {s : String} (h : IsBounded s) : versionKey s = numbers s := by
  have hfilter : versionKey s = (pieces s.toList).filterMap fun digits =>
      if Decimal.natOfDigits digits < UInt64.size then some (Decimal.natOfDigits digits)
      else none := by
    rw [versionKey, pieces, List.filterMap_filter]
    refine List.filterMap_congr fun digits _ => ?_
    by_cases hempty : digits.isEmpty = true
    · simp [hempty]
    · simp [hempty]
  rw [hfilter, pieces_eq_digitRuns, numbers, ← List.filterMap_eq_map]
  refine List.filterMap_congr fun digits hdigits => ?_
  have hbound : Decimal.natOfDigits digits < UInt64.size :=
    h _ (List.mem_map_of_mem hdigits)
  rw [if_pos hbound]
  rfl

/-! ## The order of availabilities -/

/-- Availabilities are ordered by their numbers and then as texts. -/
def orderKey (s : String) : List Nat ×ₗ String := toLex (numbers s, s)

lemma orderKey_injective : Function.Injective orderKey := by
  intro a b h
  exact (Prod.ext_iff.1 (toLex.injective h)).2

/-- Lists of numbers are compared number by number, and a proper beginning is smaller. -/
lemma compare_eq_lt_iff (a b : List Nat) : compare a b = .lt ↔ a < b := by
  rw [List.compare_eq_compareLex]
  induction a generalizing b with
  | nil => cases b <;> simp [List.compareLex]
  | cons m a ih =>
    cases b with
    | nil => simp [List.compareLex]
    | cons n b =>
      rw [List.compareLex_cons_cons, List.cons_lt_cons_iff, ← ih, Ordering.then_eq_lt,
        Nat.compare_eq_lt, Nat.compare_eq_eq]

variable {a b : String} {texts texts' : List String}

lemma atMost_iff (ha : IsBounded a) (hb : IsBounded b) :
    atMost a b = true ↔ orderKey a ≤ orderKey b := by
  have heq : numbers a = numbers b ↔ compare (numbers a) (numbers b) = .eq :=
    Std.compare_eq_iff_eq.symm
  rw [atMost, versionKey_eq ha, versionKey_eq hb, orderKey, orderKey, Prod.Lex.toLex_le_toLex,
    ← compare_eq_lt_iff, heq]
  cases compare (numbers a) (numbers b) <;> simp

lemma greatest?_eq_none_iff : greatest? texts = none ↔ texts = [] := by
  cases texts with
  | nil => simp [greatest?]
  | cons a rest =>
    rw [greatest?]
    rcases greatest? rest with _ | b
    · simp
    · by_cases hab : atMost a b = true <;> simp [hab]

/-- The greatest text is one of the texts, and none of them is greater. -/
lemma isGreatest_of_greatest? (hbounded : ∀ x ∈ texts, IsBounded x)
    (h : greatest? texts = some a) : a ∈ texts ∧ ∀ x ∈ texts, orderKey x ≤ orderKey a := by
  induction texts generalizing a with
  | nil => simp [greatest?] at h
  | cons first rest ih =>
    rw [List.forall_mem_cons] at hbounded
    rw [greatest?] at h
    rcases hrest : greatest? rest with _ | b
    · rw [hrest] at h
      obtain rfl := Option.some.inj h
      rw [greatest?_eq_none_iff.1 hrest]
      simp
    · obtain ⟨hmem, hupper⟩ := ih hbounded.2 hrest
      have hiff := atMost_iff hbounded.1 (hbounded.2 b hmem)
      simp only [hrest] at h
      split_ifs at h with hab
      · obtain rfl := Option.some.inj h
        exact ⟨List.mem_cons_of_mem _ hmem, List.forall_mem_cons.2 ⟨hiff.1 hab, hupper⟩⟩
      · obtain rfl := Option.some.inj h
        have hlt := not_le.1 (mt hiff.2 hab)
        refine ⟨List.mem_cons_self, List.forall_mem_cons.2 ⟨le_rfl, fun x hx => ?_⟩⟩
        exact (hupper x hx).trans hlt.le

/-- The greatest text depends on which texts there are. -/
lemma greatest?_congr (hbounded : ∀ x ∈ texts, IsBounded x) (h : ∀ x, x ∈ texts' ↔ x ∈ texts) :
    greatest? texts' = greatest? texts := by
  have hbounded' : ∀ x ∈ texts', IsBounded x := fun x hx => hbounded x ((h x).1 hx)
  have hempty : greatest? texts' = none ↔ greatest? texts = none := by
    rw [greatest?_eq_none_iff, greatest?_eq_none_iff, List.eq_nil_iff_forall_not_mem,
      List.eq_nil_iff_forall_not_mem]
    simp only [h]
  rcases hfirst : greatest? texts' with _ | a
  · exact (hempty.1 hfirst).symm
  rcases hsecond : greatest? texts with _ | b
  · rw [hempty.2 hsecond] at hfirst
    exact absurd hfirst (by simp)
  obtain ⟨ha, hupper⟩ := isGreatest_of_greatest? hbounded' hfirst
  obtain ⟨hb, hupper'⟩ := isGreatest_of_greatest? hbounded hsecond
  have heq := (hupper' a ((h a).1 ha)).antisymm (hupper b ((h b).2 hb))
  rw [orderKey_injective heq]

end Availability

/-! ## The availability of a set -/

namespace OverloadSet

open Availability

/-- A member declares the availability. -/
def Declares (s : OverloadSet) (x : String) : Prop := ∃ p ∈ s.prototypes, p.availability? = some x

variable {s s' : OverloadSet} {x y : String}

lemma mem_declaredAvailability_iff : x ∈ s.declaredAvailability ↔ s.Declares x := by
  rw [declaredAvailability, List.mem_eraseDups, List.mem_filterMap]
  rfl

lemma declares_of_perm (h : s'.members.Perm s.members) : s'.Declares x ↔ s.Declares x := by
  rw [Declares, Declares, prototypes, prototypes]
  simp only [(h.map _).mem_iff]

/-- A list without repetitions has several members exactly when two of them differ. -/
lemma one_lt_length_iff {l : List String} (h : l.Nodup) :
    1 < l.length ↔ ∃ x ∈ l, ∃ y ∈ l, x ≠ y := by
  constructor
  · intro hlength
    obtain ⟨x, y, rest, rfl⟩ : ∃ x y rest, l = x :: y :: rest := by
      match l with
      | [] | [_] => simp at hlength
      | x :: y :: rest => exact ⟨x, y, rest, rfl⟩
    refine ⟨x, List.mem_cons_self, y, by simp, ?_⟩
    rintro rfl
    simp at h
  · rintro ⟨x, hx, y, hy, hne⟩
    match l with
    | [] => exact absurd hx List.not_mem_nil
    | [only] => exact absurd ((List.mem_singleton.1 hx).trans (List.mem_singleton.1 hy).symm) hne
    | _ :: _ :: rest => simp

/-- What the availability of a set is, and what is reported on it for a binding. -/
structure IsResolved (s : OverloadSet) (binding : String) (chosen? : Option String)
    (reports : Diagnostics) : Prop where
  /-- There is none exactly when no member declares one. -/
  none_iff : chosen? = none ↔ ∀ x, ¬ s.Declares x
  declared : ∀ x, chosen? = some x → s.Declares x
  /-- The numbers decide first and then the text. -/
  greatest : ∀ x y, chosen? = some x → s.Declares y →
    numbers y < numbers x ∨ numbers y = numbers x ∧ y ≤ x
  /-- The order of the members does not matter. -/
  unordered : ∀ s' : OverloadSet, s'.members.Perm s.members →
    greatest? s'.declaredAvailability = chosen?
  /-- Members that differ are reported with all that is declared, each text once. -/
  reported : ∀ x y, s.Declares x → s.Declares y → x ≠ y → ∃ declared chosen,
    chosen? = some chosen ∧ reports = [.availabilityMismatch binding declared chosen] ∧
      declared.Nodup ∧ ∀ z, z ∈ declared ↔ s.Declares z
  /-- Nothing is reported on members that agree. -/
  silent : (∀ x y, s.Declares x → s.Declares y → x = y) → reports = []

/-- **A binding has the greatest availability of its members.**  Let the numbers in the
availabilities of the members fit in 64 bits.  Then there is an availability exactly when a member
declares one.  It is declared by a member, and no other that is declared is greater by its numbers,
in lexicographic order, or by its text when the numbers are the same.  The order of the members does
not matter.  A report is made exactly when two members declare different availabilities, and it
lists each one once. -/
theorem availability_isResolved (h : ∀ x, s.Declares x → IsBounded x) (binding : String) :
    IsResolved s binding (greatest? s.declaredAvailability) (s.availabilityReport binding) := by
  have hbounded : ∀ x ∈ s.declaredAvailability, IsBounded x :=
    fun x hx => h x (mem_declaredAvailability_iff.1 hx)
  have hnodup : s.declaredAvailability.Nodup := nodup_eraseDups _
  have hlength : 1 < s.declaredAvailability.length ↔
      ∃ x, s.Declares x ∧ ∃ y, s.Declares y ∧ x ≠ y := by
    simpa only [mem_declaredAvailability_iff] using one_lt_length_iff hnodup
  refine ⟨?_, fun x hx => ?_, fun x y hx hy => ?_, fun s' hperm => ?_, fun x y hx hy hne => ?_,
    fun hagree => ?_⟩
  · rw [greatest?_eq_none_iff, List.eq_nil_iff_forall_not_mem]
    simp only [mem_declaredAvailability_iff]
  · exact mem_declaredAvailability_iff.1 (isGreatest_of_greatest? hbounded hx).1
  · have hle := (isGreatest_of_greatest? hbounded hx).2 y (mem_declaredAvailability_iff.2 hy)
    exact Prod.Lex.toLex_le_toLex.1 hle
  · refine greatest?_congr hbounded fun x => ?_
    rw [mem_declaredAvailability_iff, mem_declaredAvailability_iff, declares_of_perm hperm]
  · have hseveral := hlength.2 ⟨x, hx, y, hy, hne⟩
    rcases hchosen : greatest? s.declaredAvailability with _ | chosen
    · rw [greatest?_eq_none_iff.1 hchosen] at hseveral
      simp at hseveral
    · refine ⟨s.declaredAvailability, chosen, rfl, ?_, hnodup, fun z =>
        mem_declaredAvailability_iff⟩
      rw [availabilityReport, hchosen]
      exact if_pos hseveral
  · have hone : ¬ 1 < s.declaredAvailability.length := by
      rw [hlength]
      rintro ⟨x, hx, y, hy, hne⟩
      exact hne (hagree x y hx hy)
    rw [availabilityReport]
    split
    · exact if_neg hone
    · rfl

/-- Three nodes, two of which declare an availability. -/
def releasedSet : OverloadSet :=
  ⟨"mix", [⟨some "_float", { mixNode "_float" "float" with availability? := some "iOS 18.10" }⟩,
    ⟨some "_color3", { mixNode "_color3" "color3f" with availability? := some "iOS 18.9.1" }⟩,
    ⟨some "_color4", mixNode "_color4" "color4f"⟩]⟩

theorem availability_isResolved_released :
    (∀ x, releasedSet.Declares x → IsBounded x) ∧
      IsResolved releasedSet "mix" (some "iOS 18.10")
        [.availabilityMismatch "mix" ["iOS 18.10", "iOS 18.9.1"] "iOS 18.10"] := by
  have hbounded : ∀ x, releasedSet.Declares x → IsBounded x := by
    have hall : ∀ x ∈ releasedSet.declaredAvailability, ∀ n ∈ numbers x, n < 2 ^ 64 := by
      decide +kernel
    exact fun x hx => hall x (mem_declaredAvailability_iff.2 hx)
  have hchosen : greatest? releasedSet.declaredAvailability = some "iOS 18.10" := by
    decide +kernel
  have hreport : releasedSet.availabilityReport "mix"
      = [.availabilityMismatch "mix" ["iOS 18.10", "iOS 18.9.1"] "iOS 18.10"] := by
    decide +kernel
  refine ⟨hbounded, ?_⟩
  rw [← hchosen, ← hreport]
  exact availability_isResolved hbounded "mix"

end OverloadSet

end ShaderBindings
