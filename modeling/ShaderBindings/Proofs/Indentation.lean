/-
# Indentation

The text of a tree at level `k + n` should be its text at level `k`, moved to the right by `n`
levels.  The printer passes the level down by hand, through expressions, arguments, segments and
statements.  `Shifts` and `Pushes` relate the texts of one tree at the two levels, with the number
of line breaks that no margin follows.  There is one such break in each call with one argument on
each line that has no argument: its closing parenthesis goes to the start of the line at every
level.  So the indentation is uniform exactly when there is no such call
(`indentation_uniform_iff`).
-/
import ShaderBindings.Proofs.Words

namespace ShaderBindings.Swift

variable {n k c d : Nat} {a a' b b' s t w w' : String} {as bs : List String}

/-! ## Moved texts -/

/-- The text with a margin of `n` levels after each line break. -/
def hang (n : Nat) (s : String) : String :=
  String.ofList (s.toList.flatMap fun c => if c = '\n' then c :: (indent n).toList else [c])

/-- The characters with a margin in front of every line; `fresh` says whether they begin one. -/
def indentFrom (margin : List Char) : (fresh : Bool) → List Char → List Char
  | _, [] => []
  | fresh, c :: rest =>
    (if fresh then margin else []) ++ c :: indentFrom margin (c == '\n') rest

/-- The text with a margin of `n` levels in front of every line. -/
def indentLines (n : Nat) (s : String) : String :=
  String.ofList (indentFrom (indent n).toList true s.toList)

lemma indent_append (n k : Nat) : indent n ++ indent k = indent (k + n) := by
  rw [indent, indent, indent, ← String.ofList_append, List.replicate_append_replicate,
    ← Nat.mul_add, Nat.add_comm]

lemma length_indent (n : Nat) : (indent n).length = 4 * n := by
  rw [indent, String.length_ofList, List.length_replicate]

@[simp] lemma hang_append (n : Nat) (a b : String) : hang n (a ++ b) = hang n a ++ hang n b := by
  rw [hang, String.toList_append, List.flatMap_append, String.ofList_append]
  rfl

lemma hang_break (n : Nat) : hang n "\n" = "\n" ++ indent n := by
  apply String.ext
  simp [hang]

/-- A text of one line stays where it is. -/
lemma hang_of_unbroken (n : Nat) (h : Unbroken s) : hang n s = s := by
  have hchars : (s.toList.flatMap fun c => if c = '\n' then c :: (indent n).toList else [c])
      = s.toList.flatMap fun c => [c] := by
    refine List.flatMap_congr fun c hc => if_neg ?_
    rintro rfl
    exact h hc
  rw [hang, hchars, List.flatMap_singleton', String.ofList_toList]

lemma indentFrom_true {margin cs : List Char} (h : cs ≠ []) :
    indentFrom margin true cs = margin ++ indentFrom margin false cs := by
  cases cs with
  | nil => exact absurd rfl h
  | cons c rest => rfl

/-- A line break ends the line, whatever comes before it. -/
lemma indentFrom_append_break (margin xs ys : List Char) (fresh : Bool) :
    indentFrom margin fresh (xs ++ '\n' :: ys)
      = indentFrom margin fresh (xs ++ ['\n']) ++ indentFrom margin true ys := by
  induction xs generalizing fresh with
  | nil => simp [indentFrom]
  | cons x rest ih => simp only [List.cons_append, indentFrom, ih, List.append_assoc]

/-- In a text that ends with a line break, a line starts after each break but the last. -/
lemma indentFrom_false_append_break (n : Nat) (xs : List Char) :
    indentFrom (indent n).toList false (xs ++ ['\n'])
      = (xs.flatMap fun c => if c = '\n' then c :: (indent n).toList else [c]) ++ ['\n'] := by
  induction xs with
  | nil => rfl
  | cons x rest ih =>
    have hne : rest ++ ['\n'] ≠ [] := List.append_ne_nil_of_right_ne_nil _ (List.cons_ne_nil _ _)
    rw [List.cons_append, List.flatMap_cons, indentFrom]
    by_cases hx : x = '\n'
    · subst hx
      rw [if_pos rfl, beq_self_eq_true, indentFrom_true hne, ih]
      simp
    · rw [if_neg hx, beq_eq_false_iff_ne.2 hx, ih]
      simp

lemma indentLines_line (n : Nat) (a : String) :
    indentLines n (a ++ "\n") = indent n ++ hang n a ++ "\n" := by
  have hbreak : "\n".toList = ['\n'] := rfl
  have hne : a.toList ++ ['\n'] ≠ [] := List.append_ne_nil_of_right_ne_nil _ (List.cons_ne_nil _ _)
  apply String.ext
  rw [indentLines, String.toList_append, hbreak, indentFrom_true hne, indentFrom_false_append_break]
  simp [hang]

/-- The text consists of whole lines. -/
def IsClosed (s : String) : Prop := s = "" ∨ ∃ line, s = line ++ "\n"

lemma IsClosed.append (ha : IsClosed a) (hb : IsClosed b) : IsClosed (a ++ b) := by
  rcases hb with rfl | ⟨line, rfl⟩
  · rwa [String.append_empty]
  · exact .inr ⟨a ++ line, String.append_assoc.symm⟩

lemma IsClosed.indentLines_append (ha : IsClosed a) :
    indentLines n (a ++ b) = indentLines n a ++ indentLines n b := by
  rcases ha with rfl | ⟨line, rfl⟩
  · rw [String.empty_append]
    exact String.empty_append.symm
  · apply String.ext
    have hbreak : "\n".toList = ['\n'] := rfl
    simp only [indentLines, String.toList_append, String.toList_ofList, hbreak, List.append_assoc,
      List.singleton_append]
    exact indentFrom_append_break _ _ _ _

/-! ## Texts that move -/

/-- The second text is the first one `n` levels further to the right, but for `c` line breaks that
no margin follows. -/
inductive Shifts (n : Nat) : (c : Nat) → String → String → Prop where
  | word {w : String} (h : Unbroken w) : Shifts n 0 w w
  | margin (k : Nat) : Shifts n 0 ("\n" ++ indent k) ("\n" ++ indent (k + n))
  | bare : Shifts n 1 "\n" "\n"
  | append {c d : Nat} {a a' b b' : String} (h : Shifts n c a b) (h' : Shifts n d a' b') :
    Shifts n (c + d) (a ++ a') (b ++ b')

namespace Shifts

lemma prepend (h : Shifts n 0 a b) (h' : Shifts n c a' b') :
    Shifts n c (a ++ a') (b ++ b') := by
  have happend := h.append h'
  rwa [Nat.zero_add] at happend

lemma append_word (h : Shifts n c a b) (hw : Unbroken w) : Shifts n c (a ++ w) (b ++ w) :=
  h.append (word hw)

/-- A text that moves between two words. -/
lemma enclose (h : Shifts n c a b) (hw : Unbroken w) (hw' : Unbroken w') :
    Shifts n c (w ++ a ++ w') (w ++ b ++ w') :=
  (prepend (word hw) h).append_word hw'

lemma eq_hang (h : Shifts n c a b) (hc : c = 0) : b = hang n a := by
  induction h with
  | word hw => exact (hang_of_unbroken n hw).symm
  | margin k =>
    rw [hang_append, hang_break, hang_of_unbroken n (unbroken_indent k), String.append_assoc,
      indent_append]
  | bare => exact absurd hc Nat.one_ne_zero
  | append _ _ ih ih' =>
    obtain ⟨hc, hd⟩ := Nat.add_eq_zero_iff.1 hc
    rw [hang_append, ih hc, ih' hd]

/-- A break without margin makes the text shorter by that margin. -/
lemma length_hang (h : Shifts n c a b) : (hang n a).length = b.length + 4 * n * c := by
  induction h with
  | word hw => rw [hang_of_unbroken n hw, Nat.mul_zero, Nat.add_zero]
  | margin k => rw [← (margin (n := n) k).eq_hang rfl, Nat.mul_zero, Nat.add_zero]
  | bare => rw [hang_break, String.length_append, length_indent, Nat.mul_one]
  | append _ _ ih ih' =>
    rw [hang_append, String.length_append, String.length_append, ih, ih', Nat.mul_add]
    omega

lemma eq_zero_of_eq_hang (h : Shifts 1 c a b) (heq : b = hang 1 a) : c = 0 := by
  have hlength := h.length_hang
  rw [← heq] at hlength
  omega

end Shifts

/-- The texts of a list move one by one. -/
inductive ShiftsAll (n : Nat) : (c : Nat) → List String → List String → Prop where
  | nil : ShiftsAll n 0 [] []
  | cons {c d : Nat} {a b : String} {as bs : List String} (h : Shifts n c a b)
    (hrest : ShiftsAll n d as bs) : ShiftsAll n (c + d) (a :: as) (b :: bs)

namespace ShiftsAll

lemma of_unbroken (h : ∀ s ∈ as, Unbroken s) : ShiftsAll n 0 as as := by
  induction as with
  | nil => exact nil
  | cons s rest ih =>
    rw [List.forall_mem_cons] at h
    exact cons (.word h.1) (ih h.2)

lemma map {f g : String → String}
    (hfg : ∀ {c a b}, Shifts n c a b → Shifts n c (f a) (g b)) (h : ShiftsAll n c as bs) :
    ShiftsAll n c (as.map f) (bs.map g) := by
  induction h with
  | nil => exact nil
  | cons h _ ih => exact cons (hfg h) ih

lemma intercalate (hw : Unbroken w) (h : ShiftsAll n c as bs) :
    Shifts n c (w.intercalate as) (w.intercalate bs) := by
  induction h with
  | nil => exact .word (by decide : Unbroken "")
  | cons h hrest ih =>
    cases hrest with
    | nil =>
      rw [String.intercalate_singleton, String.intercalate_singleton]
      exact h
    | cons =>
      rw [String.intercalate_cons_cons, String.intercalate_cons_cons]
      exact (h.append_word hw).append ih

lemma commaList (h : ShiftsAll n c as bs) : Shifts n c (Swift.commaList as) (Swift.commaList bs) :=
  h.intercalate (by decide)

end ShiftsAll

/-- The second text is the first one `n` levels further to the right, line by line, but for `c` line
breaks that no margin follows. -/
inductive Pushes (n : Nat) : (c : Nat) → String → String → Prop where
  | nil : Pushes n 0 "" ""
  | line {c : Nat} {a b : String} (k : Nat) (h : Shifts n c a b) :
    Pushes n c (indent k ++ a ++ "\n") (indent (k + n) ++ b ++ "\n")
  | append {c d : Nat} {a a' b b' : String} (h : Pushes n c a b) (h' : Pushes n d a' b') :
    Pushes n (c + d) (a ++ a') (b ++ b')

namespace Pushes

lemma isClosed (h : Pushes n c a b) : IsClosed a := by
  induction h with
  | nil => exact .inl rfl
  | line => exact .inr ⟨_, rfl⟩
  | append _ _ ih ih' => exact ih.append ih'

/-- The margin of a line grows in front of the margin that it has. -/
lemma indentLines_line_eq (n k : Nat) (a : String) :
    indentLines n (indent k ++ a ++ "\n") = indent (k + n) ++ hang n a ++ "\n" := by
  rw [indentLines_line, hang_append, hang_of_unbroken n (unbroken_indent k), ← String.append_assoc,
    indent_append]

lemma eq_indentLines (h : Pushes n c a b) (hc : c = 0) : b = indentLines n a := by
  induction h with
  | nil => rfl
  | line k h => rw [indentLines_line_eq, h.eq_hang hc]
  | append h _ ih ih' =>
    obtain ⟨hc, hd⟩ := Nat.add_eq_zero_iff.1 hc
    rw [h.isClosed.indentLines_append, ih hc, ih' hd]

lemma length_indentLines (h : Pushes n c a b) :
    (indentLines n a).length = b.length + 4 * n * c := by
  induction h with
  | nil => rw [Nat.mul_zero, Nat.add_zero]; rfl
  | line k h =>
    rw [indentLines_line_eq]
    simp only [String.length_append, h.length_hang]
    omega
  | append h _ ih ih' =>
    rw [h.isClosed.indentLines_append, String.length_append, String.length_append, ih, ih',
      Nat.mul_add]
    omega

lemma eq_zero_of_eq_indentLines (h : Pushes 1 c a b) (heq : b = indentLines 1 a) : c = 0 := by
  have hlength := h.length_indentLines
  rw [← heq] at hlength
  omega

/-- Texts of whole lines for all levels keep their lines exactly when no break is without margin. -/
lemma uniform_iff {text : Nat → String} (h : ∀ n, Pushes n c (text 0) (text n)) :
    (∀ n, text n = indentLines n (text 0)) ↔ c = 0 :=
  ⟨fun heq => (h 1).eq_zero_of_eq_indentLines (heq 1), fun hc n => (h n).eq_indentLines hc⟩

/-- Lines that are further inside, between a line that opens them and one that closes them. -/
lemma block (k : Nat) (hopen : Shifts n c a b) (hbody : Pushes n d s t) (hclose : Unbroken w) :
    Pushes n (c + d) (indent k ++ a ++ "\n" ++ s ++ (indent k ++ w ++ "\n"))
      (indent (k + n) ++ b ++ "\n" ++ t ++ (indent (k + n) ++ w ++ "\n")) :=
  ((line k hopen).append hbody).append (line k (.word hclose))

end Pushes

lemma ShiftsAll.pushes_join (k : Nat) (h : ShiftsAll n c as bs) :
    Pushes n c (String.join (as.map fun s => indent k ++ s ++ "\n"))
      (String.join (bs.map fun s => indent (k + n) ++ s ++ "\n")) := by
  induction h with
  | nil => exact .nil
  | cons h _ ih =>
    rw [List.map_cons, List.map_cons, String.join_cons, String.join_cons]
    exact (Pushes.line k h).append ih

lemma pushes_markedLines (k : Nat) {mark : String} (hmark : Unbroken mark)
    (h : ∀ s ∈ as, Unbroken s) :
    Pushes n 0 (markedLines k mark as) (markedLines (k + n) mark as) := by
  have hlines := (ShiftsAll.of_unbroken (n := n) h).map fun h => Shifts.prepend (.word hmark) h
  simpa only [markedLines, List.map_map, Function.comp_def, String.append_assoc]
    using hlines.pushes_join k

/-! ## Expressions -/

/-- The number of calls with one argument on each line that have no argument. -/
def bareCalls (calls : List (List Arg)) : Nat := calls.countP List.isEmpty

lemma bareCalls_append (calls more : List (List Arg)) :
    bareCalls (calls ++ more) = bareCalls calls + bareCalls more := List.countP_append

lemma bareCalls_eq_zero_iff {calls : List (List Arg)} : bareCalls calls = 0 ↔ [] ∉ calls := by
  rw [bareCalls, List.countP_eq_zero]
  constructor
  · intro h hmem
    exact h [] hmem rfl
  · intro h args hmem hempty
    rw [List.isEmpty_iff.1 hempty] at hmem
    exact h hmem

lemma Shifts.labelledText {label? : Option String} (hlabel : ∀ w ∈ label?.toList, Unbroken w)
    (h : Shifts n c a b) : Shifts n c (labelledText label? a) (labelledText label? b) := by
  cases label? with
  | none => exact h
  | some label =>
    have hlabel : Unbroken label := hlabel label (by simp)
    exact Shifts.prepend (.word (unbroken_append_iff.2 ⟨hlabel, by decide⟩)) h

/-- A break in front of each text of a list can stand after the commas. -/
lemma intercalate_break (s : String) (rest : List String) :
    "\n" ++ ",\n".intercalate (s :: rest)
      = ",".intercalate ((s :: rest).map fun s => "\n" ++ s) := by
  have hcomma : ",\n" = "," ++ "\n" := rfl
  induction rest generalizing s with
  | nil => rfl
  | cons t rest ih =>
    rw [List.map_cons, List.map_cons, String.intercalate_cons_cons, String.intercalate_cons_cons,
      ← List.map_cons, ← ih t, hcomma]
    simp only [String.append_assoc]

namespace Expr

lemma argLines_eq_map (level : Nat) (args : List Arg) :
    argLines level args = (argTexts level args).map fun s => indent level ++ s := by
  induction args with
  | nil => rfl
  | cons a rest ih => rw [argLines, argTexts, List.map_cons, ih]

lemma text_multilineCall_nil (level : Nat) (callee : Expr) :
    (multilineCall callee []).text level = callee.text level ++ "(" ++ "\n" ++ ")" := by
  have hopen : "(\n" = "(" ++ "\n" := rfl
  rw [text, hopen, ← String.append_assoc]
  exact congrArg (· ++ ")") String.append_empty

lemma text_multilineCall_cons (level : Nat) (callee : Expr) (a : Arg) (args : List Arg) :
    (multilineCall callee (a :: args)).text level = callee.text level ++ "(" ++ ",".intercalate
      ((argTexts (level + 1) (a :: args)).map fun s => "\n" ++ indent (level + 1) ++ s) ++ ")" := by
  have hopen : "(\n" = "(" ++ "\n" := rfl
  have hlines : "\n" ++ ",\n".intercalate (argLines (level + 1) (a :: args))
      = ",".intercalate ((argTexts (level + 1) (a :: args)).map fun s =>
          "\n" ++ indent (level + 1) ++ s) := by
    rw [argLines, intercalate_break, ← argLines, argLines_eq_map, List.map_map]
    simp only [Function.comp_def, String.append_assoc]
  calc (multilineCall callee (a :: args)).text level
      = callee.text level ++ "("
          ++ ("\n" ++ ",\n".intercalate (argLines (level + 1) (a :: args))) ++ ")" := by
        rw [text, hopen]
        simp only [String.append_assoc]
    _ = _ := by rw [hlines]

-- The induction goes over expressions, lists of them, arguments and segments at once.  It carries
-- the number of breaks without margin, since a text with some of them is not a moved one.
mutual

lemma shifts_text (n k : Nat) : ∀ e : Expr, (∀ w ∈ e.words, Unbroken w) →
    Shifts n (bareCalls e.multilineCalls) (e.text k) (e.text (k + n))
  | .identifier name, h => .word (unbroken_identifier (h name List.mem_cons_self))
  | .constant c, _ => .word (unbroken_constant c)
  | .member object name, h => by
    rw [words, List.forall_mem_append] at h
    have hname := unbroken_identifier (h.2 name List.mem_cons_self)
    rw [multilineCalls, text, text]
    exact ((shifts_text n k object h.1).append_word (by decide)).append_word hname
  | .implicitMember name, h =>
    .word (unbroken_append_iff.2 ⟨by decide, h name List.mem_cons_self⟩)
  | .call callee args, h => by
    rw [words, List.forall_mem_append] at h
    rw [multilineCalls, bareCalls_append, text, text]
    exact (((shifts_text n k callee h.1).append_word (by decide)).append
      (shifts_argTexts n k args h.2).commaList).append_word (by decide)
  | .multilineCall callee [], h => by
    rw [words, List.forall_mem_append] at h
    rw [multilineCalls, bareCalls_append, text_multilineCall_nil, text_multilineCall_nil]
    exact (((shifts_text n k callee h.1).append_word (by decide)).append .bare).append_word
      (by decide)
  | .multilineCall callee (a :: args), h => by
    rw [words, List.forall_mem_append] at h
    have hargs := (shifts_argTexts n (k + 1) (a :: args) h.2).map fun h =>
      (Shifts.margin (k + 1)).prepend h
    rw [multilineCalls, bareCalls_append, text_multilineCall_cons, text_multilineCall_cons,
      Nat.add_right_comm k n 1]
    exact (((shifts_text n k callee h.1).append_word (by decide)).append
      (hargs.intercalate (by decide))).append_word (by decide)
  | .array items, h => by
    rw [multilineCalls, text, text]
    exact (shifts_texts n k items h).commaList.enclose (by decide) (by decide)
  | .interpolated segments, h => by
    rw [multilineCalls, text, text]
    exact (shifts_segmentsText n k segments h).enclose (by decide) (by decide)
  | .binary left op right, h => by
    rw [words, List.forall_mem_append] at h
    rw [multilineCalls, bareCalls_append, text, text]
    exact ((((shifts_text n k left h.1).append_word (by decide)).append_word
      (unbroken_operator op)).append_word (by decide)).append (shifts_text n k right h.2)

lemma shifts_texts (n k : Nat) : ∀ es : List Expr, (∀ w ∈ wordsOf es, Unbroken w) →
    ShiftsAll n (bareCalls (multilineCallsOf es)) (texts k es) (texts (k + n) es)
  | [], _ => .nil
  | e :: rest, h => by
    rw [wordsOf, List.forall_mem_append] at h
    rw [multilineCallsOf, bareCalls_append, texts, texts]
    exact .cons (shifts_text n k e h.1) (shifts_texts n k rest h.2)

lemma shifts_argTexts (n k : Nat) : ∀ args : List Arg, (∀ w ∈ wordsOfArgs args, Unbroken w) →
    ShiftsAll n (bareCalls (multilineCallsOfArgs args)) (argTexts k args) (argTexts (k + n) args)
  | [], _ => .nil
  | .mk label? value :: rest, h => by
    rw [wordsOfArgs, List.forall_mem_append, List.forall_mem_append] at h
    rw [multilineCallsOfArgs, bareCalls_append, argTexts, argTexts, argText, argText]
    exact .cons ((shifts_text n k value h.1.2).labelledText h.1.1) (shifts_argTexts n k rest h.2)

lemma shifts_segmentsText (n k : Nat) : ∀ segments : List Segment,
    (∀ w ∈ wordsOfSegments segments, Unbroken w) →
      Shifts n (bareCalls (multilineCallsOfSegments segments)) (segmentsText k segments)
        (segmentsText (k + n) segments)
  | [], _ => .word (by decide : Unbroken "")
  | .text s :: rest, h => by
    rw [segmentsText, segmentsText, segmentText, segmentText]
    exact Shifts.prepend (.word (unbroken_escape s)) (shifts_segmentsText n k rest h)
  | .value e :: rest, h => by
    rw [wordsOfSegments, List.forall_mem_append] at h
    rw [multilineCallsOfSegments, bareCalls_append, segmentsText, segmentsText, segmentText,
      segmentText]
    exact ((shifts_text n k e h.1).enclose (by decide) (by decide)).append
      (shifts_segmentsText n k rest h.2)

end

end Expr

/-! ## Statements and functions -/

namespace Stmt

lemma itemLines_eq (level : Nat) (items : List Expr) : itemLines level items
    = String.join (((Expr.texts level items).map fun s => s ++ ",").map fun s =>
        indent level ++ s ++ "\n") := by
  have hcomma : ",\n" = "," ++ "\n" := rfl
  induction items with
  | nil => rfl
  | cons e rest ih =>
    rw [itemLines, Expr.texts, List.map_cons, List.map_cons, String.join_cons, ih, hcomma]
    simp only [String.append_assoc]

lemma pushes_itemLines (n k : Nat) {items : List Expr} (h : ∀ w ∈ Expr.wordsOf items, Unbroken w) :
    Pushes n (bareCalls (Expr.multilineCallsOf items)) (itemLines k items)
      (itemLines (k + n) items) := by
  rw [itemLines_eq, itemLines_eq]
  exact ((Expr.shifts_texts n k items h).map fun h => h.append_word (by decide)).pushes_join k

/-- What a declaration of an array has before its brackets. -/
def letHead (name : String) (type : TypeExpr) : String :=
  "let " ++ identifier name ++ ": " ++ type.text ++ " = "

lemma unbroken_letHead {name : String} {type : TypeExpr} (hname : Unbroken name)
    (htype : ∀ w ∈ type.words, Unbroken w) : Unbroken (letHead name type) := by
  rw [letHead]
  simp only [unbroken_append_iff]
  exact ⟨⟨⟨⟨by decide, unbroken_identifier hname⟩, by decide⟩, type.unbroken_text htype⟩, by decide⟩

lemma text_letArray_nil (level : Nat) (name : String) (type : TypeExpr) :
    (letArray name type []).text level = indent level ++ (letHead name type ++ "[]") ++ "\n" := by
  have hempty : "[]\n" = "[]" ++ "\n" := rfl
  rw [text, letHead, List.isEmpty_nil, if_pos rfl, hempty]
  simp only [String.append_assoc]

lemma text_letArray_cons (level : Nat) (name : String) (type : TypeExpr) (e : Expr)
    (items : List Expr) : (letArray name type (e :: items)).text level
      = indent level ++ (letHead name type ++ "[") ++ "\n" ++ itemLines (level + 1) (e :: items)
        ++ (indent level ++ "]" ++ "\n") := by
  have hopen : "[\n" = "[" ++ "\n" := rfl
  have hclose : "]\n" = "]" ++ "\n" := rfl
  rw [text, letHead, List.isEmpty_cons, if_neg Bool.false_ne_true, hopen, hclose]
  simp only [String.append_assoc]

lemma text_ret (level : Nat) (value : Expr) : (ret value).text level
    = indent level ++ ("return " ++ value.text level) ++ "\n" := by
  rw [text]
  simp only [String.append_assoc]

lemma text_cond (level : Nat) (condition : Expr) (body : List Stmt) :
    (cond condition body).text level
      = indent level ++ ("if " ++ condition.text level ++ " \x7b") ++ "\n" ++ texts (level + 1) body
        ++ (indent level ++ "\x7d" ++ "\n") := by
  have hopen : " \x7b\n" = " \x7b" ++ "\n" := rfl
  have hclose : "\x7d\n" = "\x7d" ++ "\n" := rfl
  rw [text, hopen, hclose]
  simp only [String.append_assoc]

lemma text_guardElse (level : Nat) (condition : Expr) (body : List Stmt) :
    (guardElse condition body).text level
      = indent level ++ ("guard " ++ condition.text level ++ " else \x7b") ++ "\n"
        ++ texts (level + 1) body ++ (indent level ++ "\x7d" ++ "\n") := by
  have hopen : " else \x7b\n" = " else \x7b" ++ "\n" := rfl
  have hclose : "\x7d\n" = "\x7d" ++ "\n" := rfl
  rw [text, hopen, hclose]
  simp only [String.append_assoc]

mutual

lemma pushes_text (n k : Nat) : ∀ s : Stmt, (∀ w ∈ s.words, Unbroken w) →
    Pushes n (bareCalls s.multilineCalls) (s.text k) (s.text (k + n))
  | .letArray name type [], h => by
    rw [words, List.forall_mem_cons, List.forall_mem_append] at h
    rw [multilineCalls, text_letArray_nil, text_letArray_nil]
    exact .line k (.word (unbroken_append_iff.2 ⟨unbroken_letHead h.1 h.2.1, by decide⟩))
  | .letArray name type (e :: items), h => by
    rw [words, List.forall_mem_cons, List.forall_mem_append] at h
    obtain ⟨hname, htype, hitems⟩ := h
    have hopen : Unbroken (letHead name type ++ "[") :=
      unbroken_append_iff.2 ⟨unbroken_letHead hname htype, by decide⟩
    have hblock := Pushes.block k (.word hopen) (pushes_itemLines n (k + 1) hitems)
      (by decide : Unbroken "]")
    rw [Nat.zero_add] at hblock
    rw [multilineCalls, text_letArray_cons, text_letArray_cons, Nat.add_right_comm k n 1]
    exact hblock
  | .ret value, h => by
    have hvalue := Shifts.prepend (.word (by decide : Unbroken "return "))
      (Expr.shifts_text n k value h)
    rw [multilineCalls, text_ret, text_ret]
    exact .line k hvalue
  | .cond condition body, h => by
    rw [words, List.forall_mem_append] at h
    have hopen := (Expr.shifts_text n k condition h.1).enclose (by decide : Unbroken "if ")
      (by decide : Unbroken " \x7b")
    rw [multilineCalls, bareCalls_append, text_cond, text_cond, Nat.add_right_comm k n 1]
    exact .block k hopen (pushes_texts n (k + 1) body h.2) (by decide)
  | .guardElse condition body, h => by
    rw [words, List.forall_mem_append] at h
    have hopen := (Expr.shifts_text n k condition h.1).enclose (by decide : Unbroken "guard ")
      (by decide : Unbroken " else \x7b")
    rw [multilineCalls, bareCalls_append, text_guardElse, text_guardElse, Nat.add_right_comm k n 1]
    exact .block k hopen (pushes_texts n (k + 1) body h.2) (by decide)

lemma pushes_texts (n k : Nat) : ∀ body : List Stmt, (∀ w ∈ wordsOf body, Unbroken w) →
    Pushes n (bareCalls (multilineCallsOf body)) (texts k body) (texts (k + n) body)
  | [], _ => .nil
  | s :: rest, h => by
    rw [wordsOf, List.forall_mem_append] at h
    rw [multilineCallsOf, bareCalls_append, texts, texts]
    exact (pushes_text n k s h.1).append (pushes_texts n k rest h.2)

end

end Stmt

lemma Function.pushes_text (n k : Nat) {f : Function} (hflat : f.HasFlatDefaults)
    (h : ∀ w ∈ f.words, Unbroken w) :
    Pushes n (bareCalls (Stmt.multilineCallsOf f.body)) (f.text k) (f.text (k + n)) := by
  obtain ⟨line, hsignature, hline⟩ := exists_signature_eq hflat h
  simp only [words, List.forall_mem_append, List.forall_mem_cons] at h
  obtain ⟨⟨hdoc, hattributes⟩, -, -, hbody⟩ := h
  have hclose : "\x7d\n" = "\x7d" ++ "\n" := rfl
  have hfront := (pushes_markedLines (n := n) k (by decide : Unbroken "/// ") hdoc).append
    (pushes_markedLines k (by decide : Unbroken "") hattributes)
  have hblock := Pushes.block k (.word hline) (Stmt.pushes_texts n (k + 1) f.body hbody)
    (by decide : Unbroken "\x7d")
  have hall := hfront.append hblock
  rw [Nat.zero_add, Nat.zero_add] at hall
  rw [text, text, hsignature, hclose, Nat.add_right_comm k n 1]
  simpa only [String.append_assoc] using hall

/-! ## The levels of a tree -/

/-- **Indentation is uniform where calls of several lines have arguments.**  Let no word of the tree
have a line break.  Then an expression moves by the margin after each line break between any two
levels exactly when each of its calls with one argument on each line has an argument.  In the same
way a statement, or a function whose defaults are of one line, gets the margin in front of every
line. -/
theorem indentation_uniform_iff (e : Expr) (s : Stmt) (f : Function) :
    ((∀ w ∈ e.words, Unbroken w) →
      ((∀ k n, e.text (k + n) = hang n (e.text k)) ↔ [] ∉ e.multilineCalls)) ∧
    ((∀ w ∈ s.words, Unbroken w) →
      ((∀ n, s.text n = indentLines n (s.text 0)) ↔ [] ∉ s.multilineCalls)) ∧
    ((∀ w ∈ f.words, Unbroken w) → f.HasFlatDefaults →
      ((∀ n, f.text n = indentLines n (f.text 0)) ↔ [] ∉ Stmt.multilineCallsOf f.body)) := by
  refine ⟨fun h => ?_, fun h => ?_, fun h hflat => ?_⟩
  · rw [← bareCalls_eq_zero_iff]
    constructor
    · intro huniform
      exact (e.shifts_text 1 0 h).eq_zero_of_eq_hang (huniform 0 1)
    · intro hzero k n
      exact (e.shifts_text n k h).eq_hang hzero
  · rw [← bareCalls_eq_zero_iff]
    refine Pushes.uniform_iff fun n => ?_
    have hpushes := s.pushes_text n 0 h
    rwa [Nat.zero_add] at hpushes
  · rw [← bareCalls_eq_zero_iff]
    refine Pushes.uniform_iff fun n => ?_
    have hpushes := Function.pushes_text n 0 hflat h
    rwa [Nat.zero_add] at hpushes

/-- A call of several lines inside another one. -/
def nestedCall : Expr :=
  .multilineCall (.identifier "SGScalar")
    [.labelled "source" (.multilineCall (.identifier "SGNode") [.plain (.identifier "inputs")])]

/-- A function that returns `nestedCall`. -/
def nestedFunction : Function where
  doc := ["Mixes."]
  attributes := ["@discardableResult"]
  kind := .free
  name := "mix"
  typeParameters := []
  parameters := [⟨some "fg", "fg", .named "SGScalar", some (.implicitMember "zero")⟩]
  returnType := .named "SGScalar"
  body := [.letArray "inputs" (.array (.named "Input")) [.identifier "fg"], .ret nestedCall]

lemma not_mem_multilineCalls_nestedCall : [] ∉ nestedCall.multilineCalls := by
  rw [← bareCalls_eq_zero_iff]
  rfl

theorem indentation_uniform_iff_nestedCall :
    (∀ k n, nestedCall.text (k + n) = hang n (nestedCall.text k)) ∧
    (∀ n, (Stmt.ret nestedCall).text n = indentLines n ((Stmt.ret nestedCall).text 0)) ∧
    (∀ n, nestedFunction.text n = indentLines n (nestedFunction.text 0)) := by
  obtain ⟨hexpr, hstmt, hfunction⟩ :=
    indentation_uniform_iff nestedCall (.ret nestedCall) nestedFunction
  have hflat : nestedFunction.HasFlatDefaults := by
    simp [Function.HasFlatDefaults, nestedFunction, Expr.multilineCalls]
  have hbody : [] ∉ Stmt.multilineCallsOf nestedFunction.body := not_mem_multilineCalls_nestedCall
  exact ⟨(hexpr (by decide)).2 not_mem_multilineCalls_nestedCall,
    (hstmt (by decide)).2 not_mem_multilineCalls_nestedCall,
    (hfunction (by decide) hflat).2 hbody⟩

/-- A call that would put one argument on each line. -/
def bareCall : Expr := .multilineCall (.identifier "f") []

/-- Its closing parenthesis does not move, neither in an expression nor in a statement. -/
theorem not_uniform_bareCall :
    ((∀ w ∈ bareCall.words, Unbroken w) ∧ bareCall.text (0 + 1) ≠ hang 1 (bareCall.text 0)) ∧
    ((∀ w ∈ (Stmt.ret bareCall).words, Unbroken w) ∧
      (Stmt.ret bareCall).text 1 ≠ indentLines 1 ((Stmt.ret bareCall).text 0)) := by
  refine ⟨⟨by decide, ?_⟩, by decide, ?_⟩
  · decide
  · decide

end ShaderBindings.Swift
