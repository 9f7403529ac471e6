/-
# Lines of comments

The comment of a declaration has an entry for a display name and one for a description.  Each entry
is written behind the mark of a comment and closed by a line break, as one line.  But the entries
are free text.  One with line breaks of its own goes on after the first of them without the mark
(`continuations`), so that the rest of it is read as Swift: the lines of a comment bear the mark
exactly when those do in which an entry goes on (`isCommentLine_markedLines_iff`).

The declaration behind the comment is not touched by any of this, since it does not depend on the
prose of the nodes.
-/
import ShaderBindings.Proofs.Comments
import ShaderBindings.Proofs.Infixes
import ShaderBindings.Proofs.Origins

namespace ShaderBindings

open Swift

/-! ## Lines of a text -/

namespace Text

/-- The character ends no line. -/
def IsInner (c : Char) : Prop := c ≠ '\n' ∧ c ≠ '\r'

lemma lines_cons_of_isInner {c : Char} {s line : List Char} {more : List (List Char)}
    (hc : IsInner c) (h : lines s = line :: more) : lines (c :: s) = (c :: line) :: more := by
  rw [lines]
  · simp [hc.1, hc.2, h]
  · intro t ht
    exact absurd ht hc.2

lemma lines_ne_nil {s : List Char} (h : s ≠ []) : lines s ≠ [] := by
  fun_induction lines s with
  | case1 => exact absurd rfl h
  | case2 => simp
  | case3 => simp
  | case4 => simp
  | case5 => simp

lemma lines_of_break {c : Char} {s : List Char} (hc : ¬ IsInner c)
    (h : c = '\r' → s.head? ≠ some '\n') : lines (c :: s) = [c] :: lines s := by
  have hbreak : c = '\n' ∨ c = '\r' := by
    by_contra hne
    exact hc (not_or.1 hne)
  rw [lines]
  · simp [hbreak]
  · rintro t rfl rfl
    exact h rfl rfl

lemma isInner_iff {c : Char} : IsInner c ↔ ¬ (c = '\n' || c = '\r') = true := by
  simp [IsInner]

/-- A line feed ends a line, whatever follows it. -/
lemma lines_append_newline (s rest : List Char) :
    lines (s ++ '\n' :: rest) = lines (s ++ ['\n']) ++ lines rest := by
  -- a character that ends no line joins the first line on both sides
  have inner : ∀ {c : Char} {s : List Char}, IsInner c →
      lines (s ++ '\n' :: rest) = lines (s ++ ['\n']) ++ lines rest →
      lines (c :: (s ++ '\n' :: rest)) = lines (c :: (s ++ ['\n'])) ++ lines rest := by
    intro c s hc ih
    obtain ⟨line, more, hlines⟩ := List.exists_cons_of_ne_nil
      (lines_ne_nil (List.append_ne_nil_of_right_ne_nil s (List.cons_ne_nil '\n' [])))
    rw [hlines, List.cons_append] at ih
    rw [lines_cons_of_isInner hc hlines, lines_cons_of_isInner hc ih, List.cons_append]
  fun_induction lines s with
  | case1 => simp [lines]
  | case2 s ih => simp [lines, ih]
  | case3 c s h hc ih =>
    have hbreak : ¬ IsInner c := not_not.2 hc ∘ isInner_iff.1
    rcases s with _ | ⟨d, s⟩
    -- the line feed ends the line of the first character, or it joins a carriage return
    · by_cases hreturn : c = '\r'
      · subst hreturn
        simp [lines]
      · rw [List.cons_append, List.cons_append, lines_of_break hbreak fun h => absurd h hreturn,
          lines_of_break hbreak fun h => absurd h hreturn, ih]
        rfl
    · have hnext : ∀ more, c = '\r' → (d :: s ++ more).head? ≠ some '\n' := by
        rintro more hreturn heq
        exact h s hreturn (congrArg (· :: s) (Option.some.inj heq))
      have hcons : ∀ more, lines (c :: d :: s ++ more) = [c] :: lines (d :: s ++ more) :=
        fun more => lines_of_break hbreak (hnext more)
      rw [hcons, hcons, ih]
      rfl
  | case4 c s _ hc _ ih => exact inner (isInner_iff.2 hc) ih
  | case5 c s _ hc _ _ _ ih => exact inner (isInner_iff.2 hc) ih

/-- A beginning without line breaks goes into the first line. -/
lemma lines_append_of_isInner {p s line : List Char} {more : List (List Char)}
    (hp : ∀ c ∈ p, IsInner c) (h : lines s = line :: more) :
    lines (p ++ s) = (p ++ line) :: more := by
  induction p with
  | nil => exact h
  | cons c p ih =>
    rw [List.forall_mem_cons] at hp
    exact lines_cons_of_isInner hp.1 (ih hp.2)

end Text

/-! ## Comments -/

/-- The lines of a text after its first one, when a line feed ends the text. -/
def continuations (s : String) : List (List Char) := (Text.lines (s.toList ++ ['\n'])).tail

/-- A text without line breaks is one line. -/
lemma continuations_of_isInner {s : String} (h : ∀ c ∈ s.toList, Text.IsInner c) :
    continuations s = [] := by
  have hend : Text.lines ['\n'] = [['\n']] := by decide
  rw [continuations, Text.lines_append_of_isInner h hend, List.tail_cons]

namespace Swift

/-- The line is one of a documentation comment at a level. -/
def IsCommentLine (level : Nat) (line : List Char) : Prop :=
  (indent level ++ "///").toList <+: line

/-- The comment in front of a declaration. -/
def Function.comment (level : Nat) (f : Function) : String := markedLines level "/// " f.doc

/-- The comment is the one part of the text of a declaration that its `doc` decides. -/
lemma Function.text_eq (f : Function) (level : Nat) :
    f.text level = f.comment level ++ f.withoutDoc.text level := by
  have hnone : markedLines level "/// " f.withoutDoc.doc = "" := rfl
  rw [text, text, comment, hnone, String.empty_append]
  simp only [String.append_assoc]
  rfl

variable {level : Nat}

lemma isInner_of_mem_mark {c : Char} (hc : c ∈ (indent level ++ "/// ").toList) :
    Text.IsInner c := by
  rw [String.toList_append, List.mem_append, indent, String.toList_ofList] at hc
  rcases hc with hc | hc
  · rw [List.eq_of_mem_replicate hc]
    exact ⟨by decide, by decide⟩
  · have hall : ∀ d ∈ "/// ".toList, d ≠ '\n' ∧ d ≠ '\r' := by simp
    exact hall c hc

lemma toList_markedLines_cons (mark s : String) (rest : List String) :
    (markedLines level mark (s :: rest)).toList
      = (indent level ++ mark).toList
        ++ (s.toList ++ '\n' :: (markedLines level mark rest).toList) := by
  simp [markedLines, String.toList_join]

/-- The first line of an entry of a comment bears the mark, and the others are those of the entry
itself. -/
lemma lines_entry (level : Nat) (s : String) : ∃ line, IsCommentLine level line ∧
    Text.lines ((indent level ++ "/// ").toList ++ (s.toList ++ ['\n']))
      = line :: continuations s := by
  obtain ⟨first, more, hlines⟩ := List.exists_cons_of_ne_nil
    (Text.lines_ne_nil (List.append_ne_nil_of_right_ne_nil s.toList (List.cons_ne_nil '\n' [])))
  have hmore : continuations s = more := by rw [continuations, hlines, List.tail_cons]
  refine ⟨(indent level ++ "/// ").toList ++ first, ?_, ?_⟩
  · refine List.IsPrefix.trans ?_ (List.prefix_append _ _)
    rw [String.toList_append, String.toList_append]
    exact (List.prefix_append_right_inj _).2 (by decide)
  · rw [hmore]
    exact Text.lines_append_of_isInner (fun c hc => isInner_of_mem_mark hc) hlines

/-- The lines of a comment bear the mark exactly when those do in which an entry goes on. -/
lemma isCommentLine_markedLines_iff {doc : List String} :
    (∀ line ∈ Text.lines (markedLines level "/// " doc).toList, IsCommentLine level line)
      ↔ ∀ s ∈ doc, ∀ line ∈ continuations s, IsCommentLine level line := by
  induction doc with
  | nil => simp [markedLines, String.join, Text.lines]
  | cons s rest ih =>
    obtain ⟨line, hline, hlines⟩ := lines_entry level s
    have hcons : Text.lines (markedLines level "/// " (s :: rest)).toList
        = line :: continuations s ++ Text.lines (markedLines level "/// " rest).toList := by
      rw [toList_markedLines_cons, ← List.append_assoc, Text.lines_append_newline,
        List.append_assoc, hlines]
    rw [hcons, List.forall_mem_append, List.forall_mem_cons, ih, List.forall_mem_cons]
    exact and_congr_left fun _ => and_iff_right hline

/-! ## Comments in the files -/

/-- A declaration stands in the file, behind an empty line. -/
lemma File.infix_of_mem {file : File} {block : String}
    (h : block ∈ file.enums.map Enumeration.text ++ file.functions.map (Function.text 0)
      ++ file.extensions.map Extension.text) : block.toList <:+: file.text.toList := by
  refine infix_append_of_right (List.IsInfix.trans ?_ (infix_join (List.mem_map_of_mem h)))
  exact infix_append_of_right List.infix_rfl

lemma File.infix_of_mem_functions {file : File} {f : Function} (hf : f ∈ file.functions) :
    (f.text 0).toList <:+: file.text.toList :=
  infix_of_mem (List.mem_append_left _ (List.mem_append_right _ (List.mem_map_of_mem hf)))

lemma Extension.infix_of_mem {e : Extension} {f : Function} (hf : f ∈ e.members) :
    (f.text 1).toList <:+: e.text.toList := by
  have hmem : f.text 1 ∈ e.members.map (Function.text 1) := List.mem_map_of_mem hf
  refine infix_append_of_left (infix_append_of_right ?_)
  exact infix_intercalate hmem

lemma File.infix_of_mem_members {file : File} {e : Extension} (he : e ∈ file.extensions)
    {f : Function} (hf : f ∈ e.members) : (f.text 1).toList <:+: file.text.toList :=
  (Extension.infix_of_mem hf).trans
    (infix_of_mem (List.mem_append_right _ (List.mem_map_of_mem he)))

/-- A declaration has the comment of its binding. -/
lemma doc_functionOf {m : BindingModule} {b : Binding} {f : Function}
    (h : functionOf m b = .ok f) : f.doc = b.doc := by
  obtain ⟨parameters, -, h⟩ := Fault.bind_eq_ok_iff.1 h
  obtain ⟨result, -, h⟩ := Fault.bind_eq_ok_iff.1 h
  obtain ⟨body, -, h⟩ := Fault.bind_eq_ok_iff.1 h
  obtain rfl := Except.ok.inj h
  rfl

/-- What is true of the comment of a declaration at a level of a text. -/
structure Function.Documented (stage : Schema.Stage) (descriptions : Schema.Descriptions)
    (level : Nat) (text : String) (f : Function) : Prop where
  /-- The comment stands in the text, in front of a declaration that owes it nothing. -/
  printed : (f.comment level ++ f.withoutDoc.text level).toList <:+: text.toList
  /-- The entries are display names and descriptions of nodes. -/
  prose : ∀ s ∈ f.doc, ∃ prim ∈ stage.nodes, prim.displayName? = some s ∨
    (descriptions.get? prim.name).bind cleanDescription? = some s
  /-- All lines bear the mark when those do in which an entry goes on. -/
  marked_iff : (∀ line ∈ Text.lines (f.comment level).toList, IsCommentLine level line) ↔
    ∀ s ∈ f.doc, ∀ line ∈ continuations s, IsCommentLine level line
  /-- All lines bear the mark when no entry has a line break. -/
  marked : (∀ s ∈ f.doc, ∀ c ∈ s.toList, Text.IsInner c) →
    ∀ line ∈ Text.lines (f.comment level).toList, IsCommentLine level line

end Swift

/-! ## Generation -/

section Generation

variable {schema : String} {descriptions : Schema.Descriptions} {strict : Bool}

/-- The comment of a declaration in the files is that of a binding of the run. -/
lemma documented_of_binding {stage : Schema.Stage} {m : BindingModule} {session : Session}
    (hrun : (Session.new strict).run stage descriptions = (.ok m, session)) {b : Binding}
    (hb : b ∈ m.bindings) {f : Function} (hf : functionOf m b = .ok f) {level : Nat}
    {text : String} (hprinted : (f.text level).toList <:+: text.toList) :
    f.Documented stage descriptions level text := by
  have hiff : (∀ line ∈ Text.lines (f.comment level).toList, IsCommentLine level line) ↔
      ∀ s ∈ f.doc, ∀ line ∈ continuations s, IsCommentLine level line :=
    isCommentLine_markedLines_iff
  refine ⟨f.text_eq level ▸ hprinted, fun s hs => ?_, hiff, fun hone => hiff.2 fun s hs => ?_⟩
  · rw [doc_functionOf hf] at hs
    exact exists_prim_of_mem_doc hrun hb hs
  · rw [continuations_of_isInner (hone s hs)]
    exact fun line hline => absurd hline List.not_mem_nil

/-- **A comment holds its text as long as the text is one line.**  Every declaration of the
generated files stands behind its comment, whose entries are display names and descriptions of
nodes.  Every line of the comment bears the mark of a comment exactly when every line does in which
an entry goes on after a line break.  So it does when no entry has a line break.  Without its
comments a file is the same for all display names and descriptions. -/
theorem comments_marked_iff {g : Generated} (h : generate schema descriptions strict = .ok g) :
    ∃ stage units, Schema.Stage.ofText? schema = some stage ∧
      filesOf? schema descriptions strict = some units ∧
      g.operations = units.operations.text ∧ g.sources = units.sources.text ∧
      (∀ f ∈ units.operations.functions, f.Documented stage descriptions 0 g.operations) ∧
      (∀ e ∈ units.sources.extensions, ∀ f ∈ e.members,
        f.Documented stage descriptions 1 g.sources) ∧
      ∀ schema' stage' descriptions', Schema.Stage.ofText? schema' = some stage' →
        stage.Alike stage' →
        (filesOf? schema' descriptions' strict).map Units.withoutDocs
          = some units.withoutDocs := by
  obtain ⟨units, hunits, hoperations, hsources⟩ := exists_filesOf? h
  obtain ⟨stage, m, session, hstage, hrun, -, hmodule⟩ := filesOf?_eq_some_iff.1 hunits
  refine ⟨stage, units, hstage, hunits, hoperations, hsources, fun f hf => ?_,
    fun e he f hf => ?_, fun schema' stage' descriptions' hstage' halike => ?_⟩
  · have hdeclared : f ∈ units.declarations := List.mem_append_left _ hf
    obtain ⟨b, hb, hfunction⟩ := exists_binding hmodule hdeclared
    rw [hoperations]
    exact documented_of_binding hrun hb hfunction (File.infix_of_mem_functions hf)
  · have hdeclared : f ∈ units.declarations :=
      List.mem_append_right _ (List.mem_flatMap_of_mem he hf)
    obtain ⟨b, hb, hfunction⟩ := exists_binding hmodule hdeclared
    rw [hsources]
    exact documented_of_binding hrun hb hfunction (File.infix_of_mem_members he hf)
  · rw [← filesOf?_alike halike descriptions descriptions' strict hstage hstage', hunits]
    rfl

end Generation

/-! ## A description of two lines -/

/-- The lines of the text of a node with one input. -/
def fadeLines : List String :=
  ["\x7b\"prims\":[\x7b\"path\":\"/ND_fade\",\"properties\":[",
    "\x7b\"name\":\"inputs:a\",\"typeName\":\"float\"\x7d,",
    "\x7b\"name\":\"outputs:out\",\"typeName\":\"float\"\x7d]\x7d]\x7d"]

def fadeSchema : String := String.join fadeLines

/-- A description with a line break. -/
def fadeDescriptions : Schema.Descriptions := [("ND_fade", "Fades.\nNot clamped.")]

lemma exists_filesOf?_fade : ∃ units f, filesOf? fadeSchema fadeDescriptions false = some units ∧
    f ∈ units.operations.functions ∧ f.doc = ["Fades.\nNot clamped."] := by
  have htext : fadeSchema.toList = fadeLines.flatMap String.toList := String.toList_join
  have hdocs : (filesOf? fadeSchema fadeDescriptions false).map (fun units =>
      units.operations.functions.map (·.doc)) = some [["Fades.\nNot clamped."]] := by
    rw [filesOf?, Schema.Stage.ofText?, Json.Document.ofText?, htext]
    decide +kernel
  obtain ⟨units, hunits, hdoc⟩ := Option.map_eq_some_iff.1 hdocs
  have hmem : ["Fades.\nNot clamped."] ∈ units.operations.functions.map (·.doc) :=
    hdoc ▸ List.mem_cons_self
  obtain ⟨f, hf, hdoc⟩ := List.mem_map.1 hmem
  exact ⟨units, f, hunits, hf, hdoc⟩

/-- The second line of the description does not bear the mark. -/
lemma not_isCommentLine_fade :
    ¬ ∀ s ∈ ["Fades.\nNot clamped."], ∀ line ∈ continuations s, IsCommentLine 0 line := by
  intro hall
  have hmem : "Not clamped.\n".toList ∈ continuations "Fades.\nNot clamped." := by decide
  have hmarked := hall _ List.mem_cons_self _ hmem
  exact absurd hmarked (by unfold IsCommentLine; decide)

theorem comments_marked_iff_fade :
    ∃ g units f, generate fadeSchema fadeDescriptions false = .ok g ∧
      filesOf? fadeSchema fadeDescriptions false = some units ∧
      g.operations = units.operations.text ∧ f ∈ units.operations.functions ∧
      f.doc = ["Fades.\nNot clamped."] ∧
      (f.comment 0 ++ f.withoutDoc.text 0).toList <:+: g.operations.toList ∧
      ¬ (∀ line ∈ Text.lines (f.comment 0).toList, IsCommentLine 0 line) ∧
      (filesOf? fadeSchema [] false).map Units.withoutDocs = some units.withoutDocs := by
  obtain ⟨units, f, hunits, hf, hdoc⟩ := exists_filesOf?_fade
  obtain ⟨g, hg⟩ := exists_generate hunits
  obtain ⟨stage, units', hstage, hunits', hoperations, -, hfunctions, -, hsame⟩ :=
    comments_marked_iff hg
  obtain rfl := Option.some.inj (hunits.symm.trans hunits')
  have hdocumented := hfunctions f hf
  refine ⟨g, units, f, hg, hunits, hoperations, hf, hdoc, hdocumented.printed, fun hall => ?_,
    hsame fadeSchema stage [] hstage (Schema.Stage.Alike.refl stage)⟩
  rw [hdocumented.marked_iff, hdoc] at hall
  exact not_isCommentLine_fade hall

/-- The comment of a generated function may have a line that bears no mark. -/
theorem not_marked_fade :
    ¬ ∀ schema descriptions strict g, generate schema descriptions strict = .ok g →
      ∃ units, filesOf? schema descriptions strict = some units ∧
        ∀ f ∈ units.operations.functions, ∀ line ∈ Text.lines (f.comment 0).toList,
          IsCommentLine 0 line := by
  intro hall
  obtain ⟨units, f, hunits, hf, hdoc⟩ := exists_filesOf?_fade
  obtain ⟨g, hg⟩ := exists_generate hunits
  obtain ⟨units', hunits', hmarked⟩ := hall fadeSchema fadeDescriptions false g hg
  obtain rfl := Option.some.inj (hunits.symm.trans hunits')
  have hlines := isCommentLine_markedLines_iff.1 (hmarked f hf)
  rw [hdoc] at hlines
  exact not_isCommentLine_fade hlines

end ShaderBindings
