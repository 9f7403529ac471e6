/-
# Splicing

A document has a place for the table when it has a begin anchor, an end anchor behind it, and no
other begin anchor behind that one (`Anchored`).  Splicing succeeds on these documents, puts the
table into the place and keeps everything around it.  What it makes is again such a document, with
the same surroundings, as long as the table contains no end anchor, so that of several splices the
last one counts (`splice_region`).

The begin anchor is found where it was found before, because an earlier occurrence would lie in the
part that is kept.  The end anchor is the one behind the table: the table ends in a line break, and
no anchor contains one, so none reaches over its end.
-/
import ShaderBindings.Docs.Splice
import ShaderBindings.Proofs.Fault
import ShaderBindings.Proofs.Search

namespace ShaderBindings

/-! ## Anchors -/

namespace Docs

/-- The document has a place for the table, which holds `inside`: it stands behind the first begin
anchor and in front of the first end anchor from there on, and no other begin anchor follows. -/
structure Anchored (document before inside after : List Char) : Prop where
  beginning : Text.FirstAt beginAnchor document before (inside ++ endAnchor ++ after)
  ending : Text.FirstAt endAnchor (inside ++ endAnchor ++ after) inside after
  single : ¬ beginAnchor <:+: after

variable {document table before inside after : List Char}

lemma beginAnchor_ne_nil : beginAnchor ≠ [] := by decide

lemma endAnchor_ne_nil : endAnchor ≠ [] := by decide

/-- The surroundings of the place are found. -/
lemma surroundings_eq_ok_iff :
    surroundings document = .ok (before, after) ↔
      ∃ inside, Anchored document before inside after := by
  constructor
  · intro h
    rw [surroundings] at h
    rcases hbegin : Text.cutAt? beginAnchor document with _ | ⟨front, rest⟩
    · simp [hbegin] at h
    rcases hend : Text.cutAt? endAnchor rest with _ | ⟨inside, back⟩
    · simp only [hbegin, hend] at h
      split_ifs at h
    simp only [hbegin, hend] at h
    split_ifs at h with hrepeated
    obtain ⟨rfl, rfl⟩ := Prod.mk.inj (Except.ok.inj h)
    obtain rfl := Text.eq_of_cutAt? hend
    exact ⟨inside, (Text.cutAt?_eq_some_iff beginAnchor_ne_nil).1 hbegin,
      (Text.cutAt?_eq_some_iff endAnchor_ne_nil).1 hend,
      fun h => hrepeated ((Text.contains_eq_true_iff beginAnchor_ne_nil).2 h)⟩
  · rintro ⟨inside, h⟩
    have hsingle : ¬ Text.contains beginAnchor after = true := by
      rw [Text.contains_eq_true_iff beginAnchor_ne_nil]
      exact h.single
    rw [surroundings, (Text.cutAt?_eq_some_iff beginAnchor_ne_nil).2 h.beginning]
    dsimp only
    rw [(Text.cutAt?_eq_some_iff endAnchor_ne_nil).2 h.ending]
    exact if_neg hsingle

/-- A place and its surroundings are all of a document. -/
lemma Anchored.spliceChars (h : Anchored document before inside after) (table : List Char) :
    spliceChars document table
      = .ok (before ++ beginAnchor ++ '\n' :: terminated table ++ endAnchor ++ after) := by
  rw [Docs.spliceChars, surroundings_eq_ok_iff.2 ⟨inside, h⟩]
  rfl

lemma getLast?_terminated (s : List Char) : (terminated s).getLast? = some '\n' := by
  rw [terminated]
  split_ifs with h
  · exact h
  · simp

/-- The lines of a table without an end anchor contain none. -/
lemma not_infix_terminated (h : ¬ endAnchor <:+: table) :
    ¬ endAnchor <:+: '\n' :: terminated table := by
  have hbreak : '\n' ∉ endAnchor := by decide
  have hterminated : ¬ endAnchor <:+: terminated table := by
    rw [terminated]
    split_ifs
    · exact h
    · rintro ⟨front, back, heq⟩
      rcases List.eq_nil_or_concat back with rfl | ⟨back', last, rfl⟩
      · rw [List.append_nil] at heq
        have hlast : '\n' ∈ endAnchor := by
          have hsuffix : endAnchor <:+ table ++ ['\n'] := ⟨front, heq⟩
          rcases List.suffix_concat_iff.1 (by simpa using hsuffix) with hnil | ⟨t, ht, -⟩
          · exact absurd hnil endAnchor_ne_nil
          · rw [ht]
            simp
        exact hbreak hlast
      · rw [List.concat_eq_append, ← List.append_assoc] at heq
        exact h ⟨front, back', (List.append_inj' heq rfl).1⟩
  intro hheld
  rcases List.infix_cons_iff.1 hheld with hstart | hheld
  · obtain ⟨tail, htail⟩ := hstart
    obtain ⟨c, rest, hanchor⟩ := List.exists_cons_of_ne_nil endAnchor_ne_nil
    rw [hanchor, List.cons_append, List.cons.injEq] at htail
    rw [hanchor, htail.1] at hbreak
    exact hbreak List.mem_cons_self
  · exact hterminated hheld

/-- The place stays when a table is spliced in. -/
lemma Anchored.splice (h : Anchored document before inside after)
    (htable : ¬ endAnchor <:+: table) :
    Anchored (before ++ beginAnchor ++ '\n' :: terminated table ++ endAnchor ++ after) before
      ('\n' :: terminated table) after where
  beginning := by
    have hfirst := (Text.cutAt?_eq_some_iff beginAnchor_ne_nil).2 h.beginning
    rw [h.beginning.eq] at hfirst
    refine (Text.cutAt?_eq_some_iff beginAnchor_ne_nil).1 ?_
    have hspliced : before ++ beginAnchor ++ '\n' :: terminated table ++ endAnchor ++ after
        = before ++ beginAnchor ++ ('\n' :: terminated table ++ endAnchor ++ after) := by
      simp only [List.append_assoc]
    rw [hspliced]
    exact Text.cutAt?_congr beginAnchor_ne_nil hfirst _
  ending := by
    have hlast : ∀ c ∈ ('\n' :: terminated table).getLast?, c = '\n' := by
      intro c hc
      rw [List.getLast?_cons, getLast?_terminated] at hc
      exact (Option.some.inj hc).symm
    refine (Text.cutAt?_eq_some_iff endAnchor_ne_nil).1 ?_
    rw [List.append_assoc]
    exact Text.cutAt?_of_not_infix endAnchor_ne_nil (by decide) hlast (not_infix_terminated htable)
      after
  single := h.single

/-- Splicing succeeds where there is a place for the table. -/
lemma exists_splice_iff (document table : String) :
    (∃ spliced, splice document table = .ok spliced) ↔
      ∃ before inside after, Anchored document.toList before inside after := by
  constructor
  · rintro ⟨spliced, h⟩
    obtain ⟨characters, hspliced, -⟩ := Fault.map_eq_ok_iff.1 h
    obtain ⟨⟨before, after⟩, hsurroundings, -⟩ := Fault.map_eq_ok_iff.1 hspliced
    obtain ⟨inside, hanchored⟩ := surroundings_eq_ok_iff.1 hsurroundings
    exact ⟨before, inside, after, hanchored⟩
  · rintro ⟨before, inside, after, h⟩
    exact ⟨_, by rw [splice, h.spliceChars]; rfl⟩

lemma Anchored.splice_eq {document : String} (h : Anchored document.toList before inside after)
    (table : String) : Docs.splice document table = .ok (String.ofList
      (before ++ beginAnchor ++ '\n' :: terminated table.toList ++ endAnchor ++ after)) := by
  rw [Docs.splice, h.spliceChars]
  rfl

/-- A table that has been spliced in leaves no trace in the next splice. -/
lemma splice_of_splice {document table spliced : String}
    (h : splice document table = .ok spliced) (htable : ¬ endAnchor <:+: table.toList)
    (other : String) : splice spliced other = splice document other := by
  obtain ⟨before, inside, after, hanchored⟩ := (exists_splice_iff document table).1 ⟨spliced, h⟩
  obtain rfl := Except.ok.inj ((hanchored.splice_eq table).symm.trans h)
  have hagain := hanchored.splice htable
  rw [← String.toList_ofList (l := before ++ beginAnchor ++ _ ++ endAnchor ++ after)] at hagain
  rw [hagain.splice_eq, hanchored.splice_eq]

/-- **Splicing is stable.**  A document that holds the table is spliced to itself, unless the table
contains an end anchor. -/
lemma splice_splice {document table spliced : String} (h : splice document table = .ok spliced)
    (htable : Text.contains endAnchor table.toList = false) :
    splice spliced table = .ok spliced := by
  rw [Bool.eq_false_iff, Ne, Text.contains_eq_true_iff endAnchor_ne_nil] at htable
  rw [splice_of_splice h htable, h]

/-- **Splicing changes the place of the table, and the last splice counts.**  It succeeds exactly on
the documents that have a place for the table.  There it keeps everything up to the begin anchor and
from the end anchor on, and puts the table between them, on lines of its own.  A table without an
end anchor that has been spliced in does not matter to later splices; in particular splicing it once
more changes nothing. -/
theorem splice_region (document table : String) :
    ((∃ spliced, splice document table = .ok spliced) ↔
        ∃ before inside after, Anchored document.toList before inside after) ∧
      (∀ before inside after, Anchored document.toList before inside after →
        splice document table = .ok (String.ofList
          (before ++ beginAnchor ++ '\n' :: terminated table.toList ++ endAnchor ++ after))) ∧
      (¬ endAnchor <:+: table.toList → ∀ spliced, splice document table = .ok spliced →
        splice spliced table = .ok spliced ∧
          ∀ other, splice spliced other = splice document other) := by
  refine ⟨exists_splice_iff document table, fun before inside after h => h.splice_eq table,
    fun htable spliced h => ?_⟩
  have hlast := splice_of_splice h htable
  exact ⟨(hlast table).trans h, hlast⟩

/-- A document with an end anchor in front of the place, a begin anchor inside of it and an end
anchor behind it. -/
def strayDocument : String :=
  "<!-- END OPGEN TABLE -->\n<!-- BEGIN OPGEN TABLE -->\nold\n<!-- BEGIN OPGEN TABLE -->\n"
    ++ "<!-- END OPGEN TABLE -->\n<!-- END OPGEN TABLE -->\n"

theorem splice_region_stray : ∃ before inside after spliced,
    Anchored strayDocument.toList before inside after ∧ beginAnchor <:+: inside ∧
      ¬ endAnchor <:+: "| new |".toList ∧ splice strayDocument "| new |" = .ok spliced ∧
      spliced = "<!-- END OPGEN TABLE -->\n<!-- BEGIN OPGEN TABLE -->\n| new |\n"
        ++ "<!-- END OPGEN TABLE -->\n<!-- END OPGEN TABLE -->\n" ∧
      splice spliced "| new |" = .ok spliced ∧
      ∀ other, splice spliced other = splice strayDocument other := by
  have htable : ¬ endAnchor <:+: "| new |".toList := by decide +kernel
  have hsplice : splice strayDocument "| new |"
      = .ok ("<!-- END OPGEN TABLE -->\n<!-- BEGIN OPGEN TABLE -->\n| new |\n"
        ++ "<!-- END OPGEN TABLE -->\n<!-- END OPGEN TABLE -->\n") := by
    decide +kernel
  obtain ⟨hplace, -, hagain⟩ := splice_region strayDocument "| new |"
  obtain ⟨before, inside, after, hanchored⟩ := hplace.1 ⟨_, hsplice⟩
  refine ⟨before, inside, after, _, hanchored, ?_, htable, hsplice, rfl, hagain htable _ hsplice⟩
  -- the cut is the one that the search finds
  have hcut := (Text.cutAt?_eq_some_iff beginAnchor_ne_nil).2 hanchored.beginning
  have hinside := (Text.cutAt?_eq_some_iff endAnchor_ne_nil).2 hanchored.ending
  have hfound : ((Text.cutAt? beginAnchor strayDocument.toList).bind fun cut =>
      Text.cutAt? endAnchor cut.2).map (fun cut => Text.contains beginAnchor cut.1)
        = some true := by
    decide +kernel
  rw [hcut, Option.bind_some, hinside] at hfound
  exact (Text.contains_eq_true_iff beginAnchor_ne_nil).1 (Option.some.inj hfound)

end Docs

end ShaderBindings
