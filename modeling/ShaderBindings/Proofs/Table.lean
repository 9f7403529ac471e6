/-
# Reading the table

The table of bindings can be read again: it falls into lines, a line into cells at the bars, and a
cell has names where it has code, between grave accents (`readTable?`).  Of every binding the reader
gets the name, the kind and the nodes.

The name of a binding is an identifier, but the name of a node is free text, and the table has it as
it is.  What is read stands between separators, so that a name with a separator in it is never read;
and without such names the reader finds every part (`readTable?_table_iff`).  The anchors have no
separators in them, so the table has an anchor only where a name has one (`infix_table_iff`).
Together they tell when the table is readable (`table_readable_iff`).
-/
import ShaderBindings.Docs.Splice
import ShaderBindings.Docs.Table
import ShaderBindings.Proofs.Accounting
import ShaderBindings.Proofs.Infixes
import ShaderBindings.Proofs.Origins
import ShaderBindings.Proofs.Spelling

namespace ShaderBindings

namespace Docs

/-! ## The reader -/

/-- What a line of the table tells of a binding. -/
structure Entry where
  name : String
  kind : BindingKind
  nodes : List String
deriving DecidableEq

def Entry.ofBinding (b : Binding) : Entry := ⟨b.name, b.kind, b.nodeIds⟩

/-- The parts that stand between two others, where the separators open and close in turn. -/
def enclosed : List (List Char) → List (List Char)
  | _ :: x :: y :: rest => x :: enclosed (y :: rest)
  | _ => []

/-- The texts that stand in a cell as code. -/
def spans (cell : List Char) : List String := (enclosed (cell.splitOn '\x60')).map String.ofList

def kindOf? (cell : List Char) : Option BindingKind :=
  [BindingKind.source, .operation].find? fun k => (" " ++ k.text ++ " ").toList = cell

/-- A line has three cells: a name, a kind and some nodes. -/
def entryOf? (line : List Char) : Option Entry :=
  match line.splitOn '|' with
  | [[], name, kind, nodes, []] =>
    match spans name, kindOf? kind with
    | [name], some kind => some ⟨name, kind, spans nodes⟩
    | _, _ => none
  | _ => none

/-- The entries of some lines, the last one of which is empty. -/
def entriesOf? : List (List Char) → Option (List Entry)
  | [] => none
  | [last] => if last = [] then some [] else none
  | line :: next :: rest => do
    let entry ← entryOf? line
    let entries ← entriesOf? (next :: rest)
    some (entry :: entries)

def headLines : List (List Char) :=
  ["| Binding | Kind | Node types |".toList, "| --- | --- | --- |".toList]

/-- The entries of a table, which stand below the two lines of its head. -/
def readTable? (text : String) : Option (List Entry) :=
  match text.toList.splitOn '\n' with
  | columns :: rule :: lines =>
    if [columns, rule] = headLines then entriesOf? lines else none
  | _ => none

/-! ## Readable tables -/

/-- The characters that end a line, a cell and a piece of code. -/
def separators : List Char := ['\n', '|', '\x60']

/-- No character of the name ends a part of the table, and the name has no anchor. -/
structure IsPlain (id : String) : Prop where
  separators : ∀ c ∈ separators, c ∉ id.toList
  anchors : ∀ anchor ∈ [beginAnchor, endAnchor], ¬ anchor <:+: id.toList

/-- The table tells the bindings in their order, one on each line, and has no anchor. -/
structure IsReadable (m : BindingModule) : Prop where
  entries : readTable? (table m) = some (m.bindings.map Entry.ofBinding)
  anchors : ∀ anchor ∈ [beginAnchor, endAnchor], ¬ anchor <:+: (table m).toList

/-! ## What is read stands between separators -/

section Reading

variable {s part line : List Char} {c : Char}

lemma notMem_and_subset_of_mem_splitOn (h : part ∈ s.splitOn c) : c ∉ part ∧ part ⊆ s := by
  induction s generalizing part with
  | nil =>
    obtain rfl := List.mem_singleton.1 h
    exact ⟨List.not_mem_nil, List.Subset.refl _⟩
  | cons d s ih =>
    have hsub : s ⊆ d :: s := List.subset_cons_self d s
    rw [List.splitOn_cons_eq_if_modifyHead] at h
    split_ifs at h with hd
    · rcases List.mem_cons.1 h with rfl | h
      · exact ⟨List.not_mem_nil, List.nil_subset _⟩
      · exact ⟨(ih h).1, List.Subset.trans (ih h).2 hsub⟩
    · obtain ⟨first, rest, hsplit⟩ := List.exists_cons_of_ne_nil (List.splitOn_ne_nil c s)
      rw [hsplit] at h ih
      rcases List.mem_cons.1 h with rfl | h
      · obtain ⟨hfree, hfirst⟩ := ih List.mem_cons_self
        refine ⟨fun hc => ?_, List.cons_subset_cons d hfirst⟩
        rcases List.mem_cons.1 hc with rfl | hc
        · exact hd (beq_self_eq_true c)
        · exact hfree hc
      · obtain ⟨hfree, hpart⟩ := ih (List.mem_cons_of_mem first h)
        exact ⟨hfree, List.Subset.trans hpart hsub⟩

lemma mem_of_mem_enclosed {parts : List (List Char)} (h : part ∈ enclosed parts) :
    part ∈ parts := by
  induction parts using enclosed.induct with
  | case1 first x y rest ih =>
    rw [enclosed, List.mem_cons] at h
    rcases h with rfl | h
    · exact List.mem_cons_of_mem _ List.mem_cons_self
    · exact List.mem_cons_of_mem _ (List.mem_cons_of_mem _ (ih h))
  | case2 parts hshort =>
    rw [enclosed] at h
    · exact absurd h List.not_mem_nil
    · exact hshort

lemma notMem_and_subset_of_mem_spans {id : String} (h : id ∈ spans s) :
    '\x60' ∉ id.toList ∧ id.toList ⊆ s := by
  obtain ⟨part, hpart, rfl⟩ := List.mem_map.1 h
  rw [String.toList_ofList]
  exact notMem_and_subset_of_mem_splitOn (mem_of_mem_enclosed hpart)

lemma exists_spans_of_entryOf? {e : Entry} (h : entryOf? line = some e) :
    ∃ cell ∈ line.splitOn '|', e.nodes = spans cell := by
  rw [entryOf?] at h
  split at h
  · rename_i name kind nodes hcells
    split at h
    · obtain rfl := Option.some.inj h
      rw [hcells]
      exact ⟨nodes, by simp, rfl⟩
    · exact absurd h (by simp)
  · exact absurd h (by simp)

lemma exists_line_of_mem {lines : List (List Char)} {es : List Entry}
    (h : entriesOf? lines = some es) {e : Entry} (he : e ∈ es) :
    ∃ line ∈ lines, entryOf? line = some e := by
  induction lines using entriesOf?.induct generalizing es with
  | case1 => exact absurd h (by simp [entriesOf?])
  | case2 =>
    obtain rfl : [] = es := by simpa [entriesOf?] using h
    exact absurd he List.not_mem_nil
  | case3 last hlast => exact absurd h (by simp [entriesOf?, hlast])
  | case4 line next rest ih =>
    rw [entriesOf?] at h
    obtain ⟨first, hfirst, h⟩ := Option.bind_eq_some_iff.1 h
    obtain ⟨others, hothers, h⟩ := Option.bind_eq_some_iff.1 h
    obtain rfl := Option.some.inj h
    rcases List.mem_cons.1 he with rfl | he
    · exact ⟨line, List.mem_cons_self, hfirst⟩
    · obtain ⟨line', hmem, hline'⟩ := ih hothers he
      exact ⟨line', List.mem_cons_of_mem _ hmem, hline'⟩

/-- No node is read with a separator in its name. -/
lemma separators_of_readTable? {text : String} {es : List Entry} (h : readTable? text = some es)
    {e : Entry} (he : e ∈ es) {id : String} (hid : id ∈ e.nodes) :
    ∀ c ∈ separators, c ∉ id.toList := by
  rw [readTable?] at h
  split at h
  · rename_i columns rule lines hlines
    split_ifs at h
    obtain ⟨line, hline, hentry⟩ := exists_line_of_mem h he
    obtain ⟨cell, hcell, hnodes⟩ := exists_spans_of_entryOf? hentry
    rw [hnodes] at hid
    have hbreak : line ∈ text.toList.splitOn '\n' := by
      rw [hlines]
      exact List.mem_cons_of_mem _ (List.mem_cons_of_mem _ hline)
    obtain ⟨haccent, hcode⟩ := notMem_and_subset_of_mem_spans hid
    obtain ⟨hbar, hinside⟩ := notMem_and_subset_of_mem_splitOn hcell
    simp only [separators, List.forall_mem_cons]
    refine ⟨fun hc => ?_, fun hc => hbar (hcode hc), haccent, by simp⟩
    exact (notMem_and_subset_of_mem_splitOn hbreak).1 (hinside (hcode hc))
  · exact absurd h (by simp)

end Reading

/-! ## The parts of the table -/

/-- Some names as code, with commas between them. -/
def codes (ids : List String) : List Char := (", ".intercalate (ids.map code)).toList

def cell (text : List Char) : List Char := ' ' :: text ++ [' ']

/-- The row of a binding without the line feed at its end.  In front of the first bar there is
nothing. -/
def line (b : Binding) : List Char :=
  [] ++ '|' :: (cell (codes [b.name]) ++ '|' :: (cell b.kind.text.toList ++
    '|' :: (cell (codes b.nodeIds) ++ ['|'])))

lemma toList_tableRow (b : Binding) : (tableRow b).toList = line b ++ ['\n'] := by
  simp [tableRow, line, cell, codes]

lemma toList_table (m : BindingModule) : (table m).toList
    = headLines.flatMap (fun l => l ++ ['\n']) ++ m.bindings.flatMap fun b => line b ++ ['\n'] := by
  rw [table, String.toList_append, String.toList_join, List.flatMap_map]
  simp only [toList_tableRow]
  rfl

section Parts

variable {mark pre post tail : List Char} {id : String} {ids : List String} {c : Char}

lemma codes_singleton (id : String) : codes [id] = '\x60' :: (id.toList ++ ['\x60']) := by
  simp [codes, code]

lemma codes_cons_cons (id next : String) (rest : List String) :
    codes (id :: next :: rest)
      = '\x60' :: (id.toList ++ '\x60' :: (", ".toList ++ codes (next :: rest))) := by
  simp [codes, code, String.intercalate_cons_cons]

lemma spans_eq_nil (h : '\x60' ∉ tail) : spans tail = [] := by
  rw [spans, List.splitOn_eq_singleton h]
  rfl

/-- The first piece of code is read first. -/
lemma spans_cons (hpre : '\x60' ∉ pre) (hid : '\x60' ∉ id.toList) :
    spans (pre ++ '\x60' :: (id.toList ++ '\x60' :: tail)) = id :: spans tail := by
  obtain ⟨first, rest, hsplit⟩ := List.exists_cons_of_ne_nil (List.splitOn_ne_nil '\x60' tail)
  rw [spans, List.splitOn_append_cons_self_of_not_mem hpre,
    List.splitOn_append_cons_self_of_not_mem hid, hsplit, enclosed, List.map_cons,
    String.ofList_toList, ← hsplit, spans]

/-- All names are read, in their order. -/
lemma spans_codes (hpre : '\x60' ∉ pre) (hpost : '\x60' ∉ post)
    (hids : ∀ id ∈ ids, '\x60' ∉ id.toList) : spans (pre ++ (codes ids ++ post)) = ids := by
  induction ids generalizing pre with
  | nil => exact spans_eq_nil (by simp [codes, hpre, hpost])
  | cons id rest ih =>
    rw [List.forall_mem_cons] at hids
    cases rest with
    | nil =>
      rw [codes_singleton, List.cons_append, List.append_assoc, List.singleton_append,
        spans_cons hpre hids.1, spans_eq_nil hpost]
    | cons next rest =>
      rw [codes_cons_cons, List.cons_append, List.append_assoc, List.cons_append,
        spans_cons hpre hids.1, List.append_assoc, ih (by decide) hids.2]

/-- Between the names there are blanks, commas and grave accents only. -/
lemma infix_codes_iff (hc : c ∈ mark) (hframe : c ∉ ", ".toList) (haccent : '\x60' ∉ mark)
    (hpre : c ∉ pre) (hpost : c ∉ post) :
    mark <:+: pre ++ (codes ids ++ post) ↔ ∃ id ∈ ids, mark <:+: id.toList := by
  have hne : mark ≠ [] := List.ne_nil_of_mem hc
  induction ids generalizing pre with
  | nil =>
    have hout : ¬ mark <:+: pre ++ post := not_infix_of_notMem hc (by simp [hpre, hpost])
    simpa [codes] using hout
  | cons id rest ih =>
    have hfront := not_infix_of_notMem hc hpre
    rw [List.exists_mem_cons_iff]
    cases rest with
    | nil =>
      rw [codes_singleton, List.cons_append, List.append_assoc, List.singleton_append,
        infix_append_cons_iff hne haccent, infix_append_cons_iff hne haccent]
      simp [hfront, not_infix_of_notMem hc hpost]
    | cons next rest =>
      have hrest : mark <:+: ", ".toList ++ (codes (next :: rest) ++ post) ↔
          ∃ id ∈ next :: rest, mark <:+: id.toList := ih hframe
      rw [codes_cons_cons, List.cons_append, List.append_assoc, List.cons_append,
        infix_append_cons_iff hne haccent, infix_append_cons_iff hne haccent, List.append_assoc,
        hrest]
      simp [hfront]

lemma infix_cell_iff (hc : c ∈ mark) (hframe : c ∉ ", ".toList) (haccent : '\x60' ∉ mark) :
    mark <:+: cell (codes ids) ↔ ∃ id ∈ ids, mark <:+: id.toList := by
  have hblank : c ∉ [' '] := fun h => hframe (List.mem_cons_of_mem ',' h)
  exact infix_codes_iff hc hframe haccent hblank hblank

lemma bar_mem_cell_iff : '|' ∈ cell (codes ids) ↔ ∃ id ∈ ids, '|' ∈ id.toList := by
  have hcell : ['|'] <:+: cell (codes ids) ↔ ∃ id ∈ ids, ['|'] <:+: id.toList :=
    infix_cell_iff (List.mem_singleton_self '|') (by decide) (by decide)
  simpa only [List.singleton_infix_iff] using hcell

lemma spans_cell (h : ∀ id ∈ ids, '\x60' ∉ id.toList) : spans (cell (codes ids)) = ids := by
  have hblank : '\x60' ∉ [' '] := by decide
  exact spans_codes hblank hblank h

end Parts

/-! ## Rows -/

/-- The mark stands in no line of the table, unless a node has it in its name. -/
structure IsForeign (mark : List Char) : Prop where
  accent : '\x60' ∉ mark
  bar : '|' ∉ mark
  /-- Some character stands neither between the names nor in an identifier. -/
  stop : ∃ c ∈ mark, c ∉ ", ".toList ∧ Text.isWordChar c = false ∧ c ≠ '_'

lemma isForeign_break : IsForeign ['\n'] := ⟨by decide, by decide, '\n', by decide⟩

lemma isForeign_anchor {anchor : List Char} (h : anchor ∈ [beginAnchor, endAnchor]) :
    IsForeign anchor := by
  rcases List.mem_pair.1 h with rfl | rfl
  · exact ⟨by decide, by decide, '<', by decide⟩
  · exact ⟨by decide, by decide, '<', by decide⟩

/-- The binding has the identifier of its base as its name. -/
def IsNamed (b : Binding) : Prop := b.name = lowerCamel b.baseName

section Rows

variable {b : Binding} {bs : List Binding} {mark : List Char} {c : Char}

lemma IsNamed.notMem (h : IsNamed b) (hword : Text.isWordChar c = false) (hscore : c ≠ '_') :
    c ∉ b.name.toList := by
  intro hc
  rw [h] at hc
  rcases isWordChar_of_mem_lowerCamel hc with hc | hc
  · exact absurd (hword.symm.trans hc) (by decide)
  · exact hscore hc

lemma IsNamed.separators (h : IsNamed b) : ∀ c ∈ separators, c ∉ b.name.toList := by
  have hall : Docs.separators.all (fun c => !Text.isWordChar c && c != '_') = true := by decide
  intro c hc
  obtain ⟨hword, hscore⟩ := Bool.and_eq_true_iff.1 (List.all_eq_true.1 hall c hc)
  exact h.notMem (by simpa using hword) (by simpa using hscore)

lemma notMem_kind (hblank : c ≠ ' ') (hword : Text.isWordChar c = false) :
    c ∉ cell b.kind.text.toList := by
  have hkinds : ∀ k : BindingKind,
      (cell k.text.toList).all (fun d => d == ' ' || Text.isWordChar d) = true := by
    intro k
    cases k with
    | source => decide
    | operation => decide
  intro hc
  have hkind : c = ' ' ∨ Text.isWordChar c = true := by
    simpa using List.all_eq_true.1 (hkinds b.kind) c hc
  rcases hkind with hc | hc
  · exact hblank hc
  · exact absurd (hword.symm.trans hc) (by decide)

lemma infix_line_iff (hmark : IsForeign mark) (hname : IsNamed b) :
    mark <:+: line b ↔ ∃ id ∈ b.nodeIds, mark <:+: id.toList := by
  obtain ⟨haccent, hbar, c, hc, hframe, hword, hscore⟩ := hmark
  have hne : mark ≠ [] := List.ne_nil_of_mem hc
  have hblank : c ≠ ' ' := by
    rintro rfl
    exact hframe (by decide)
  have hkind := not_infix_of_notMem hc (notMem_kind (b := b) hblank hword)
  have hout := not_infix_of_notMem hc (hname.notMem hword hscore)
  rw [line, infix_append_cons_iff hne hbar, infix_append_cons_iff hne hbar,
    infix_append_cons_iff hne hbar, infix_append_cons_iff hne hbar,
    infix_cell_iff hc hframe haccent, infix_cell_iff hc hframe haccent]
  simp [hkind, hne, hout]

lemma break_mem_line_iff (hname : IsNamed b) :
    '\n' ∈ line b ↔ ∃ id ∈ b.nodeIds, '\n' ∈ id.toList := by
  simpa only [List.singleton_infix_iff] using infix_line_iff isForeign_break hname

lemma infix_rows_iff (hmark : IsForeign mark) (hbreak : '\n' ∉ mark)
    (hnames : ∀ b ∈ bs, IsNamed b) :
    mark <:+: bs.flatMap (fun b => line b ++ ['\n'])
      ↔ ∃ b ∈ bs, ∃ id ∈ b.nodeIds, mark <:+: id.toList := by
  obtain ⟨c, hc, -⟩ := hmark.stop
  have hne : mark ≠ [] := List.ne_nil_of_mem hc
  induction bs with
  | nil => simp [hne]
  | cons b rest ih =>
    rw [List.forall_mem_cons] at hnames
    have hrest : mark <:+: rest.flatMap (fun b => line b ++ ['\n']) ↔
        ∃ b ∈ rest, ∃ id ∈ b.nodeIds, mark <:+: id.toList := ih hnames.2
    rw [List.flatMap_cons, List.append_assoc, List.singleton_append,
      infix_append_cons_iff hne hbreak, infix_line_iff hmark hnames.1, hrest,
      List.exists_mem_cons_iff]

/-- Every row has a line of its own. -/
lemma splitOn_rows (h : ∀ b ∈ bs, '\n' ∉ line b) :
    (bs.flatMap fun b => line b ++ ['\n']).splitOn '\n' = bs.map line ++ [[]] := by
  induction bs with
  | nil => rfl
  | cons b rest ih =>
    rw [List.forall_mem_cons] at h
    rw [List.flatMap_cons, List.append_assoc, List.singleton_append,
      List.splitOn_append_cons_self_of_not_mem h.1, ih h.2]
    rfl

lemma kindOf?_kind (k : BindingKind) : kindOf? (cell k.text.toList) = some k := by
  cases k with
  | source => decide
  | operation => decide

lemma IsNamed.bar_notMem_cell (h : IsNamed b) : '|' ∉ cell (codes [b.name]) := by
  rw [bar_mem_cell_iff]
  rintro ⟨name, hname, hbar⟩
  obtain rfl := List.mem_singleton.1 hname
  exact h.separators '|' (by decide) hbar

lemma bar_notMem_kind : '|' ∉ cell b.kind.text.toList := notMem_kind (by decide) (by decide)

/-- A row has three cells when no node has a bar in its name. -/
lemma splitOn_line (hname : IsNamed b) (hids : ∀ id ∈ b.nodeIds, '|' ∉ id.toList) :
    (line b).splitOn '|'
      = [[], cell (codes [b.name]), cell b.kind.text.toList, cell (codes b.nodeIds), []] := by
  have hnodes : '|' ∉ cell (codes b.nodeIds) := by
    rw [bar_mem_cell_iff]
    rintro ⟨id, hid, hbar⟩
    exact hids id hid hbar
  rw [line, List.splitOn_append_cons_self_of_not_mem List.not_mem_nil,
    List.splitOn_append_cons_self_of_not_mem hname.bar_notMem_cell,
    List.splitOn_append_cons_self_of_not_mem bar_notMem_kind,
    List.splitOn_append_cons_self_of_not_mem hnodes, List.splitOn_nil]

/-- A row has the four bars around its cells, when no node has a bar in its name. -/
lemma count_tableRow_iff (hname : IsNamed b) :
    (tableRow b).toList.count '|' = 4 ↔ ∀ id ∈ b.nodeIds, '|' ∉ id.toList := by
  have hcount : (tableRow b).toList.count '|' = (cell (codes b.nodeIds)).count '|' + 4 := by
    have hnameCell := List.count_eq_zero.2 hname.bar_notMem_cell
    have hkindCell := List.count_eq_zero.2 (bar_notMem_kind (b := b))
    simp [toList_tableRow, line, hnameCell, hkindCell]
  have hnodes : (cell (codes b.nodeIds)).count '|' = 0 ↔ ∀ id ∈ b.nodeIds, '|' ∉ id.toList := by
    rw [List.count_eq_zero, bar_mem_cell_iff]
    push Not
    rfl
  rw [hcount, ← hnodes]
  omega

/-- There is a line for every row, when no node has a line feed in its name. -/
lemma count_rows_iff (hnames : ∀ b ∈ bs, IsNamed b) :
    (bs.flatMap fun b => line b ++ ['\n']).count '\n' = bs.length ↔
      ∀ b ∈ bs, ∀ id ∈ b.nodeIds, '\n' ∉ id.toList := by
  have hcount : ∀ bs : List Binding, (bs.flatMap fun b => line b ++ ['\n']).count '\n'
      = (bs.map fun b => (line b).count '\n').sum + bs.length := by
    intro bs
    induction bs with
    | nil => rfl
    | cons b rest ih =>
      rw [List.flatMap_cons, List.count_append, ih, List.count_append, List.map_cons,
        List.sum_cons, List.length_cons, List.count_singleton_self]
      omega
  have hline : ∀ b ∈ bs, (line b).count '\n' = 0 ↔ ∀ id ∈ b.nodeIds, '\n' ∉ id.toList := by
    intro b hb
    rw [List.count_eq_zero, break_mem_line_iff (hnames b hb)]
    push Not
    rfl
  rw [hcount, Nat.add_eq_right, List.sum_eq_zero_iff_forall_eq_nat, List.forall_mem_map]
  exact forall₂_congr hline

/-- A row without stray separators tells its binding. -/
lemma entryOf?_line (hname : IsNamed b)
    (hids : ∀ id ∈ b.nodeIds, ∀ c ∈ separators, c ∉ id.toList) :
    entryOf? (line b) = some (Entry.ofBinding b) := by
  have haccent : '\x60' ∈ separators := by decide
  have hbar : '|' ∈ separators := by decide
  have hnames : spans (cell (codes [b.name])) = [b.name] :=
    spans_cell (by simpa using hname.separators '\x60' haccent)
  have hnodes : spans (cell (codes b.nodeIds)) = b.nodeIds :=
    spans_cell fun id hid => hids id hid '\x60' haccent
  rw [entryOf?, splitOn_line hname fun id hid => hids id hid '|' hbar]
  simp only [hnames, hnodes, kindOf?_kind]
  rfl

lemma entriesOf?_rows (h : ∀ b ∈ bs, entryOf? (line b) = some (Entry.ofBinding b)) :
    entriesOf? (bs.map line ++ [[]]) = some (bs.map Entry.ofBinding) := by
  induction bs with
  | nil => rfl
  | cons b rest ih =>
    rw [List.forall_mem_cons] at h
    obtain ⟨next, others, hcons⟩ : ∃ next others, rest.map line ++ [[]] = next :: others :=
      List.exists_cons_of_ne_nil (by simp)
    rw [List.map_cons, List.cons_append, hcons, entriesOf?, h.1, ← hcons, ih h.2]
    rfl

end Rows

/-! ## Tables -/

section Tables

variable {m : BindingModule}

lemma toList_table_eq (m : BindingModule) : ∃ columns rule, headLines = [columns, rule] ∧
    (table m).toList = columns ++ '\n' :: (rule ++ '\n' ::
      m.bindings.flatMap fun b => line b ++ ['\n']) := by
  refine ⟨_, _, rfl, ?_⟩
  rw [toList_table]
  simp [headLines]

/-- **The bindings are read from the table** when no node has a separator in its name. -/
lemma readTable?_table_iff (hnames : ∀ b ∈ m.bindings, IsNamed b) :
    readTable? (table m) = some (m.bindings.map Entry.ofBinding) ↔
      ∀ b ∈ m.bindings, ∀ id ∈ b.nodeIds, ∀ c ∈ separators, c ∉ id.toList := by
  constructor
  · intro h b hb id hid
    exact separators_of_readTable? h (List.mem_map_of_mem hb) (e := Entry.ofBinding b) hid
  · intro hids
    have hbreak : ∀ b ∈ m.bindings, '\n' ∉ line b := by
      intro b hb hc
      obtain ⟨id, hid, hin⟩ := (break_mem_line_iff (hnames b hb)).1 hc
      exact hids b hb id hid '\n' (by decide) hin
    obtain ⟨columns, rule, hhead, htable⟩ := toList_table_eq m
    have hfree : ∀ l ∈ headLines, '\n' ∉ l := by decide
    rw [hhead] at hfree
    rw [readTable?, htable, List.splitOn_append_cons_self_of_not_mem (hfree columns (by simp)),
      List.splitOn_append_cons_self_of_not_mem (hfree rule (by simp)), splitOn_rows hbreak]
    simp only [hhead, if_true]
    exact entriesOf?_rows fun b hb => entryOf?_line (hnames b hb) (hids b hb)

/-- The table has two lines and one for each binding, when no node has a line feed in its name. -/
lemma count_table_iff (hnames : ∀ b ∈ m.bindings, IsNamed b) :
    (table m).toList.count '\n' = m.bindings.length + 2 ↔
      ∀ b ∈ m.bindings, ∀ id ∈ b.nodeIds, '\n' ∉ id.toList := by
  have hhead : (headLines.flatMap fun l => l ++ ['\n']).count '\n' = 2 := by decide +kernel
  rw [← count_rows_iff hnames, toList_table, List.count_append, hhead]
  omega

/-- An anchor stands in the table when it stands in the name of a node. -/
lemma infix_table_iff (hnames : ∀ b ∈ m.bindings, IsNamed b) {anchor : List Char}
    (hanchor : anchor ∈ [beginAnchor, endAnchor]) :
    anchor <:+: (table m).toList ↔ ∃ b ∈ m.bindings, ∃ id ∈ b.nodeIds, anchor <:+: id.toList := by
  have hmark := isForeign_anchor hanchor
  have hanchors : ∀ a ∈ [beginAnchor, endAnchor],
      a ≠ [] ∧ '\n' ∉ a ∧ ∀ l ∈ headLines, ¬ a <:+: l := by decide
  obtain ⟨hne, hbreak, hhead⟩ := hanchors anchor hanchor
  obtain ⟨columns, rule, hlines, htable⟩ := toList_table_eq m
  rw [hlines] at hhead
  rw [htable, infix_append_cons_iff hne hbreak, infix_append_cons_iff hne hbreak,
    infix_rows_iff hmark hbreak hnames]
  simp [hhead columns, hhead rule]

lemma isReadable_iff (hnames : ∀ b ∈ m.bindings, IsNamed b) :
    IsReadable m ↔ ∀ b ∈ m.bindings, ∀ id ∈ b.nodeIds, IsPlain id := by
  constructor
  · intro h b hb id hid
    refine ⟨(readTable?_table_iff hnames).1 h.entries b hb id hid, fun anchor hanchor hin => ?_⟩
    exact h.anchors anchor hanchor ((infix_table_iff hnames hanchor).2 ⟨b, hb, id, hid, hin⟩)
  · intro h
    refine ⟨(readTable?_table_iff hnames).2 fun b hb id hid => (h b hb id hid).separators, ?_⟩
    intro anchor hanchor hin
    obtain ⟨b, hb, id, hid, hin⟩ := (infix_table_iff hnames hanchor).1 hin
    exact (h b hb id hid).anchors anchor hanchor hin

end Tables

end Docs

/-! ## Runs -/

lemma isNamed_of_run {s s' : Session} {stage : Schema.Stage} {descriptions : Schema.Descriptions}
    {m : BindingModule} (hrun : s.run stage descriptions = (.ok m, s')) :
    ∀ b ∈ m.bindings, Docs.IsNamed b := by
  intro b hb
  obtain ⟨set, r, rfl, -, -⟩ := exists_members_of_run hrun hb
  rfl

/-- **A table is as readable as the names of the nodes are plain.**  The table of a run tells every
binding on a line of its own and has no anchor, exactly when no node that a binding stands for has
a line feed, a bar, a grave accent or an anchor in its name.  A line feed in a name makes a line too
many, and a bar a cell too many.  The names are those of the nodes of the stage, as they are written
there. -/
theorem table_readable_iff {s s' : Session} {stage : Schema.Stage}
    {descriptions : Schema.Descriptions} {m : BindingModule}
    (hrun : s.run stage descriptions = (.ok m, s')) :
    (Docs.IsReadable m ↔ ∀ b ∈ m.bindings, ∀ id ∈ b.nodeIds, Docs.IsPlain id) ∧
      ((Docs.table m).toList.count '\n' = m.bindings.length + 2 ↔
        ∀ b ∈ m.bindings, ∀ id ∈ b.nodeIds, '\n' ∉ id.toList) ∧
      (∀ b ∈ m.bindings, (Docs.tableRow b).toList.count '|' = 4 ↔
        ∀ id ∈ b.nodeIds, '|' ∉ id.toList) ∧
      ∀ b ∈ m.bindings, ∀ id ∈ b.nodeIds, ∃ prim ∈ stage.nodes, id = prim.name := by
  have hnames := isNamed_of_run hrun
  refine ⟨Docs.isReadable_iff hnames, Docs.count_table_iff hnames,
    fun b hb => Docs.count_tableRow_iff (hnames b hb), fun b hb id hid => ?_⟩
  obtain ⟨set, r, rfl, -, hmembers⟩ := exists_members_of_run hrun hb
  obtain ⟨branch, hbranch, rfl⟩ := List.mem_map.1 hid
  obtain ⟨p, hp, rfl⟩ := OverloadSet.exists_member_of_mem_branches hbranch
  obtain ⟨prim, hprim, htells⟩ := hmembers p hp
  exact ⟨prim, hprim, htells.id⟩

theorem table_readable_iff_mix : ∃ m s, (Session.new false).run mixStage [] = (.ok m, s) ∧
    m.bindings.map (·.nodeIds) = [["ND_mix_float", "ND_mix_color3"]] ∧ Docs.IsReadable m := by
  have hnodes : ((Session.new false).run mixStage []).1.toOption.map
      (fun m => m.bindings.map (·.nodeIds)) = some [["ND_mix_float", "ND_mix_color3"]] := by
    decide +kernel
  rcases hrun : (Session.new false).run mixStage [] with ⟨e | m, s⟩
  · simp [hrun, Except.toOption] at hnodes
  simp only [hrun, Except.toOption, Option.map_some, Option.some.injEq] at hnodes
  refine ⟨m, s, rfl, hnodes, (table_readable_iff hrun).1.2 fun b hb id hid => ?_⟩
  have hmem : b.nodeIds ∈ [["ND_mix_float", "ND_mix_color3"]] := hnodes ▸ List.mem_map_of_mem hb
  rw [List.mem_singleton.1 hmem] at hid
  rcases List.mem_pair.1 hid with rfl | rfl
  · exact ⟨by simp [Docs.separators], by decide⟩
  · exact ⟨by simp [Docs.separators], by decide⟩

/-- A stage with one node of the given name. -/
def namedStage (name : String) : Schema.Stage :=
  ⟨[{ mixPrim "" "float" "float" with path := "/" ++ name }]⟩

/-- A line feed in the name of a node breaks its row: the table has two lines for one binding. -/
theorem not_readable_fade : ∃ m s,
    (Session.new false).run (namedStage "ND_fade\nglow") [] = (.ok m, s) ∧
    m.bindings.map (·.name) = ["fadeGlow"] ∧
    Docs.table m = Docs.tableHead ++ "| \x60fadeGlow\x60 | operation | \x60ND_fade\nglow\x60 |\n" ∧
    (Docs.table m).toList.count '\n' = 2 + m.bindings.length + 1 ∧ ¬ Docs.IsReadable m := by
  have hnames : ((Session.new false).run (namedStage "ND_fade\nglow") []).1.toOption.map
      (fun m => (m.bindings.map (·.name), m.bindings.map (·.nodeIds), Docs.table m))
      = some (["fadeGlow"], [["ND_fade\nglow"]],
        Docs.tableHead ++ "| \x60fadeGlow\x60 | operation | \x60ND_fade\nglow\x60 |\n") := by
    decide +kernel
  rcases hrun : (Session.new false).run (namedStage "ND_fade\nglow") [] with ⟨e | m, s⟩
  · simp [hrun, Except.toOption] at hnames
  simp only [hrun, Except.toOption, Option.map_some, Option.some.injEq, Prod.mk.injEq] at hnames
  obtain ⟨hname, hnodes, htable⟩ := hnames
  have hlength : m.bindings.length = 1 := by rw [← List.length_map (·.name), hname]; rfl
  refine ⟨m, s, rfl, hname, htable, ?_, fun h => ?_⟩
  · rw [htable, hlength]
    decide +kernel
  have hmem : ["ND_fade\nglow"] ∈ m.bindings.map (·.nodeIds) := hnodes ▸ List.mem_cons_self
  obtain ⟨b, hb, hids⟩ := List.mem_map.1 hmem
  have hplain := (Docs.isReadable_iff (isNamed_of_run hrun)).1 h b hb "ND_fade\nglow"
    (hids ▸ List.mem_cons_self)
  exact hplain.separators '\n' (by decide) (by decide)

end ShaderBindings
