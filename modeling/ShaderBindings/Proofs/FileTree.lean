/-
# What the operations on file trees change

A path leads to one place whatever stands on the way (`FileTree.place`); a tree only tells whether
the place is reached.  So the operations are described by the places of their paths.

`Changes` compares two trees: files are lost at some places and gained at others, and all
directories stay.  It composes, and each operation makes such a change with at most one place on
either side.  What is reached stays reached, since only files go.

A writing that fails may leave a part of the text.  What is written, the whole or a part, stands at
a place that is not locked, so that it can be removed again (`Written`).
-/
import Mathlib.Data.List.Basic
import ShaderBindings.FileSystem.Tree
import ShaderBindings.Proofs.Dictionary
import ShaderBindings.Proofs.Fault

namespace ShaderBindings

namespace FileTree

variable {t t' t'' : FileTree} {p q : Place} {path : Path} {name : String}

/-! ## Places of paths -/

/-- The place that a component leads to, whatever stands there. -/
def advance (p : Place) (name : String) : Place :=
  if isStay name then p else if name = ".." then p.dropLast else p ++ [name]

/-- The place that a path leads to, whatever stands on the way. -/
def place (t : FileTree) (path : Path) : Place := (names path).foldl advance (t.start path)

/-- The bytes of the file at a place. -/
def file? (t : FileTree) (p : Place) : Option ByteArray :=
  match t.entry? p with
  | some (.file bytes) => some bytes
  | _ => none

lemma place_congr (h : t'.base = t.base) (path : Path) : t'.place path = t.place path := by
  rw [place, place, start, start, h]

lemma file?_eq_some_iff {bytes : ByteArray} :
    t.file? p = some bytes ↔ t.entry? p = some (.file bytes) := by
  rw [file?]
  rcases t.entry? p with _ | ⟨_ | _⟩ <;> simp

lemma file?_of_directory (h : t.entry? p = some .directory) : t.file? p = none := by
  rw [file?, h]

lemma bytesAt_eq_ok_iff {bytes : ByteArray} :
    t.bytesAt p = .ok bytes ↔ t.file? p = some bytes := by
  rw [bytesAt, file?]
  rcases t.entry? p with _ | ⟨_ | _⟩ <;> simp

lemma enter_eq_ok_iff : t.enter p = .ok () ↔ t.entry? p = some .directory := by
  rw [enter]
  rcases t.entry? p with _ | ⟨_ | _⟩ <;> simp

lemma step_eq_ok (h : t.step p name = .ok q) :
    t.entry? p = some .directory ∧ q = advance p name := by
  obtain ⟨⟨⟩, henter, h⟩ := Fault.bind_eq_ok_iff.1 h
  refine ⟨enter_eq_ok_iff.1 henter, ?_⟩
  rw [advance]
  split_ifs at h ⊢
  · exact (Except.ok.inj h).symm
  · exact (Except.ok.inj h).symm
  · exact (Except.ok.inj h).symm

lemma walk_eq_ok {components : List String} (h : t.walk p components = .ok q) :
    q = components.foldl advance p := by
  induction components generalizing p with
  | nil => exact (Except.ok.inj h).symm
  | cons name rest ih =>
    rw [walk] at h
    rcases hstep : t.step p name with e | next
    · simp [hstep] at h
    · simp only [hstep] at h
      rw [ih h, (step_eq_ok hstep).2, List.foldl_cons]

lemma walk_append (earlier later : List String) :
    t.walk p (earlier ++ later) = (t.walk p earlier).bind fun next => t.walk next later := by
  induction earlier generalizing p with
  | nil => rfl
  | cons name rest ih =>
    rw [List.cons_append, walk, walk]
    rcases t.step p name with e | next
    · rfl
    · exact ih

lemma locate_eq_ok (h : t.locate path = .ok p) : p = t.place path := by
  rw [locate] at h
  rcases hdefect : path.defect? with _ | e
  · simp only [hdefect] at h
    exact walk_eq_ok h
  · simp [hdefect] at h

/-- The path leads to its place. -/
def Reaches (t : FileTree) (path : Path) : Prop := t.locate path = .ok (t.place path)

/-- The path leads to a file of the bytes. -/
def Holds (t : FileTree) (path : Path) (bytes : ByteArray) : Prop :=
  t.Reaches path ∧ t.file? (t.place path) = some bytes

/-- Bytes are read as a text exactly when they are those of the text. -/
lemma decode_eq_ok_iff {bytes : ByteArray} {text : String} :
    decode bytes = .ok text ↔ bytes = text.toUTF8 := by
  rw [decode, String.fromUTF8?]
  by_cases hvalid : bytes.IsValidUTF8
  · simp only [hvalid, ↓reduceDIte, Except.ok.injEq, ← String.toByteArray_inj]
    exact Iff.rfl
  · simp only [hvalid]
    refine ⟨fun h => absurd h (by simp), ?_⟩
    rintro rfl
    exact absurd text.isValidUTF8 hvalid

lemma read_eq_ok_iff {text : String} : t.read path = .ok text ↔ t.Holds path text.toUTF8 := by
  rw [read, Fault.bind_eq_ok_iff]
  simp only [Fault.bind_eq_ok_iff, decode_eq_ok_iff, bytesAt_eq_ok_iff]
  constructor
  · rintro ⟨p, hlocate, bytes, hfile, rfl⟩
    obtain rfl := locate_eq_ok hlocate
    exact ⟨hlocate, hfile⟩
  · exact fun ⟨hreaches, hfile⟩ => ⟨t.place path, hreaches, text.toUTF8, hfile, rfl⟩

lemma isFile_iff : t.isFile path = true ↔ ∃ bytes, t.Holds path bytes := by
  rw [isFile]
  rcases hlocate : t.locate path with e | p
  · simp [Holds, Reaches, hlocate]
  · obtain rfl := locate_eq_ok hlocate
    simp [Holds, Reaches, hlocate, Option.isSome_iff_exists, Fault.toOption_eq_some_iff,
      bytesAt_eq_ok_iff]

/-- A file at the path can be removed. -/
structure Removable (t : FileTree) (path : Path) : Prop where
  reaches : t.Reaches path
  unlocked : t.isLocked (t.place path) = false

/-! ## The end of a path -/

/-- What follows the last slash is the last name. -/
lemma exists_names_of_slash {front last : List Char}
    (htext : path.text.toList = front ++ '/' :: last) (hlast : '/' ∉ last) :
    ∃ init, names path = init ++ [String.ofList last] := by
  have hsegments : path.segments = front.splitOn '/' ++ [last] := by
    rw [Path.segments, htext, List.splitOn_append_cons_self, List.splitOn_eq_singleton hlast]
  obtain ⟨first, rest, hfront⟩ := List.exists_cons_of_ne_nil (List.splitOn_ne_nil '/' front)
  refine ⟨(if path.isAbsolute then rest else first :: rest).map String.ofList, ?_⟩
  rw [names, hsegments, hfront]
  split_ifs
  · simp
  · simp

lemma isAbsolute_of_no_slash (h : '/' ∉ path.text.toList) : path.isAbsolute = false := by
  rw [Path.isAbsolute]
  rcases htext : path.text.toList with _ | ⟨c, rest⟩
  · rfl
  · rw [htext] at h
    simp only [List.mem_cons, not_or] at h
    simp [List.isPrefixOf, h.1]

lemma names_of_no_slash (h : '/' ∉ path.text.toList) : names path = [path.text] := by
  rw [names, isAbsolute_of_no_slash h, Path.segments, List.splitOn_eq_singleton h]
  simp

/-- A text with a slash has a last one. -/
lemma exists_last_slash (h : '/' ∈ path.text.toList) :
    ∃ front last, path.text.toList = front ++ '/' :: last ∧ '/' ∉ last := by
  obtain ⟨back, front, hreverse, hback⟩ := List.eq_append_cons_of_mem (List.mem_reverse.2 h)
  refine ⟨front.reverse, back.reverse, ?_, by simpa using hback⟩
  rw [← List.reverse_reverse path.text.toList, hreverse]
  simp

/-- The components of a path without the slashes at its end. -/
def components (path : Path) : List String :=
  ((names path).reverse.dropWhile fun name => name = "").reverse

lemma exists_names_eq (path : Path) : ∃ n, names path = components path ++ List.replicate n "" := by
  have hsplit := List.takeWhile_append_dropWhile (p := fun name => decide (name = ""))
    (l := (names path).reverse)
  refine ⟨((names path).reverse.takeWhile fun name => name = "").length, ?_⟩
  have htail : (names path).reverse.takeWhile (fun name => name = "")
      = List.replicate ((names path).reverse.takeWhile fun name => name = "").length "" :=
    List.eq_replicate_iff.2 ⟨rfl, fun name hname => by
      simpa using List.all_eq_true.1 List.all_takeWhile name hname⟩
  calc names path
      = ((names path).reverse.takeWhile (fun name => name = "")
          ++ (names path).reverse.dropWhile fun name => name = "").reverse := by
        rw [hsplit, List.reverse_reverse]
    _ = components path
          ++ ((names path).reverse.takeWhile fun name => name = "").reverse := by
        rw [List.reverse_append, components]
    _ = _ := by
        rw [htail, List.reverse_replicate, List.length_replicate]

lemma ending_eq_ok {e : Ending} (h : t.ending path = .ok e) : path.defect? = none ∧
    t.walk (t.start path) (components path).dropLast = .ok e.directory ∧
    t.entry? e.directory = some .directory ∧
    e.name? = (components path).getLast?.filter (fun name => name != "." && name != "..") ∧
    e.slashed = ['/'].isSuffixOf path.text.toList := by
  rw [ending] at h
  rcases hdefect : path.defect? with _ | defect
  · simp only [hdefect] at h
    obtain ⟨directory, hwalk, h⟩ := Fault.bind_eq_ok_iff.1 h
    obtain ⟨⟨⟩, henter, h⟩ := Fault.bind_eq_ok_iff.1 h
    obtain rfl := Except.ok.inj h
    exact ⟨rfl, hwalk, enter_eq_ok_iff.1 henter, rfl, rfl⟩
  · simp only [hdefect] at h
    exact absurd h (by simp [bind, Except.bind])

/-- The last name of a path is not empty when no slash ends it. -/
lemma exists_names_append (hdefect : path.defect? = none)
    (hslashed : ['/'].isSuffixOf path.text.toList = false) :
    ∃ init last, names path = init ++ [last] ∧ last ≠ "" := by
  by_cases hslash : '/' ∈ path.text.toList
  · obtain ⟨front, last, htext, hlast⟩ := exists_last_slash hslash
    obtain ⟨init, hnames⟩ := exists_names_of_slash htext hlast
    refine ⟨init, _, hnames, ?_⟩
    intro hempty
    have hsuffix : ['/'] <:+ path.text.toList := by
      rw [htext, String.ofList_eq_empty_iff.1 hempty]
      exact List.suffix_append front ['/']
    rw [← List.isSuffixOf_iff_suffix, hslashed] at hsuffix
    exact Bool.false_ne_true hsuffix
  · refine ⟨[], path.text, names_of_no_slash hslash, ?_⟩
    intro hempty
    simp [Path.defect?, Path.isEmpty, hempty] at hdefect

lemma components_eq_names (hdefect : path.defect? = none)
    (hslashed : ['/'].isSuffixOf path.text.toList = false) : components path = names path := by
  obtain ⟨init, last, hnames, hlast⟩ := exists_names_append hdefect hslashed
  rw [components, hnames, List.reverse_append, List.reverse_singleton, List.singleton_append,
    List.dropWhile_cons_of_neg (by simpa using hlast)]
  simp

/-- The slashes at the end of a path lead nowhere else. -/
lemma foldl_advance_components (p : Place) :
    (components path).foldl advance p = (names path).foldl advance p := by
  obtain ⟨n, hnames⟩ := exists_names_eq path
  have hstay : ∀ (n : Nat) (q : Place), (List.replicate n "").foldl advance q = q := by
    intro n q
    induction n with
    | zero => rfl
    | succ n ih => exact ih
  rw [hnames, List.foldl_append, hstay]

/-- The step to the last component leads to the place of the path, and the path reaches it unless
slashes follow. -/
lemma eq_place_of_ending {e : Ending} (h : t.ending path = .ok e) (hname : e.name? = some name)
    (hstep : t.step e.directory name = .ok p) :
    p = t.place path ∧ (e.slashed = false → t.Reaches path) := by
  obtain ⟨hdefect, hwalk, -, hlast, hslashed⟩ := ending_eq_ok h
  rw [hname] at hlast
  obtain ⟨hgetLast, -⟩ := Option.filter_eq_some_iff.1 hlast.symm
  have hcomponents : components path = (components path).dropLast ++ [name] :=
    (List.dropLast_append_getLast? _ hgetLast).symm
  have hwhole : t.walk (t.start path) (components path) = .ok p := by
    rw [hcomponents, walk_append, hwalk]
    simp [walk, Except.bind, hstep]
  have hplace : p = t.place path := by
    rw [place, ← foldl_advance_components]
    exact walk_eq_ok hwhole
  refine ⟨hplace, fun hfree => ?_⟩
  rw [hfree] at hslashed
  rw [Reaches, locate, hdefect, ← hplace, ← components_eq_names hdefect hslashed.symm]
  exact hwhole

/-! ## Names that are joined to a path -/

/-- A name without a slash is the last name of a path that it is joined to. -/
lemma exists_names_join (dir : Path) (hname : '/' ∉ name.toList) :
    ∃ init, names (dir.join ⟨name⟩) = init ++ [name] := by
  have hrelative : Path.isAbsolute ⟨name⟩ = false := isAbsolute_of_no_slash hname
  have hlast : ∀ {path : Path} (front : List Char),
      path.text.toList = front ++ '/' :: name.toList → ∃ init, names path = init ++ [name] := by
    intro path front htext
    obtain ⟨init, hnames⟩ := exists_names_of_slash htext hname
    exact ⟨init, by rw [hnames, String.ofList_toList]⟩
  rw [Path.join, if_neg (by simp [hrelative])]
  split_ifs with hjoined
  · rw [Bool.or_eq_true] at hjoined
    rcases hjoined with hempty | hslashed
    · have hdir : dir.text.toList = [] := by simpa [Path.isEmpty] using hempty
      refine ⟨[], ?_⟩
      rw [names_of_no_slash (by simpa [hdir] using hname)]
      simpa using hdir
    · obtain ⟨front, hfront⟩ := List.isSuffixOf_iff_suffix.1 hslashed
      exact hlast front (by simp [← hfront])
  · exact hlast dir.text.toList (by simp)

/-- The place of such a path ends in the name. -/
lemma exists_place_join (t : FileTree) (dir : Path) (hname : '/' ∉ name.toList)
    (hstay : isStay name = false) (hup : name ≠ "..") :
    ∃ p, t.place (dir.join ⟨name⟩) = p ++ [name] := by
  obtain ⟨init, hnames⟩ := exists_names_join dir hname
  refine ⟨init.foldl advance (t.start (dir.join ⟨name⟩)), ?_⟩
  rw [place, hnames, List.foldl_append, List.foldl_cons, List.foldl_nil, advance, hstay]
  simp [hup]

/-! ## Changes -/

/-- From `t` to `t'` the files at some places may be lost and those at others may be new.  Every
other file stays as it is, and so do the directories and the locks. -/
structure Changes (t t' : FileTree) (lost gained : List Place) : Prop where
  base_eq : t'.base = t.base
  locked_eq : t'.locked = t.locked
  directories : ∀ p, t.entry? p = some .directory → t'.entry? p = some .directory
  files : ∀ p, p ∉ gained → t'.file? p = t.file? p ∨ (p ∈ lost ∧ t'.file? p = none)

namespace Changes

variable {lost lost' gained gained' : List Place}

lemma refl (t : FileTree) : t.Changes t [] [] where
  base_eq := rfl
  locked_eq := rfl
  directories := fun _ h => h
  files := fun _ _ => Or.inl rfl

lemma trans (h : t.Changes t' lost gained) (h' : t'.Changes t'' lost' gained') :
    t.Changes t'' (lost ++ lost') (gained ++ gained') where
  base_eq := h'.base_eq.trans h.base_eq
  locked_eq := h'.locked_eq.trans h.locked_eq
  directories := fun p hp => h'.directories p (h.directories p hp)
  files := by
    intro p hp
    rw [List.mem_append, not_or] at hp
    rcases h'.files p hp.2 with heq | ⟨hlost, hnone⟩
    · rcases h.files p hp.1 with heq' | ⟨hlost, hnone⟩
      · exact Or.inl (heq.trans heq')
      · exact Or.inr ⟨List.mem_append_left _ hlost, heq.trans hnone⟩
    · exact Or.inr ⟨List.mem_append_right _ hlost, hnone⟩

lemma mono (h : t.Changes t' lost gained) (hlost : lost ⊆ lost') (hgained : gained ⊆ gained') :
    t.Changes t' lost' gained' where
  base_eq := h.base_eq
  locked_eq := h.locked_eq
  directories := h.directories
  files := fun p hp => (h.files p fun hmem => hp (hgained hmem)).imp_right
    fun hp => ⟨hlost hp.1, hp.2⟩

/-- What is gained and gone in the end is lost. -/
lemma absorb (h : t.Changes t' lost (gained ++ gained'))
    (hgone : ∀ p ∈ gained, t'.file? p = none) : t.Changes t' (gained ++ lost) gained' where
  base_eq := h.base_eq
  locked_eq := h.locked_eq
  directories := h.directories
  files := by
    intro p hp
    by_cases hgained : p ∈ gained
    · exact Or.inr ⟨List.mem_append_left _ hgained, hgone p hgained⟩
    · exact (h.files p (by simp [hgained, hp])).imp_right
        fun hp => ⟨List.mem_append_right _ hp.1, hp.2⟩

lemma place_eq (h : t.Changes t' lost gained) (path : Path) : t'.place path = t.place path :=
  place_congr h.base_eq path

/-- A place that is empty stays so unless a file is gained there. -/
lemma file?_eq_none (h : t.Changes t' lost gained) (hp : p ∉ gained) (hnone : t.file? p = none) :
    t'.file? p = none := by
  rcases h.files p hp with heq | ⟨-, heq⟩
  · exact heq.trans hnone
  · exact heq

lemma file?_eq (h : t.Changes t' lost gained) (hlost : p ∉ lost) (hgained : p ∉ gained) :
    t'.file? p = t.file? p := (h.files p hgained).resolve_right fun hp => hlost hp.1

/-- A file that stands where none is gained has stood there. -/
lemma file?_of_file? (h : t.Changes t' lost gained) (hgained : p ∉ gained) {bytes : ByteArray}
    (hfile : t'.file? p = some bytes) : t.file? p = some bytes := by
  rcases h.files p hgained with heq | ⟨-, hnone⟩
  · rw [← heq, hfile]
  · rw [hnone] at hfile
    exact absurd hfile (by simp)

lemma keeps_step (h : t.Changes t' lost gained) (hstep : t.step p name = .ok q) :
    t'.step p name = .ok q := by
  have hdirectory := (step_eq_ok hstep).1
  rw [← hstep, step, step, enter_eq_ok_iff.2 hdirectory,
    enter_eq_ok_iff.2 (h.directories p hdirectory)]

/-- A walk goes through directories only, and these stay. -/
lemma keeps_walk (h : t.Changes t' lost gained) {components : List String}
    (hwalk : t.walk p components = .ok q) : t'.walk p components = .ok q := by
  induction components generalizing p with
  | nil => exact hwalk
  | cons name rest ih =>
    rw [walk] at hwalk ⊢
    rcases hstep : t.step p name with e | next
    · simp [hstep] at hwalk
    · simp only [hstep, h.keeps_step hstep] at hwalk ⊢
      exact ih hwalk

/-- A path that reaches its place still does. -/
lemma reaches (h : t.Changes t' lost gained) (hreaches : t.Reaches path) : t'.Reaches path := by
  rw [Reaches, locate] at hreaches ⊢
  rcases hdefect : path.defect? with _ | e
  · simp only [hdefect] at hreaches ⊢
    rw [h.place_eq, start, h.base_eq]
    exact h.keeps_walk hreaches
  · simp [hdefect] at hreaches

lemma holds (h : t.Changes t' lost gained) (hlost : t.place path ∉ lost)
    (hgained : t.place path ∉ gained) {bytes : ByteArray} (hholds : t.Holds path bytes) :
    t'.Holds path bytes := by
  refine ⟨h.reaches hholds.1, ?_⟩
  rw [h.place_eq, h.file?_eq hlost hgained, hholds.2]

lemma read_eq_ok (h : t.Changes t' lost gained) (hlost : t.place path ∉ lost)
    (hgained : t.place path ∉ gained) {text : String} (hread : t.read path = .ok text) :
    t'.read path = .ok text :=
  read_eq_ok_iff.2 (h.holds hlost hgained (read_eq_ok_iff.1 hread))

lemma removable (h : t.Changes t' lost gained) (hremovable : t.Removable path) :
    t'.Removable path where
  reaches := h.reaches hremovable.reaches
  unlocked := by
    rw [h.place_eq, isLocked, h.locked_eq]
    exact hremovable.unlocked

end Changes

/-! ## Entries -/

section Entries

variable {e : Entry}

lemma entry?_eq (t : FileTree) (p : Place) :
    t.entry? p = if p.isPrefixOf t.base then some .directory else t.entries.lookup p := rfl

lemma isPrefixOf_base_eq_false (h : t.entry? p ≠ some .directory) :
    p.isPrefixOf t.base = false := by
  by_contra hbase
  rw [entry?_eq, if_pos (by simpa using hbase)] at h
  exact h rfl

lemma entry?_put_of_ne (h : q ≠ p) : entry? (t.put p e) q = t.entry? q := by
  have hother : ([(p, e)] : List (Place × Entry)).lookup q = none := by
    rw [List.lookup_cons, beq_false_of_ne h, List.lookup_nil]
  rw [entry?_eq, entry?_eq, put, List.lookup_append, lookup_filter_of_ne _ h, hother,
    Option.or_none]

lemma entry?_put_self (h : t.entry? p ≠ some .directory) : entry? (t.put p e) p = some e := by
  rw [entry?_eq, put]
  simp [isPrefixOf_base_eq_false h, List.lookup_append, lookup_filter_self]

lemma entry?_clear_of_ne (h : q ≠ p) : entry? (t.clear p) q = t.entry? q := by
  rw [entry?_eq, entry?_eq, clear, lookup_filter_of_ne _ h]

lemma entry?_clear_self (h : t.entry? p ≠ some .directory) : entry? (t.clear p) p = none := by
  rw [entry?_eq, clear]
  simp [isPrefixOf_base_eq_false h, lookup_filter_self]

lemma file?_congr (h : t'.entry? p = t.entry? p) : t'.file? p = t.file? p := by
  rw [file?, file?, h]

lemma changes_put_file (h : t.entry? p ≠ some .directory) (bytes : ByteArray) :
    t.Changes (t.put p (.file bytes)) [] [p] where
  base_eq := rfl
  locked_eq := rfl
  directories := by
    intro q hq
    have hne : q ≠ p := by
      rintro rfl
      exact h hq
    rw [entry?_put_of_ne hne, hq]
  files := fun q hq => Or.inl (file?_congr (entry?_put_of_ne (by simpa using hq)))

lemma changes_put_directory (h : t.entry? p = none) :
    t.Changes (t.put p .directory) [] [] where
  base_eq := rfl
  locked_eq := rfl
  directories := by
    intro q hq
    have hne : q ≠ p := by
      rintro rfl
      simp [h] at hq
    rw [entry?_put_of_ne hne, hq]
  files := by
    intro q _
    by_cases hq : q = p
    · rw [hq, file?_of_directory (entry?_put_self (by simp [h]))]
      exact Or.inl (by rw [file?, h])
    · exact Or.inl (file?_congr (entry?_put_of_ne hq))

lemma changes_clear (h : t.entry? p ≠ some .directory) : t.Changes (t.clear p) [p] [] where
  base_eq := rfl
  locked_eq := rfl
  directories := by
    intro q hq
    have hne : q ≠ p := by
      rintro rfl
      exact h hq
    rw [entry?_clear_of_ne hne, hq]
  files := by
    intro q _
    by_cases hq : q = p
    · have hnone : (t.clear p).file? q = none := by rw [hq, file?, entry?_clear_self h]
      exact Or.inr ⟨List.mem_singleton.2 hq, hnone⟩
    · exact Or.inl (file?_congr (entry?_clear_of_ne hq))

end Entries

/-! ## Operations -/

section Operations

variable {text : String}

/-- From `t` to `t'` a file of the bytes is new at the path, and it can be removed again. -/
structure Written (t t' : FileTree) (path : Path) (bytes : ByteArray) : Prop where
  changes : t.Changes t' [] [t.place path]
  removable : t'.Removable path
  holds : t'.Holds path bytes

lemma written_put (hreaches : t.Reaches path) (hfile : t.entry? (t.place path) ≠ some .directory)
    (hunlocked : t.isLocked (t.place path) = false) (bytes : ByteArray) :
    t.Written (t.put (t.place path) (.file bytes)) path bytes where
  changes := changes_put_file hfile bytes
  removable := (changes_put_file hfile bytes).removable ⟨hreaches, hunlocked⟩
  holds := ⟨(changes_put_file hfile bytes).reaches hreaches,
    file?_eq_some_iff.2 (entry?_put_self hfile)⟩

lemma fileTarget_eq_ok (h : t.fileTarget path = .ok p) : p = t.place path ∧ t.Reaches path := by
  obtain ⟨e, hending, h⟩ := Fault.bind_eq_ok_iff.1 h
  rcases hname : e.name? with _ | name
  · simp [hname] at h
  rcases hslashed : e.slashed with _ | _
  · simp only [hname, hslashed] at h
    obtain ⟨hplace, hreaches⟩ := eq_place_of_ending hending hname h
    exact ⟨hplace, hreaches hslashed⟩
  · simp [hname, hslashed] at h

/-- A writing does nothing, or it writes all of the text, or it fails and leaves as much of the text
as there is room for. -/
lemma write_cases (t : FileTree) (path : Path) (text : String) :
    (∃ e, t.write path text = (.error e, t)) ∨
      (∃ t', t.write path text = (.ok (), t') ∧ t.Written t' path text.toUTF8) ∨
      ∃ t', t.write path text = (.error .noSpace, t') ∧
        t.Written t' path (t.fitting (t.place path) text.toUTF8) := by
  rw [write]
  rcases htarget : t.fileTarget path with e | p
  · exact Or.inl ⟨e, rfl⟩
  obtain ⟨rfl, hreaches⟩ := fileTarget_eq_ok htarget
  simp only [writeAt]
  split_ifs with hdirectory hlocked hroom
  · exact Or.inl ⟨_, rfl⟩
  · exact Or.inl ⟨_, rfl⟩
  · exact Or.inr (Or.inl ⟨_, rfl, written_put hreaches hdirectory (by simpa using hlocked) _⟩)
  · exact Or.inr (Or.inr ⟨_, rfl, written_put hreaches hdirectory (by simpa using hlocked) _⟩)

lemma write_eq_ok (h : t.write path text = (.ok (), t')) : t.Written t' path text.toUTF8 := by
  rcases write_cases t path text with ⟨e, heq⟩ | ⟨u, heq, hwritten⟩ | ⟨u, heq, -⟩
  · simp [h] at heq
  · obtain rfl := (Prod.mk.inj (h.symm.trans heq)).2
    exact hwritten
  · simp [h] at heq

lemma write_eq_error {e : OsError} (h : t.write path text = (.error e, t')) :
    t' = t ∨ ∃ bytes, t.Written t' path bytes := by
  rcases write_cases t path text with ⟨e, heq⟩ | ⟨u, heq, -⟩ | ⟨u, heq, hwritten⟩
  · exact Or.inl (Prod.mk.inj (h.symm.trans heq)).2
  · simp [h] at heq
  · obtain rfl := (Prod.mk.inj (h.symm.trans heq)).2
    exact Or.inr ⟨_, hwritten⟩

/-- A file that moves stands at the target afterwards, and nothing else changes. -/
lemma rename_eq_ok {source target : Path} (h : t.rename source target = .ok t') :
    t.Changes t' [t.place source] [t.place target] ∧
      (∃ bytes, t.file? (t.place source) = some bytes ∧ t'.Holds target bytes) ∧
      (t.place source ≠ t.place target → t'.file? (t.place source) = none) := by
  obtain ⟨old, hold, h⟩ := Fault.bind_eq_ok_iff.1 h
  obtain ⟨new, hnew, h⟩ := Fault.bind_eq_ok_iff.1 h
  obtain ⟨oldName, holdName, h⟩ := Fault.bind_eq_ok_iff.1 h
  obtain ⟨newName, hnewName, h⟩ := Fault.bind_eq_ok_iff.1 h
  obtain ⟨p, hstep, h⟩ := Fault.bind_eq_ok_iff.1 h
  obtain ⟨bytes, hbytes, h⟩ := Fault.bind_eq_ok_iff.1 h
  obtain ⟨q, hstep', h⟩ := Fault.bind_eq_ok_iff.1 h
  have hmovable : ∀ {e : Ending} {name : String}, e.movable = .ok name → e.name? = some name := by
    intro e name hname
    rw [Ending.movable] at hname
    split at hname
    · rename_i found hfound
      rw [hfound, Except.ok.inj hname]
    · simp at hname
  obtain ⟨rfl, -⟩ := eq_place_of_ending hold (hmovable holdName) hstep
  obtain ⟨rfl, hreaches⟩ := eq_place_of_ending hnew (hmovable hnewName) hstep'
  split_ifs at h with hslashed hdirectory hlocked
  obtain rfl := Except.ok.inj h
  have hsource := bytesAt_eq_ok_iff.1 hbytes
  have hfile : t.entry? (t.place source) ≠ some .directory := by
    rw [file?_eq_some_iff.1 hsource]
    simp
  have htarget : entry? (t.clear (t.place source)) (t.place target) ≠ some .directory := by
    by_cases hsame : t.place target = t.place source
    · rw [hsame, entry?_clear_self hfile]
      simp
    · rwa [entry?_clear_of_ne hsame]
  have hchanges := (changes_clear hfile).trans (changes_put_file htarget bytes)
  refine ⟨by simpa using hchanges, ⟨bytes, hsource, ?_⟩, fun hne => ?_⟩
  · have hfree : new.slashed = false := by
      simp only [Bool.or_eq_true, not_or, Bool.not_eq_true] at hslashed
      exact hslashed.2
    refine ⟨hchanges.reaches (hreaches hfree), ?_⟩
    rw [hchanges.place_eq]
    exact file?_eq_some_iff.2 (entry?_put_self htarget)
  · rw [file?, entry?_put_of_ne hne, entry?_clear_self hfile]

lemma removeFile_eq_ok (h : t.removeFile path = .ok t') :
    t.Changes t' [t.place path] [] ∧ t'.file? (t.place path) = none := by
  obtain ⟨p, hlocate, h⟩ := Fault.bind_eq_ok_iff.1 h
  obtain rfl := locate_eq_ok hlocate
  obtain ⟨bytes, hbytes, h⟩ := Fault.bind_eq_ok_iff.1 h
  split_ifs at h with hlocked
  obtain rfl := Except.ok.inj h
  have hfile : t.entry? (t.place path) ≠ some .directory := by
    rw [file?_eq_some_iff.1 (bytesAt_eq_ok_iff.1 hbytes)]
    simp
  exact ⟨changes_clear hfile, by rw [file?, entry?_clear_self hfile]⟩

/-- A removal fails at a path that can be removed only when no file stands there. -/
lemma removeFile_eq_error {e : OsError} (h : t.removeFile path = .error e)
    (hremovable : t.Removable path) : t.file? (t.place path) = none := by
  by_contra hfile
  obtain ⟨bytes, hbytes⟩ := Option.ne_none_iff_exists'.1 hfile
  have hremoved : t.removeFile path = .ok (t.clear (t.place path)) :=
    Fault.bind_eq_ok_iff.2 ⟨t.place path, hremovable.reaches, Fault.bind_eq_ok_iff.2
      ⟨bytes, bytesAt_eq_ok_iff.2 hbytes, if_neg (by simp [hremovable.unlocked])⟩⟩
  simp [hremoved] at h

/-! Making directories changes no file. -/

lemma changes_makeDirectory (h : t.makeDirectory path = .ok t') : t.Changes t' [] [] := by
  obtain ⟨e, -, h⟩ := Fault.bind_eq_ok_iff.1 h
  rcases hname : e.name? with _ | name
  · simp [hname] at h
  simp only [hname] at h
  obtain ⟨p, -, h⟩ := Fault.bind_eq_ok_iff.1 h
  split_ifs at h with hsome hlocked
  obtain rfl := Except.ok.inj h
  exact changes_put_directory (by simpa using hsome)

lemma changes_ensureDirectory (h : t.ensureDirectory path = .ok t') : t.Changes t' [] [] := by
  rw [ensureDirectory] at h
  rcases hmake : t.makeDirectory path with e | made
  · simp only [hmake] at h
    split_ifs at h
    obtain rfl := Except.ok.inj h
    exact Changes.refl t
  · simp only [hmake] at h
    obtain rfl := Except.ok.inj h
    exact changes_makeDirectory hmake

lemma changes_ensureFirst (t : FileTree) (paths : List Path) :
    t.Changes (t.ensureFirst paths).2 [] [] := by
  induction paths with
  | nil => exact Changes.refl t
  | cons path ancestors ih =>
    rw [ensureFirst]
    rcases hfirst : t.ensureDirectory path with e | made
    · cases e with
      | notFound =>
        rcases hrest : t.ensureFirst ancestors with ⟨e | ⟨⟩, t₁⟩
        · simpa [hrest] using ih
        · rw [hrest] at ih
          rcases hagain : t₁.ensureDirectory path with e | made
          · simpa [hrest, hagain] using ih
          · simpa [hrest, hagain] using ih.trans (changes_ensureDirectory hagain)
      | _ => exact Changes.refl t
    · exact changes_ensureDirectory hfirst

lemma changes_makeDirectories (t : FileTree) (path : Path) :
    t.Changes (t.makeDirectories path).2 [] [] := changes_ensureFirst t _

end Operations

end FileTree

end ShaderBindings
