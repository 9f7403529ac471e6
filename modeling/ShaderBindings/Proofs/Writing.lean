/-
# What a writing leaves behind

Writing goes in two passes, and each is described by the places that it changes.  The first pass
gains the temporary files (`Staged`), or it fails and only loses files at their places
(`Withdrawn`), a file that is written in part included.  The second pass moves some of the
artifacts, from the first one on, to their destinations (`Moves`), and the temporary files are gone
afterwards however it ends: what could be written can be removed.

After a writing that succeeds every destination holds its text, nothing else has changed, and there
is nothing left to write (`completed_of_writeAll`).  A writing that fails leaves no new file but at
the destinations of the artifacts that have moved before the failure (`writeAll_error`).  Nothing
has moved when the first pass fails.  When a move fails after another one, the earlier destinations
keep the new texts, so that the writing is not all or nothing (`not_atomic_writeAll`).
-/
import Mathlib.Data.List.Nodup
import Mathlib.Data.List.Pairwise
import ShaderBindings.FileSystem.Artifact
import ShaderBindings.Proofs.FileTree

namespace ShaderBindings.Artifact

open FileTree

/-- The place where an artifact belongs. -/
def destination (t : FileTree) (a : Artifact) : Place := t.place a.path

/-- The place of the temporary file of an artifact. -/
def scratch (t : FileTree) (a : Artifact) : Place := t.place a.temporary

/-- No temporary file stands at a destination. -/
def Apart (t : FileTree) (artifacts : List Artifact) : Prop :=
  ∀ a ∈ artifacts, ∀ b ∈ artifacts, a.scratch t ≠ b.destination t

variable {t t' : FileTree} {a : Artifact} {staged out artifacts : List Artifact}

lemma map_destination_congr (h : t'.base = t.base) (out : List Artifact) :
    out.map (destination t') = out.map (destination t) :=
  List.map_congr_left fun a _ => place_congr h a.path

lemma map_scratch_congr (h : t'.base = t.base) (out : List Artifact) :
    out.map (scratch t') = out.map (scratch t) :=
  List.map_congr_left fun a _ => place_congr h a.temporary

lemma Apart.congr (h : Apart t artifacts) (hbase : t'.base = t.base) (hout : out ⊆ artifacts) :
    Apart t' out := by
  intro a ha b hb
  rw [scratch, destination, place_congr hbase, place_congr hbase]
  exact h a (hout ha) b (hout hb)

/-! ## Removing temporary files -/

/-- At most the temporary file is removed, and it is when that can be done. -/
lemma changes_dropTemporary (t : FileTree) (a : Artifact) :
    t.Changes (dropTemporary t a) [a.scratch t] [] ∧
      (t.Removable a.temporary → (dropTemporary t a).file? (a.scratch t) = none) := by
  rw [dropTemporary]
  rcases hremove : t.removeFile a.temporary with e | t'
  · exact ⟨(Changes.refl t).mono (List.nil_subset _) (List.nil_subset _),
      removeFile_eq_error hremove⟩
  · obtain ⟨hchanges, hnone⟩ := removeFile_eq_ok hremove
    exact ⟨hchanges, fun _ => hnone⟩

lemma changes_discard (t : FileTree) (out : List Artifact) :
    t.Changes (discard t out) (out.map (scratch t)) [] := by
  induction out generalizing t with
  | nil => exact Changes.refl t
  | cons a rest ih =>
    have hfirst := (changes_dropTemporary t a).1
    have hrest := ih (dropTemporary t a)
    rw [map_scratch_congr hfirst.base_eq] at hrest
    exact hfirst.trans hrest

/-- Temporary files that can be removed are gone. -/
lemma file?_discard (t : FileTree) (ha : a ∈ out) (hremovable : t.Removable a.temporary) :
    (discard t out).file? (a.scratch t) = none := by
  induction out generalizing t with
  | nil => exact absurd ha List.not_mem_nil
  | cons b rest ih =>
    obtain ⟨hfirst, hgone⟩ := changes_dropTemporary t b
    have hrest := changes_discard (dropTemporary t b) rest
    rcases List.mem_cons.1 ha with rfl | ha
    · exact hrest.file?_eq_none List.not_mem_nil (hgone hremovable)
    · have hlater := ih (dropTemporary t b) ha (hfirst.removable hremovable)
      rwa [scratch, hfirst.place_eq] at hlater

/-! ## The first pass -/

lemma changes_prepare (t : FileTree) (a : Artifact) : t.Changes (prepare t a).2 [] [] := by
  rw [prepare]
  rcases a.path.parent? with _ | parent
  · exact Changes.refl t
  · have hchanges := changes_makeDirectories t parent
    rcases hmake : t.makeDirectories parent with ⟨e | ⟨⟩, t₁⟩
    · simpa [hmake] using hchanges
    · simpa [hmake] using hchanges

lemma parent?_of_prepare {t₁ : FileTree} {f : IoFailure} (h : prepare t a = (.error f, t₁)) :
    a.path.parent? = some f.path := by
  rw [prepare] at h
  rcases hparent : a.path.parent? with _ | parent
  · simp [hparent] at h
  · rcases hmake : t.makeDirectories parent with ⟨e | ⟨⟩, t₂⟩
    · simp only [hparent, hmake] at h
      rw [← Except.error.inj (Prod.mk.inj h).1]
    · simp [hparent, hmake] at h

-- The equations of `stage` and `commit` are stated here because deriving them takes long.
lemma stage_cons (staged rest : List Artifact) (a : Artifact) (t : FileTree) :
    stage staged (a :: rest) t =
      match prepare t a with
      | (.error f, t) => (.error f, discard t staged)
      | (.ok (), t) =>
        match t.write a.temporary a.contents with
        | (.error e, t) => (.error ⟨a.temporary, e⟩, discard t (staged ++ [a]))
        | (.ok (), t) => stage (staged ++ [a]) rest t := by
  delta stage
  rfl

/-- A temporary file is written after directories are made. -/
lemma changes_of_written {t₁ : FileTree} {bytes : ByteArray} (hmade : t.Changes t₁ [] [])
    (hwritten : t₁.Written t' a.temporary bytes) : t.Changes t' [] [a.scratch t] := by
  have hchanges := hmade.trans hwritten.changes
  rwa [hmade.place_eq] at hchanges

/-- The temporary files of some artifacts are new, and nothing else has changed. -/
structure Staged (t t' : FileTree) (out : List Artifact) : Prop where
  changes : t.Changes t' [] (out.map (scratch t))
  /-- A temporary file holds the text of an artifact that shares the place. -/
  written : ∀ a ∈ out, ∃ b ∈ out, b.scratch t = a.scratch t ∧
    t'.Holds a.temporary b.contents.toUTF8
  removable : ∀ a ∈ out, t'.Removable a.temporary

/-- One more artifact is staged in front of others. -/
lemma Staged.cons {t₁ : FileTree} (hfirst : t.Changes t₁ [] [a.scratch t])
    (hremovable : t₁.Removable a.temporary) (hholds : t₁.Holds a.temporary a.contents.toUTF8)
    (hrest : Staged t₁ t' out) : Staged t t' (a :: out) where
  changes := by
    have hchanges := hrest.changes
    rw [map_scratch_congr hfirst.base_eq] at hchanges
    exact hfirst.trans hchanges
  written := by
    have hscratch : ∀ c : Artifact, c.scratch t₁ = c.scratch t :=
      fun c => hfirst.place_eq c.temporary
    intro c hc
    rcases List.mem_cons.1 hc with rfl | hc
    · by_cases hshared : c.scratch t ∈ out.map (scratch t₁)
      -- a later artifact has the same temporary file, and its text is there
      · obtain ⟨d, hd, hsame⟩ := List.mem_map.1 hshared
        obtain ⟨b, hb, hplace, htext⟩ := hrest.written d hd
        have hplaces : t'.place d.temporary = t'.place c.temporary := by
          rw [hrest.changes.place_eq, hrest.changes.place_eq]
          exact hsame.trans (hscratch c).symm
        refine ⟨b, List.mem_cons_of_mem _ hb, ?_, hrest.changes.reaches hholds.1, ?_⟩
        · rw [← hscratch b, hplace, hsame]
        · rw [← hplaces]
          exact htext.2
      · refine ⟨c, List.mem_cons_self, rfl, hrest.changes.holds List.not_mem_nil ?_ hholds⟩
        rwa [← hscratch c] at hshared
    · obtain ⟨b, hb, hplace, htext⟩ := hrest.written c hc
      rw [hscratch, hscratch] at hplace
      exact ⟨b, List.mem_cons_of_mem _ hb, hplace, htext⟩
  removable := by
    intro c hc
    rcases List.mem_cons.1 hc with rfl | hc
    · exact hrest.changes.removable hremovable
    · exact hrest.removable c hc

lemma staged_of_stage (h : stage staged out t = (.ok (), t')) : Staged t t' out := by
  induction out generalizing staged t with
  | nil =>
    obtain rfl := (Prod.mk.inj h).2
    exact ⟨Changes.refl t, fun a ha => absurd ha List.not_mem_nil,
      fun a ha => absurd ha List.not_mem_nil⟩
  | cons a rest ih =>
    rw [stage_cons] at h
    have hprepare := changes_prepare t a
    rcases hprepared : prepare t a with ⟨f | ⟨⟩, t₁⟩
    · simp [hprepared] at h
    rw [hprepared] at hprepare
    rcases hwrite : t₁.write a.temporary a.contents with ⟨e | ⟨⟩, t₂⟩
    · simp [hprepared, hwrite] at h
    simp only [hprepared, hwrite] at h
    have hwritten := write_eq_ok hwrite
    exact Staged.cons (changes_of_written hprepare hwritten) hwritten.removable hwritten.holds
      (ih h)

/-- Files are lost at the places of the temporary files of `all`, and the temporary files of
`staged` are gone. -/
structure Withdrawn (t t' : FileTree) (all staged : List Artifact) : Prop where
  changes : t.Changes t' (all.map (scratch t)) []
  gone : ∀ a ∈ staged, t.Removable a.temporary → t'.file? (a.scratch t) = none

/-- Temporary files are removed after directories are made. -/
lemma Withdrawn.of_discard {t₁ : FileTree} {all removed : List Artifact}
    (hmade : t.Changes t₁ [] []) (hstaged : staged ⊆ removed) (hremoved : removed ⊆ all) :
    Withdrawn t (discard t₁ removed) all staged where
  changes := by
    have hchanges := changes_discard t₁ removed
    rw [map_scratch_congr hmade.base_eq] at hchanges
    exact (hmade.trans hchanges).mono (List.map_subset _ hremoved) (List.Subset.refl _)
  gone := by
    intro a ha hremovable
    have hnone := file?_discard t₁ (hstaged ha) (hmade.removable hremovable)
    rwa [scratch, hmade.place_eq] at hnone

/-- A temporary file that is written and gone in the end is only lost. -/
lemma Withdrawn.of_write {t₁ : FileTree} {all : List Artifact}
    (hfirst : t.Changes t₁ [] [a.scratch t]) (hremovable : t₁.Removable a.temporary)
    (ha : a ∈ all) (hrest : Withdrawn t₁ t' all (staged ++ [a])) : Withdrawn t t' all staged where
  changes := by
    have hself : t'.file? (a.scratch t) = none := by
      have hnone := hrest.gone a (by simp) hremovable
      rwa [scratch, hfirst.place_eq] at hnone
    have hgone : ∀ p ∈ [a.scratch t], t'.file? p = none :=
      fun p hp => by rw [List.mem_singleton.1 hp, hself]
    have hchanges := hrest.changes
    rw [map_scratch_congr hfirst.base_eq] at hchanges
    refine ((hfirst.trans hchanges).absorb hgone).mono ?_ (List.Subset.refl _)
    intro p hp
    rcases List.mem_append.1 hp with hp | hp
    · rw [List.mem_singleton.1 hp]
      exact List.mem_map_of_mem ha
    · simpa using hp
  gone := by
    intro b hb hremovable
    have hnone := hrest.gone b (List.mem_append_left _ hb) (hfirst.removable hremovable)
    rwa [scratch, hfirst.place_eq] at hnone

/-- The first pass fails at one artifact.  The temporary files before it are written and removed
again, and so is its own one if any of it is written. -/
lemma withdrawn_of_stage {f : IoFailure} (h : stage staged out t = (.error f, t')) :
    ∃ written a rest, out = written ++ a :: rest ∧
      (a.path.parent? = some f.path ∨ f.path = a.temporary) ∧
      Withdrawn t t' (staged ++ (written ++ [a])) staged ∧
      ∀ b ∈ written, t'.file? (b.scratch t) = none := by
  induction out generalizing staged t with
  | nil => exact absurd (Prod.mk.inj h).1 (by simp)
  | cons a rest ih =>
    rw [stage_cons] at h
    have hprepare := changes_prepare t a
    rcases hprepared : prepare t a with ⟨f₁ | ⟨⟩, t₁⟩
    -- the directory is not made
    · have hparent := parent?_of_prepare hprepared
      simp only [hprepared] at h hprepare
      obtain ⟨hf, rfl⟩ := Prod.mk.inj h
      rw [Except.error.inj hf] at hparent
      exact ⟨[], a, rest, rfl, Or.inl hparent,
        Withdrawn.of_discard hprepare (List.Subset.refl _) (List.subset_append_left _ _),
        fun b hb => absurd hb List.not_mem_nil⟩
    rw [hprepared] at hprepare
    rcases hwrite : t₁.write a.temporary a.contents with ⟨e | ⟨⟩, t₂⟩
    -- the file is not written, or not all of it
    · simp only [hprepared, hwrite] at h
      obtain ⟨hf, rfl⟩ := Prod.mk.inj h
      have hpath := congrArg IoFailure.path (Except.error.inj hf)
      refine ⟨[], a, rest, rfl, Or.inr hpath.symm, ?_, fun b hb => absurd hb List.not_mem_nil⟩
      rcases write_eq_error hwrite with rfl | ⟨bytes, hpartial⟩
      · exact Withdrawn.of_discard hprepare (List.subset_append_left _ _) (List.Subset.refl _)
      · exact Withdrawn.of_write (changes_of_written hprepare hpartial) hpartial.removable (by simp)
          (Withdrawn.of_discard (Changes.refl t₂) (List.Subset.refl _) (List.Subset.refl _))
    -- the file is written, and it is gone when a later one fails
    · simp only [hprepared, hwrite] at h
      have hwritten := write_eq_ok hwrite
      have hfirst := changes_of_written hprepare hwritten
      obtain ⟨written, b, behind, rfl, hpath, hwithdrawn, hgone⟩ := ih h
      have hself := hwithdrawn.gone a (by simp) hwritten.removable
      rw [List.append_assoc] at hwithdrawn
      refine ⟨a :: written, b, behind, rfl, hpath,
        Withdrawn.of_write hfirst hwritten.removable (by simp) hwithdrawn, fun c hc => ?_⟩
      rw [scratch, ← hfirst.place_eq]
      rcases List.mem_cons.1 hc with rfl | hc
      · exact hself
      · exact hgone c hc

/-! ## The second pass -/

lemma commit_cons (a : Artifact) (rest : List Artifact) (t : FileTree) :
    commit (a :: rest) t =
      match t.rename a.temporary a.path with
      | .error e => (.error ⟨a.path, e⟩, discard t (a :: rest))
      | .ok t => commit rest t := by
  delta commit
  rfl

/-- Some artifacts have moved to their destinations, and the temporary files of all are gone. -/
structure Moves (t t' : FileTree) (out moved : List Artifact) : Prop where
  changes : t.Changes t' (out.map (scratch t)) (moved.map (destination t))
  /-- A destination holds the bytes of the temporary file that has moved there last. -/
  arrived : ∀ a ∈ moved, ∃ b ∈ moved, b.destination t = a.destination t ∧
    ∃ bytes, t.file? (b.scratch t) = some bytes ∧ t'.Holds a.path bytes
  gone : ∀ a ∈ out, t.Removable a.temporary → t'.file? (a.scratch t) = none

/-- No artifact has moved when the temporary files are removed. -/
lemma moves_discard (t : FileTree) (out : List Artifact) : Moves t (discard t out) out [] where
  changes := changes_discard t out
  arrived := fun _ ha => absurd ha List.not_mem_nil
  gone := fun _ ha hremovable => file?_discard t ha hremovable

section Moves

variable {t₁ : FileTree} {moved : List Artifact} {bytes : ByteArray}

/-- What moves after `a` has been in its temporary file before `a` moves. -/
lemma Moves.arrived_behind (hrest : Moves t₁ t' out moved) (hapart : Apart t (a :: out))
    (hmoved : moved ⊆ out) (hfirst : t.Changes t₁ [a.scratch t] [a.destination t]) :
    ∀ c ∈ moved, ∃ b ∈ moved, b.destination t = c.destination t ∧
      ∃ bytes, t.file? (b.scratch t) = some bytes ∧ t'.Holds c.path bytes := by
  intro c hc
  obtain ⟨b, hb, hplace, bytes, hfile, hholds⟩ := hrest.arrived c hc
  rw [destination, destination, hfirst.place_eq, hfirst.place_eq] at hplace
  rw [scratch, hfirst.place_eq] at hfile
  have hne := hapart b (List.mem_cons_of_mem a (hmoved hb)) a List.mem_cons_self
  have hnew : t.place b.temporary ∉ [a.destination t] :=
    fun hmem => hne (List.mem_singleton.1 hmem)
  exact ⟨b, hb, hplace, bytes, hfirst.file?_of_file? hnew hfile, hholds⟩

/-- The destination of `a` holds its bytes, or those of a later artifact that moves over it. -/
lemma Moves.arrived_first (hrest : Moves t₁ t' out moved) (hapart : Apart t (a :: out))
    (hmoved : moved ⊆ out) (hfirst : t.Changes t₁ [a.scratch t] [a.destination t])
    (hsource : t.file? (a.scratch t) = some bytes) (htarget : t₁.Holds a.path bytes) :
    ∃ b ∈ a :: moved, b.destination t = a.destination t ∧
      ∃ bytes, t.file? (b.scratch t) = some bytes ∧ t'.Holds a.path bytes := by
  by_cases hshared : a.destination t ∈ moved.map (destination t)
  · obtain ⟨d, hd, hsame⟩ := List.mem_map.1 hshared
    obtain ⟨b, hb, hplace, bytes, hfile, hholds⟩ :=
      hrest.arrived_behind hapart hmoved hfirst d hd
    have hplaces : t'.place d.path = t'.place a.path := by
      rw [hrest.changes.place_eq, hrest.changes.place_eq, hfirst.place_eq, hfirst.place_eq]
      exact hsame
    refine ⟨b, List.mem_cons_of_mem _ hb, hplace.trans hsame, bytes, hfile,
      hrest.changes.reaches htarget.1, ?_⟩
    rw [← hplaces]
    exact hholds.2
  · refine ⟨a, List.mem_cons_self, rfl, bytes, hsource, hrest.changes.holds ?_ ?_ htarget⟩
    · rw [map_scratch_congr hfirst.base_eq, hfirst.place_eq]
      intro hlost
      obtain ⟨d, hd, hsame⟩ := List.mem_map.1 hlost
      exact hapart d (List.mem_cons_of_mem a hd) a List.mem_cons_self hsame
    · rw [map_destination_congr hfirst.base_eq, hfirst.place_eq]
      exact hshared

/-- One more artifact moves in front of others. -/
lemma Moves.cons (hrest : Moves t₁ t' out moved) (hapart : Apart t (a :: out))
    (hmoved : moved ⊆ out) (hfirst : t.Changes t₁ [a.scratch t] [a.destination t])
    (hsource : t.file? (a.scratch t) = some bytes) (htarget : t₁.Holds a.path bytes)
    (hgone : t₁.file? (a.scratch t) = none) : Moves t t' (a :: out) (a :: moved) where
  changes := by
    have hchanges := hrest.changes
    rw [map_scratch_congr hfirst.base_eq, map_destination_congr hfirst.base_eq] at hchanges
    exact hfirst.trans hchanges
  arrived := by
    intro c hc
    rcases List.mem_cons.1 hc with rfl | hc
    · exact hrest.arrived_first hapart hmoved hfirst hsource htarget
    · obtain ⟨b, hb, hbehind⟩ := hrest.arrived_behind hapart hmoved hfirst c hc
      exact ⟨b, List.mem_cons_of_mem _ hb, hbehind⟩
  gone := by
    intro c hc hremovable
    rcases List.mem_cons.1 hc with rfl | hc
    · refine hrest.changes.file?_eq_none ?_ hgone
      rw [map_destination_congr hfirst.base_eq]
      intro hgained
      obtain ⟨d, hd, hsame⟩ := List.mem_map.1 hgained
      exact hapart c List.mem_cons_self d (List.mem_cons_of_mem c (hmoved hd)) hsame.symm
    · have hnone := hrest.gone c hc (hfirst.removable hremovable)
      rwa [scratch, hfirst.place_eq] at hnone

end Moves

/-- The second pass moves the artifacts up to the first one that does not move. -/
lemma moves_of_commit {r : Except IoFailure Unit} (hapart : Apart t out)
    (h : commit out t = (r, t')) : ∃ moved rest, out = moved ++ rest ∧ Moves t t' out moved ∧
      ((r = .ok () ∧ rest = []) ∨ ∃ a tail e, rest = a :: tail ∧ r = .error ⟨a.path, e⟩) := by
  induction out generalizing t with
  | nil =>
    obtain ⟨rfl, rfl⟩ := Prod.mk.inj h
    exact ⟨[], [], rfl, moves_discard t [], Or.inl ⟨rfl, rfl⟩⟩
  | cons a rest ih =>
    rw [commit_cons] at h
    rcases hrename : t.rename a.temporary a.path with e | t₁
    · simp only [hrename] at h
      obtain ⟨rfl, rfl⟩ := Prod.mk.inj h
      exact ⟨[], a :: rest, rfl, moves_discard t _, Or.inr ⟨a, rest, e, rfl, rfl⟩⟩
    · simp only [hrename] at h
      obtain ⟨hfirst, ⟨bytes, hsource, htarget⟩, hgone⟩ := rename_eq_ok hrename
      have hne := hapart a List.mem_cons_self a List.mem_cons_self
      have hlater := hapart.congr hfirst.base_eq (List.subset_cons_self a rest)
      obtain ⟨moved, left, rfl, hmoves, hend⟩ := ih hlater h
      exact ⟨a :: moved, left, rfl,
        hmoves.cons hapart (List.subset_append_left _ _) hfirst hsource htarget (hgone hne), hend⟩

section Passes

variable {t₁ : FileTree} {moved : List Artifact}

/-- After both passes the temporary files are gone. -/
lemma Staged.removed_of_moves (hstaged : Staged t t₁ out) (hmoves : Moves t₁ t' out moved) :
    ∀ a ∈ out, t'.file? (a.scratch t) = none := by
  intro a ha
  have hnone := hmoves.gone a ha (hstaged.removable a ha)
  rwa [scratch, hstaged.changes.place_eq] at hnone

/-- Over both passes files are lost at their places, and gained at the destinations of the moved
artifacts. -/
lemma Staged.changes_of_moves (hstaged : Staged t t₁ out) (hmoves : Moves t₁ t' out moved) :
    t.Changes t' (out.map (scratch t)) (moved.map (destination t)) := by
  have hmoved := hmoves.changes
  rw [map_scratch_congr hstaged.changes.base_eq, map_destination_congr hstaged.changes.base_eq]
    at hmoved
  have hgone : ∀ p ∈ out.map (scratch t), t'.file? p = none := by
    intro p hp
    obtain ⟨a, ha, rfl⟩ := List.mem_map.1 hp
    exact hstaged.removed_of_moves hmoves a ha
  exact ((hstaged.changes.trans hmoved).absorb hgone).mono (by simp) (List.Subset.refl _)

end Passes

/-! ## Writings that succeed -/

lemma pending_subset (t : FileTree) (artifacts : List Artifact) :
    pending t artifacts ⊆ artifacts := List.filter_sublist.subset

/-- The destinations and the temporary files all stand at different places. -/
def Separate (t : FileTree) (artifacts : List Artifact) : Prop :=
  (artifacts.flatMap fun a => [a.destination t, a.scratch t]).Nodup

section Separate

variable {b : Artifact}

/-- Artifacts that share a place are one artifact. -/
lemma Separate.eq_of_shared (h : Separate t artifacts) (ha : a ∈ artifacts) (hb : b ∈ artifacts)
    {p : Place} (hp : p ∈ [a.destination t, a.scratch t])
    (hp' : p ∈ [b.destination t, b.scratch t]) : a = b := by
  by_contra hne
  have : Std.Symm (Function.onFun List.Disjoint fun a : Artifact =>
    [a.destination t, a.scratch t]) := ⟨fun _ _ hdisjoint _ hx hy => hdisjoint hy hx⟩
  have hdisjoint := (List.nodup_flatMap.1 h).2.forall ha hb hne
  exact hdisjoint hp hp'

lemma Separate.eq_of_destination_eq (h : Separate t artifacts) (ha : a ∈ artifacts)
    (hb : b ∈ artifacts) (heq : a.destination t = b.destination t) : a = b :=
  h.eq_of_shared ha hb (by simp) (by simp [heq] : a.destination t ∈ _)

lemma Separate.eq_of_scratch_eq (h : Separate t artifacts) (ha : a ∈ artifacts)
    (hb : b ∈ artifacts) (heq : a.scratch t = b.scratch t) : a = b :=
  h.eq_of_shared ha hb (by simp) (by simp [heq] : a.scratch t ∈ _)

lemma Separate.apart (h : Separate t artifacts) : Apart t artifacts := by
  intro a ha b hb heq
  obtain rfl : a = b := h.eq_of_shared ha hb (by simp) (by simp [heq] : a.scratch t ∈ _)
  have hself := (List.nodup_flatMap.1 h).1 a ha
  exact absurd heq.symm (by simpa using hself)

end Separate

/-- A writing gives the paths of the artifacts that it moves. -/
lemma writeAll_eq_ok {written : List Path} (h : writeAll artifacts t = (.ok written, t')) :
    written = (pending t artifacts).map (·.path) ∧
      ∃ t₁, stage [] (pending t artifacts) t = (.ok (), t₁) ∧
        commit (pending t artifacts) t₁ = (.ok (), t') := by
  rw [writeAll] at h
  rcases hstage : stage [] (pending t artifacts) t with ⟨f | ⟨⟩, t₁⟩
  · simp only [hstage] at h
    exact absurd (Prod.mk.inj h).1 (by simp)
  rcases hcommit : commit (pending t artifacts) t₁ with ⟨f | ⟨⟩, t₂⟩
  · simp only [hstage, hcommit] at h
    exact absurd (Prod.mk.inj h).1 (by simp)
  · simp only [hstage, hcommit] at h
    obtain ⟨hwritten, rfl⟩ := Prod.mk.inj h
    exact ⟨(Except.ok.inj hwritten).symm, t₁, rfl, hcommit⟩

/-- A writing with nothing to write changes nothing. -/
lemma writeAll_of_pending_eq_nil (h : pending t artifacts = []) :
    writeAll artifacts t = (.ok [], t) := by
  rw [writeAll, h]
  rfl

lemma isCurrent_iff : a.isCurrent t = true ↔ t.read a.path = .ok a.contents := by
  rw [isCurrent]
  rcases t.read a.path with e | text
  · simp
  · simp

lemma pending_eq_nil_iff :
    pending t artifacts = [] ↔ ∀ a ∈ artifacts, t.read a.path = .ok a.contents := by
  simp [pending, List.filter_eq_nil_iff, isCurrent_iff]

/-- A writing that succeeds makes both passes, and the second one moves all that the first one has
staged. -/
lemma exists_passes_of_writeAll {written : List Path} (hseparate : Separate t artifacts)
    (h : writeAll artifacts t = (.ok written, t')) : ∃ t₁, Staged t t₁ (pending t artifacts) ∧
      Moves t₁ t' (pending t artifacts) (pending t artifacts) := by
  obtain ⟨-, t₁, hstage, hcommit⟩ := writeAll_eq_ok h
  have hstaged := staged_of_stage hstage
  obtain ⟨moved, rest, hsplit, hmoves, hend⟩ := moves_of_commit
    (hseparate.apart.congr hstaged.changes.base_eq (pending_subset t artifacts)) hcommit
  obtain rfl : moved = pending t artifacts := by
    rcases hend with ⟨-, rfl⟩ | ⟨a, tail, e, -, herror⟩
    · rw [hsplit, List.append_nil]
    · exact absurd herror (by simp)
  exact ⟨t₁, hstaged, hmoves⟩

/-- After a writing every destination holds the text of its artifact, and no other file has changed
but the temporary ones. -/
lemma holds_of_writeAll {written : List Path} (hseparate : Separate t artifacts)
    (h : writeAll artifacts t = (.ok written, t')) :
    t.Changes t' (artifacts.map (scratch t)) (artifacts.map (destination t)) ∧
      ∀ a ∈ artifacts, t'.read a.path = .ok a.contents := by
  obtain ⟨t₁, hstaged, hmoves⟩ := exists_passes_of_writeAll hseparate h
  have hpending := pending_subset t artifacts
  have hbase := hstaged.changes.base_eq
  have hchanges := hstaged.changes_of_moves hmoves
  refine ⟨hchanges.mono (List.map_subset _ hpending) (List.map_subset _ hpending), fun a ha => ?_⟩
  by_cases hcurrent : a.isCurrent t = true
  -- the destination is left alone
  · refine hchanges.read_eq_ok ?_ ?_ (isCurrent_iff.1 hcurrent)
    · intro hlost
      obtain ⟨b, hb, heq⟩ := List.mem_map.1 hlost
      exact hseparate.apart b (hpending hb) a ha heq
    · intro hgained
      obtain ⟨b, hb, heq⟩ := List.mem_map.1 hgained
      obtain rfl := hseparate.eq_of_destination_eq (hpending hb) ha heq
      simp [pending, hcurrent] at hb
  -- the temporary file has moved over the destination
  · have hmem : a ∈ pending t artifacts := List.mem_filter.2 ⟨ha, by simpa using hcurrent⟩
    obtain ⟨b, hb, hplace, bytes, hfile, hholds⟩ := hmoves.arrived a hmem
    rw [destination, destination, place_congr hbase, place_congr hbase] at hplace
    obtain rfl := hseparate.eq_of_destination_eq (hpending hb) ha hplace
    obtain ⟨c, hc, hplace', htext⟩ := hstaged.written b hb
    obtain rfl := hseparate.eq_of_scratch_eq (hpending hc) ha hplace'
    rw [Option.some.inj (hfile.symm.trans htext.2)] at hholds
    exact read_eq_ok_iff.2 hholds

/-- The destination does not hold the text of the artifact, so that the artifact is written. -/
def IsStale (t : FileTree) (a : Artifact) : Prop := t.read a.path ≠ .ok a.contents

instance (t : FileTree) (a : Artifact) : Decidable (IsStale t a) :=
  inferInstanceAs (Decidable (t.read a.path ≠ .ok a.contents))

lemma pending_eq (t : FileTree) (artifacts : List Artifact) :
    pending t artifacts = artifacts.filter fun a => IsStale t a := by
  refine List.filter_congr fun a _ => ?_
  rw [Bool.eq_iff_iff, decide_eq_true_iff, Bool.not_eq_true', ← Bool.not_eq_true, isCurrent_iff,
    IsStale]

lemma mem_pending_iff : a ∈ pending t artifacts ↔ a ∈ artifacts ∧ IsStale t a := by
  rw [pending_eq, List.mem_filter, decide_eq_true_iff]

/-- What a writing that succeeds has done. -/
structure Completed (t t' : FileTree) (artifacts : List Artifact) (written : List Path) : Prop where
  /-- Every destination holds the text of its artifact. -/
  holds : ∀ a ∈ artifacts, t'.read a.path = .ok a.contents
  /-- The paths of the artifacts that had to be written are told, in their order. -/
  written_eq : written = (artifacts.filter fun a => IsStale t a).map (·.path)
  /-- The temporary files are gone. -/
  removed : ∀ a ∈ artifacts, IsStale t a → t'.file? (a.scratch t) = none
  /-- No file has changed, gone or come anywhere else. -/
  unchanged : ∀ p, (∀ a ∈ artifacts, IsStale t a → p ≠ a.destination t ∧ p ≠ a.scratch t) →
    t'.file? p = t.file? p
  /-- Writing the same again does nothing. -/
  again : writeAll artifacts t' = (.ok [], t')

/-- **A writing that succeeds writes what had to be written and nothing else.**  Let the
destinations and the temporary files stand at different places.  Then every destination holds the
text of its artifact, and the paths that are told are those of the artifacts whose destinations held
something else before.  Only their destinations have changed, and their temporary files are gone.
Writing the same artifacts again succeeds and leaves everything as it is. -/
theorem completed_of_writeAll {written : List Path} (hseparate : Separate t artifacts)
    (h : writeAll artifacts t = (.ok written, t')) : Completed t t' artifacts written := by
  obtain ⟨t₁, hstaged, hmoves⟩ := exists_passes_of_writeAll hseparate h
  have hchanges := hstaged.changes_of_moves hmoves
  have hholds := (holds_of_writeAll hseparate h).2
  refine ⟨hholds, ?_, fun a ha hstale => ?_, fun p hp => ?_, ?_⟩
  · rw [(writeAll_eq_ok h).1, pending_eq]
  · exact hstaged.removed_of_moves hmoves a (mem_pending_iff.2 ⟨ha, hstale⟩)
  · refine hchanges.file?_eq ?_ ?_
    · intro hlost
      obtain ⟨a, ha, rfl⟩ := List.mem_map.1 hlost
      obtain ⟨ha, hstale⟩ := mem_pending_iff.1 ha
      exact (hp a ha hstale).2 rfl
    · intro hgained
      obtain ⟨a, ha, rfl⟩ := List.mem_map.1 hgained
      obtain ⟨ha, hstale⟩ := mem_pending_iff.1 ha
      exact (hp a ha hstale).1 rfl
  · exact writeAll_of_pending_eq_nil (pending_eq_nil_iff.2 hholds)

/-- A working directory with a file that is up to date and one that is not even a text. -/
def partialTree : FileTree :=
  ((FileTree.empty ["work"]).put ["work", "A.swift"] (.file "a\n".toUTF8)).put ["work", "B.swift"]
    (.file ⟨#[0xff]⟩)

/-- The last artifact belongs in a directory that does not exist. -/
def partialArtifacts : List Artifact :=
  [⟨⟨"A.swift"⟩, "a\n"⟩, ⟨⟨"B.swift"⟩, "b\n"⟩, ⟨⟨"out/C.swift"⟩, "c\n"⟩]

theorem completed_of_writeAll_partial :
    ∃ t', writeAll partialArtifacts partialTree
        = (.ok [⟨"B.swift"⟩, ⟨"out/C.swift"⟩], t') ∧ Separate partialTree partialArtifacts ∧
      Completed partialTree t' partialArtifacts [⟨"B.swift"⟩, ⟨"out/C.swift"⟩] := by
  have hseparate : Separate partialTree partialArtifacts := by
    rw [Separate]
    decide +kernel
  have hwritten : (writeAll partialArtifacts partialTree).1
      = .ok [⟨"B.swift"⟩, ⟨"out/C.swift"⟩] := by
    decide +kernel
  exact ⟨_, Prod.ext hwritten rfl, hseparate,
    completed_of_writeAll hseparate (Prod.ext hwritten rfl)⟩

/-! ## Writings that fail -/

/-- What a writing leaves when it fails after the temporary files of some artifacts have been
written and some artifacts have moved. -/
structure Abandoned (t t' : FileTree) (artifacts written moved : List Artifact) : Prop where
  /-- The other destinations hold what they have held. -/
  kept : ∀ a ∈ artifacts, a.destination t ∉ moved.map (destination t) →
    t'.file? (a.destination t) = t.file? (a.destination t)
  /-- The destination of a moved artifact holds a new text. -/
  replaced : ∀ a ∈ moved, ∃ b ∈ pending t artifacts, t'.read a.path = .ok b.contents
  /-- The temporary files are gone. -/
  removed : ∀ a ∈ written, t'.file? (a.scratch t) = none
  /-- Any other file has stood there with the same bytes. -/
  nothing_new : ∀ p ∉ moved.map (destination t), ∀ bytes, t'.file? p = some bytes →
    t.file? p = some bytes

lemma Abandoned.of_changes {written moved : List Artifact} (hapart : Apart t artifacts)
    (hchanges : t.Changes t' ((pending t artifacts).map (scratch t)) (moved.map (destination t)))
    (hreplaced : ∀ a ∈ moved, ∃ b ∈ pending t artifacts, t'.read a.path = .ok b.contents)
    (hremoved : ∀ a ∈ written, t'.file? (a.scratch t) = none) :
    Abandoned t t' artifacts written moved where
  kept := by
    intro a ha hother
    refine hchanges.file?_eq ?_ hother
    intro hlost
    obtain ⟨b, hb, hsame⟩ := List.mem_map.1 hlost
    exact hapart b (pending_subset t artifacts hb) a ha hsame
  replaced := hreplaced
  removed := hremoved
  nothing_new := fun _ hp _ hfile => hchanges.file?_of_file? hp hfile

/-- **A writing that fails leaves the old files or, from the first one on, some new ones.**  Let no
temporary file stand at a destination.  When a directory cannot be made or a temporary file cannot
be written, then every destination holds what it has held.  When an artifact cannot be moved, then
the destinations of those before it are new, and the others hold what they have held.  Either way
the temporary files are gone, and no other file is new. -/
theorem writeAll_error {f : IoFailure} (h : writeAll artifacts t = (.error f, t'))
    (hapart : Apart t artifacts) :
    ∃ written moved a rest, Abandoned t t' artifacts written moved ∧
      ((pending t artifacts = written ++ a :: rest ∧ moved = [] ∧
          (a.path.parent? = some f.path ∨ f.path = a.temporary)) ∨
        (pending t artifacts = moved ++ a :: rest ∧ written = pending t artifacts ∧
          f.path = a.path)) := by
  rw [writeAll] at h
  rcases hstage : stage [] (pending t artifacts) t with ⟨f₁ | ⟨⟩, t₁⟩
  -- the first pass fails
  · simp only [hstage] at h
    obtain ⟨hf, rfl⟩ := Prod.mk.inj h
    obtain rfl := Except.error.inj hf
    obtain ⟨written, a, rest, hsplit, hpath, hwithdrawn, hremoved⟩ := withdrawn_of_stage hstage
    have hlost : written ++ [a] ⊆ pending t artifacts := by
      rw [hsplit, List.append_cons written a rest]
      exact List.subset_append_left _ _
    have hchanges := hwithdrawn.changes.mono (List.map_subset _ hlost) (List.Subset.refl _)
    exact ⟨written, [], a, rest, Abandoned.of_changes hapart hchanges
      (fun a ha => absurd ha List.not_mem_nil) hremoved, Or.inl ⟨hsplit, rfl, hpath⟩⟩
  simp only [hstage] at h
  have hstaged := staged_of_stage hstage
  have hbase := hstaged.changes.base_eq
  rcases hcommit : commit (pending t artifacts) t₁ with ⟨f₁ | ⟨⟩, t₂⟩
  -- the second pass fails
  · simp only [hcommit] at h
    obtain ⟨hf, rfl⟩ := Prod.mk.inj h
    obtain rfl := Except.error.inj hf
    obtain ⟨moved, rest, hsplit, hmoves, hend⟩ :=
      moves_of_commit (hapart.congr hbase (pending_subset t artifacts)) hcommit
    obtain ⟨a, tail, e, rfl, herror⟩ := hend.resolve_left fun hok => absurd hok.1 (by simp)
    refine ⟨pending t artifacts, moved, a, tail, ?_, Or.inr ⟨hsplit, rfl, ?_⟩⟩
    · refine Abandoned.of_changes hapart (hstaged.changes_of_moves hmoves) (fun b hb => ?_)
        (hstaged.removed_of_moves hmoves)
      obtain ⟨c, hc, -, bytes, hfile, hholds⟩ := hmoves.arrived b hb
      obtain ⟨d, hd, -, htext⟩ := hstaged.written c (hsplit ▸ List.mem_append_left _ hc)
      rw [Option.some.inj (hfile.symm.trans htext.2)] at hholds
      exact ⟨d, hd, read_eq_ok_iff.2 hholds⟩
    · rw [Except.error.inj herror]
  · simp only [hcommit] at h
    exact absurd (Prod.mk.inj h).1 (by simp)

/-- A working directory with a file and a directory. -/
def blockedTree : FileTree :=
  ((FileTree.empty ["work"]).put ["work", "A.swift"] (.file "old\n".toUTF8)).put ["work", "d"]
    .directory

/-- The first artifact belongs where the file stands, the second one where the directory does. -/
def blockedArtifacts : List Artifact := [⟨⟨"A.swift"⟩, "new\n"⟩, ⟨⟨"d"⟩, "x\n"⟩]

theorem writeAll_error_blocked :
    ∃ f t', writeAll blockedArtifacts blockedTree = (.error f, t') ∧
      Apart blockedTree blockedArtifacts ∧
      ∃ written moved a rest, Abandoned blockedTree t' blockedArtifacts written moved ∧
        ((pending blockedTree blockedArtifacts = written ++ a :: rest ∧ moved = [] ∧
            (a.path.parent? = some f.path ∨ f.path = a.temporary)) ∨
          (pending blockedTree blockedArtifacts = moved ++ a :: rest ∧
            written = pending blockedTree blockedArtifacts ∧ f.path = a.path)) := by
  have hapart : Apart blockedTree blockedArtifacts := by
    rw [Apart]
    decide +kernel
  have hfails : (writeAll blockedArtifacts blockedTree).1 = .error ⟨⟨"d"⟩, .isDirectory⟩ := by
    decide +kernel
  exact ⟨_, _, Prod.ext hfails rfl, hapart, writeAll_error (Prod.ext hfails rfl) hapart⟩

/-- There is no room for the first temporary file. -/
def fullTree : FileTree := { blockedTree with limits := [(["work", "A.swift.tmp"], 2)] }

-- What has been written of it is removed again.
example : writeAll blockedArtifacts fullTree
    = (.error ⟨⟨"A.swift.tmp"⟩, .noSpace⟩, fullTree) := by
  decide +kernel

/-- A move that fails after another one leaves the new text of the earlier artifact, although no
temporary file stands at a destination. -/
theorem not_atomic_writeAll :
    ¬ ∀ (artifacts : List Artifact) (t t' : FileTree) (f : IoFailure), Apart t artifacts →
      writeAll artifacts t = (.error f, t') →
        (∀ a ∈ artifacts, t'.file? (a.destination t) = t.file? (a.destination t)) ∧
          ∀ p bytes, t'.file? p = some bytes → t.file? p = some bytes := by
  intro h
  have hapart : Apart blockedTree blockedArtifacts := by
    rw [Apart]
    decide +kernel
  have hfails : (writeAll blockedArtifacts blockedTree).1 = .error ⟨⟨"d"⟩, .isDirectory⟩ := by
    decide +kernel
  have hkept := (h _ _ _ _ hapart (Prod.ext hfails rfl)).1 ⟨⟨"A.swift"⟩, "new\n"⟩ (by decide)
  revert hkept
  decide +kernel

/-- When a temporary file stands at a destination, then even a failure of the first pass costs the
file there. -/
theorem not_kept_of_clash :
    ¬ ∀ (artifacts : List Artifact) (t t' : FileTree) (f : IoFailure),
      writeAll artifacts t = (.error f, t') → (∀ a ∈ artifacts, f.path ≠ a.path) →
        ∀ a ∈ artifacts, t'.file? (a.destination t) = t.file? (a.destination t) := by
  intro h
  have hfails : (writeAll [⟨⟨"A.tmp"⟩, "x\n"⟩, ⟨⟨"A"⟩, "y\n"⟩, ⟨⟨"f/B"⟩, "z\n"⟩]
      (((FileTree.empty ["work"]).put ["work", "A.tmp"] (.file "old\n".toUTF8)).put ["work", "f"]
        (.file "".toUTF8))).1 = .error ⟨⟨"f"⟩, .alreadyExists⟩ := by
    decide +kernel
  have hkept := h _ _ _ _ (Prod.ext hfails rfl) (by decide) ⟨⟨"A.tmp"⟩, "x\n"⟩ (by decide)
  revert hkept
  decide +kernel

end ShaderBindings.Artifact
