/-
# Prose does not steer a run

A node carries prose for readers: a display name in its metadata and a description in the table.
The prose rides along from the prim to the binding, where it becomes a comment, and no step on the
way looks at it.  To say so, `withoutProse` takes the prose off drafts, prototypes and sets,
`withoutDoc` takes the comment off a binding, and every step of a run commutes with the two.

Two stages whose nodes differ in their display names alone are `Alike`.  The runs over them, under
any two description tables, make the same reports, and they end in the same error or in modules
that differ in comments alone (`run_alike`).
-/
import ShaderBindings.Proofs.Dictionary
import ShaderBindings.Proofs.Fault
import ShaderBindings.Session

namespace ShaderBindings

open Fault

/-! ## Taking the prose off -/

def Annotations.withoutProse (a : Annotations) : Annotations := { a with displayName? := none }

def Draft.withoutProse (d : Draft) : Draft :=
  { d with annotations := d.annotations.withoutProse }

def Prototype.withoutProse (p : Prototype) : Prototype :=
  { p with
    description? := none
    displayName? := none }

def OverloadMember.withoutProse (m : OverloadMember) : OverloadMember :=
  { m with prototype := m.prototype.withoutProse }

def OverloadSet.withoutProse (s : OverloadSet) : OverloadSet :=
  { s with members := s.members.map OverloadMember.withoutProse }

def OverloadSets.withoutProse (sets : OverloadSets) : OverloadSets :=
  Dictionary.mapValues OverloadSet.withoutProse sets

def Binding.withoutDoc (b : Binding) : Binding := { b with doc := [] }

def BindingModule.withoutDocs (m : BindingModule) : BindingModule :=
  { m with bindings := m.bindings.map Binding.withoutDoc }

/-- The prims differ in the display name at most. -/
structure Schema.Prim.Alike (a b : Schema.Prim) : Prop where
  path : a.path = b.path
  properties : a.properties = b.properties
  metadata : (Annotations.ofMetadata? a.metadata).map Annotations.withoutProse
    = (Annotations.ofMetadata? b.metadata).map Annotations.withoutProse

/-- The nodes of the stages differ in their display names at most. -/
def Schema.Stage.Alike (a b : Schema.Stage) : Prop :=
  List.Forall₂ Schema.Prim.Alike a.nodes b.nodes

lemma Schema.Prim.Alike.refl (prim : Schema.Prim) : prim.Alike prim := ⟨rfl, rfl, rfl⟩

lemma Schema.Stage.Alike.refl (stage : Schema.Stage) : stage.Alike stage :=
  List.forall₂_same.2 fun prim _ => Schema.Prim.Alike.refl prim

/-! ## Loading -/

lemma assemble?_withoutProse (id : String) (annotations : Annotations)
    (sockets : List DraftSocket) : (assemble? id annotations sockets).map Draft.withoutProse
      = assemble? id annotations.withoutProse sockets := by
  rw [assemble?, assemble?]
  split
  · split_ifs <;> rfl
  · rfl

/-- Prims that are alike are refused or left out alike, or their drafts differ in prose. -/
lemma draft?_alike {a b : Schema.Prim} (h : a.Alike b) :
    (draft? a).map (Option.map Draft.withoutProse)
      = (draft? b).map (Option.map Draft.withoutProse) := by
  have hname : a.name = b.name := by rw [Schema.Prim.name, Schema.Prim.components, h.path]; rfl
  unfold draft?
  rw [hname, h.properties]
  by_cases hinternal : isInternalName (bareName b.name)
  · rw [if_pos hinternal, if_pos hinternal]
  rw [if_neg hinternal, if_neg hinternal, annotations?, annotations?]
  rcases map_eq_map_cases h.metadata with ⟨d, ha, hb⟩ | ⟨annotations, annotations', ha, hb, hsame⟩
  -- the metadata of both is refused
  · rw [ha, hb]
  -- the metadata of both is read
  · have hdeprecated : annotations.deprecated = annotations'.deprecated :=
      (congrArg Annotations.deprecated hsame :)
    simp only [ha, hb, bind, Except.bind, hdeprecated]
    split_ifs
    · rfl
    · rfl
    · rcases draftSockets? b.name b.properties with e | sockets
      · rfl
      · simp only [Except.map, assemble?_withoutProse, hsame]

/-- Two nodes are refused or left out alike, or they give values that differ in prose. -/
lemma found_cases {α β : Type} {x y : Except InvalidMetadata (Option α)} {f : α → β}
    (h : x.map (Option.map f) = y.map (Option.map f)) :
    (∃ e, x = .error e ∧ y = .error e) ∨ (x = .ok none ∧ y = .ok none) ∨
      ∃ a b, x = .ok (some a) ∧ y = .ok (some b) ∧ f a = f b := by
  rcases map_eq_map_cases h with hrefused | ⟨_ | a, _ | b, rfl, rfl, hsame⟩
  · exact Or.inl hrefused
  · exact Or.inr (Or.inl ⟨rfl, rfl⟩)
  · exact absurd hsame (by simp)
  · exact absurd hsame (by simp)
  · exact Or.inr (Or.inr ⟨a, b, rfl, rfl, Option.some.inj hsame⟩)

section Loading

variable (descriptions descriptions' : Schema.Descriptions)

/-- Resolving a draft does not read its prose. -/
lemma Draft.resolve_withoutProse (d : Draft) (l : Ledger) :
    ((d.resolve descriptions l).1.withoutProse, (d.resolve descriptions l).2)
      = ((d.withoutProse.resolve [] l).1.withoutProse, (d.withoutProse.resolve [] l).2) :=
  rfl

/-- Loading prims that are alike gives prototypes that differ in prose. -/
lemma load_alike {a b : Schema.Prim} (h : a.Alike b) (l : Ledger) :
    ((load a descriptions l).1.map (Option.map Prototype.withoutProse),
        (load a descriptions l).2)
      = ((load b descriptions' l).1.map (Option.map Prototype.withoutProse),
        (load b descriptions' l).2) := by
  rw [load, load]
  rcases found_cases (draft?_alike h) with ⟨e, ha, hb⟩ | ⟨ha, hb⟩ | ⟨d, d', ha, hb, hsame⟩
  · rw [ha, hb]
  · rw [ha, hb]
  · have hresolved := (d.resolve_withoutProse descriptions l).trans
      (hsame ▸ (d'.resolve_withoutProse descriptions' l).symm)
    obtain ⟨hprototype, hledger⟩ := Prod.mk.inj hresolved
    rw [ha, hb]
    exact Prod.ext (congrArg (fun p => Except.ok (some p)) hprototype) hledger

namespace Session

lemma loadPrims_alike {as bs : List Schema.Prim} (h : List.Forall₂ Schema.Prim.Alike as bs)
    (l : Ledger) :
    ((loadPrims descriptions as l).1.map (List.map Prototype.withoutProse),
        (loadPrims descriptions as l).2)
      = ((loadPrims descriptions' bs l).1.map (List.map Prototype.withoutProse),
        (loadPrims descriptions' bs l).2) := by
  induction h generalizing l with
  | nil => rfl
  | @cons a b as bs hab _ ih =>
    obtain ⟨hfound, hledger⟩ := Prod.mk.inj (load_alike descriptions descriptions' hab l)
    rw [loadPrims, loadPrims]
    rcases hb : load b descriptions' l with ⟨found', l₁⟩
    rcases ha : load a descriptions l with ⟨found, l₂⟩
    rw [ha, hb] at hfound hledger
    obtain rfl : l₂ = l₁ := hledger
    rcases found_cases hfound with ⟨e, rfl, rfl⟩ | ⟨rfl, rfl⟩ | ⟨p, p', rfl, rfl, hsame⟩
    · rfl
    · exact ih l₂
    · obtain ⟨hrest, hledger⟩ := Prod.mk.inj (ih l₂)
      rcases has : loadPrims descriptions as l₂ with ⟨rest, m⟩
      rcases hbs : loadPrims descriptions' bs l₂ with ⟨rest', m'⟩
      rw [has, hbs] at hrest hledger
      obtain rfl : m = m' := hledger
      simp only [has, hbs]
      rcases map_eq_map_cases hrest with ⟨e, rfl, rfl⟩ | ⟨ps, ps', rfl, rfl, hothers⟩
      · rfl
      · simp only [Except.map, List.map_cons, hsame, hothers]

end Session

end Loading

/-! ## Grouping -/

namespace OverloadSet

variable (s : OverloadSet)

lemma prototypes_withoutProse :
    s.withoutProse.prototypes = s.prototypes.map Prototype.withoutProse := by
  rw [prototypes, prototypes, withoutProse, List.map_map, List.map_map]
  rfl

lemma length_members_withoutProse : s.withoutProse.members.length = s.members.length :=
  List.length_map _

lemma arity_withoutProse : s.withoutProse.arity = s.arity := by
  obtain ⟨base, _ | ⟨m, members⟩⟩ := s <;> rfl

lemma isSingle_withoutProse : s.withoutProse.isSingle = s.isSingle := by
  rw [isSingle, isSingle, length_members_withoutProse]

lemma isIndistinguishable_withoutProse :
    s.withoutProse.isIndistinguishable = s.isIndistinguishable := by
  rw [isIndistinguishable, isIndistinguishable, prototypes_withoutProse]
  rcases s.prototypes with _ | ⟨p, ps⟩
  · rfl
  · exact List.all_map

lemma arityMismatches_withoutProse (base : String) :
    s.withoutProse.arityMismatches base = s.arityMismatches base := by
  rw [arityMismatches, arityMismatches, prototypes_withoutProse, arity_withoutProse,
    List.filter_map, List.map_map]
  rfl

end OverloadSet

namespace OverloadSets

variable (sets : OverloadSets) (p : Prototype) (ps : List Prototype)

lemma withoutProse_collectOne :
    (sets.collectOne p).withoutProse = sets.withoutProse.collectOne p.withoutProse := by
  refine Dictionary.mapValues_alter sets _ _ fun found => ?_
  rcases found with _ | set
  · rfl
  · exact congrArg (OverloadSet.mk set.baseName) List.map_append

lemma withoutProse_collect :
    (collect ps).withoutProse = collect (ps.map Prototype.withoutProse) := by
  rw [collect, collect, List.foldl_map]
  exact (List.foldl_hom withoutProse fun sets p => (withoutProse_collectOne sets p).symm).symm

lemma withoutProse_dropMismatched :
    sets.dropMismatched.map withoutProse = sets.withoutProse.dropMismatched := by
  have hvalue : sets.dropMismatched.value.withoutProse = sets.withoutProse.dropMismatched.value :=
    Dictionary.mapValues_filter sets _ fun entry => by
      rw [OverloadSet.arityMismatches_withoutProse]
  have hdiagnostics : sets.dropMismatched.diagnostics
      = sets.withoutProse.dropMismatched.diagnostics := by
    rw [dropMismatched, dropMismatched, withoutProse, Dictionary.mapValues, List.flatMap_map]
    simp only [OverloadSet.arityMismatches_withoutProse]
  rw [Reported.map, hvalue, hdiagnostics]

lemma withoutProse_addSingle :
    (sets.addSingle p).map withoutProse = sets.withoutProse.addSingle p.withoutProse := by
  have hfound : sets.withoutProse.get? p.withoutProse.name
      = (sets.get? p.name).map OverloadSet.withoutProse := sets.get?_mapValues _ p.name
  rw [addSingle, addSingle, hfound]
  rcases sets.get? p.name with _ | found
  · exact congrArg (Reported.mk · []) (Dictionary.mapValues_insert sets _ p.name (single p))
  · have hfirst : found.withoutProse.prototypes.head?.map (·.id)
        = found.prototypes.head?.map (·.id) := by
      rw [OverloadSet.prototypes_withoutProse, List.head?_map, Option.map_map]
      rfl
    simp only [Option.map_some, hfirst]
    rfl

lemma withoutProse_addSingles : (sets.addSingles ps).map withoutProse
    = sets.withoutProse.addSingles (ps.map Prototype.withoutProse) := by
  induction ps generalizing sets with
  | nil => rfl
  | cons p rest ih =>
    rw [List.map_cons, addSingles, addSingles, ← withoutProse_addSingle]
    dsimp only [Reported.map]
    rw [← ih]
    rfl

lemma dissolvable_withoutProse : sets.withoutProse.dissolvable = sets.dissolvable := by
  have hkept := Dictionary.mapValues_filter sets OverloadSet.withoutProse
    (p := fun entry => !entry.2.isSingle && entry.2.isIndistinguishable)
    (q := fun entry => !entry.2.isSingle && entry.2.isIndistinguishable) fun entry => by
      rw [OverloadSet.isSingle_withoutProse, OverloadSet.isIndistinguishable_withoutProse]
  rw [dissolvable, dissolvable, withoutProse, ← hkept, Dictionary.keys_mapValues]

lemma withoutProse_dissolveOne (base : String) :
    (sets.dissolveOne base).map withoutProse = sets.withoutProse.dissolveOne base := by
  have hfound : sets.withoutProse.get? base
      = (sets.get? base).map OverloadSet.withoutProse := sets.get?_mapValues _ base
  rw [dissolveOne, dissolveOne, hfound]
  rcases sets.get? base with _ | set
  · rfl
  · have herased : withoutProse (sets.erase base) = sets.withoutProse.erase base :=
      sets.mapValues_erase _ base
    simp only [Option.map_some, withoutProse_addSingles, herased,
      OverloadSet.prototypes_withoutProse]

lemma withoutProse_dissolveAll (bases : List String) :
    (sets.dissolveAll bases).map withoutProse = sets.withoutProse.dissolveAll bases := by
  induction bases generalizing sets with
  | nil => rfl
  | cons base rest ih =>
    rw [dissolveAll, dissolveAll, ← withoutProse_dissolveOne]
    dsimp only [Reported.map]
    rw [← ih]
    rfl

end OverloadSets

/-- Grouping does not read the prose. -/
lemma withoutProse_group (ps : List Prototype) :
    (group ps).map OverloadSets.withoutProse = group (ps.map Prototype.withoutProse) := by
  rw [group, group, ← OverloadSets.withoutProse_collect,
    ← OverloadSets.withoutProse_dropMismatched]
  dsimp only [Reported.map, OverloadSets.dissolve]
  rw [OverloadSets.dissolvable_withoutProse, ← OverloadSets.withoutProse_dissolveAll]
  rfl

/-! ## Analysis and synthesis -/

namespace OverloadSet

variable (s : OverloadSet)

lemma socketsAt_withoutProse (index : Nat) :
    s.withoutProse.socketsAt index = s.socketsAt index := by
  rw [socketsAt, socketsAt, prototypes_withoutProse, List.filterMap_map]
  rfl

lemma outputCategories_withoutProse :
    s.withoutProse.outputCategories = s.outputCategories := by
  rw [outputCategories, outputCategories, prototypes_withoutProse, List.map_map]
  rfl

/-- The analysis sees a set through its sockets and its outputs. -/
lemma analyze_withoutProse : s.withoutProse.analyze = s.analyze := by
  have hmixed : s.withoutProse.hasMixedRoles = s.hasMixedRoles :=
    funext fun index => by rw [hasMixedRoles, hasMixedRoles, socketsAt_withoutProse]
  have hname : s.withoutProse.inputName = s.inputName :=
    funext fun index => by rw [inputName, inputName, socketsAt_withoutProse]
  have hgeneric : s.withoutProse.genericPositions = s.genericPositions := by
    rw [genericPositions, genericPositions, outputCategories_withoutProse, arity_withoutProse]
    simp only [socketsAt_withoutProse]
  have hunlabelled : s.withoutProse.unlabelled = s.unlabelled := by
    rw [unlabelled, unlabelled, arity_withoutProse, hname]
    rfl
  have hposition : s.withoutProse.position = s.position :=
    funext fun index => by
      simp only [position, socketsAt_withoutProse, hname, hgeneric, hunlabelled]
  have hanalysis : s.withoutProse.analysis = s.analysis :=
    funext fun c => by
      rw [analysis, analysis, length_members_withoutProse, arity_withoutProse, hposition,
        hgeneric, outputCategories_withoutProse]
      rfl
  rw [analyze, analyze, outputCategories_withoutProse, arity_withoutProse, hmixed, hname,
    hanalysis]
  rfl

section Branches

variable (discriminating : List Nat) (earlier : List Branch)

/-- The branches come from the ids and the sockets. -/
lemma extendBranches_withoutProse (ps : List Prototype) :
    extendBranches discriminating earlier (ps.map Prototype.withoutProse)
      = extendBranches discriminating earlier ps := by
  induction ps generalizing earlier with
  | nil => rfl
  | cons p rest ih =>
    have hshadow : shadow? discriminating earlier p.withoutProse
        = shadow? discriminating earlier p := rfl
    rw [List.map_cons, extendBranches, extendBranches, hshadow]
    split
    · exact ih earlier
    · exact ih (earlier ++ [branch discriminating p])

lemma shadowReports_withoutProse (binding : String) (ps : List Prototype) :
    shadowReports binding discriminating earlier (ps.map Prototype.withoutProse)
      = shadowReports binding discriminating earlier ps := by
  induction ps generalizing earlier with
  | nil => rfl
  | cons p rest ih =>
    have hshadow : shadow? discriminating earlier p.withoutProse
        = shadow? discriminating earlier p := rfl
    rw [List.map_cons, shadowReports, shadowReports, hshadow]
    split
    · exact congrArg _ (ih earlier)
    · exact ih (earlier ++ [branch discriminating p])

end Branches

lemma docLines_withoutProse : s.withoutProse.docLines = [] := by
  have hdisplay : s.withoutProse.prototypes.findSome? (·.displayName?) = none := by
    rw [prototypes_withoutProse, List.findSome?_map]
    exact List.findSome?_eq_none_iff.2 fun p _ => rfl
  have hdescription : s.withoutProse.prototypes.findSome? (·.description?) = none := by
    rw [prototypes_withoutProse, List.findSome?_map]
    exact List.findSome?_eq_none_iff.2 fun p _ => rfl
  rw [docLines, hdisplay, hdescription]
  rfl

lemma declaredAvailability_withoutProse :
    s.withoutProse.declaredAvailability = s.declaredAvailability := by
  rw [declaredAvailability, declaredAvailability, prototypes_withoutProse, List.filterMap_map]
  rfl

variable (a : Analysis) (enums : EnumRegistry) (strict : Bool)

/-- The parameters depend on the positions and the name of the set only. -/
lemma params_withoutProse (positions : List Position) :
    s.withoutProse.params a enums positions = s.params a enums positions := by
  induction positions with
  | nil => rfl
  | cons p rest ih =>
    rw [params, params, ih]
    rfl

lemma assemble_withoutProse (params : List Param) :
    s.withoutProse.assemble a params = (s.assemble a params).withoutDoc := by
  rw [assemble, assemble, docLines_withoutProse, arity_withoutProse, isSingle_withoutProse,
    declaredAvailability_withoutProse, prototypes_withoutProse, extendBranches_withoutProse]
  rfl

lemma dispatchReports_withoutProse :
    s.withoutProse.dispatchReports a strict = s.dispatchReports a strict := by
  have havailability := s.declaredAvailability_withoutProse
  rw [dispatchReports, dispatchReports, discriminatorReport, discriminatorReport,
    length_members_withoutProse, prototypes_withoutProse, shadowReports_withoutProse,
    availabilityReport, availabilityReport, havailability]
  rfl

lemma withoutDoc_synthesize : (s.synthesize a enums strict).map (Except.map Binding.withoutDoc)
    = s.withoutProse.synthesize a enums strict := by
  have hbase : s.withoutProse.baseName = s.baseName := rfl
  rw [synthesize, synthesize, params_withoutProse, dispatchReports_withoutProse, hbase]
  split_ifs
  · rcases hparams : (s.params a enums a.positions).value with fault | params
    · simp only [hparams]
      rfl
    · simp only [hparams, assemble_withoutProse]
      rfl
  · rfl

end OverloadSet

/-! ## Runs -/

namespace Session

section Bindings

variable (strict : Bool) (enums : EnumRegistry)

lemma withoutDoc_bindingOf (set : OverloadSet) :
    (bindingOf strict enums set).map (Except.map Binding.withoutDoc)
      = bindingOf strict enums set.withoutProse := by
  rw [bindingOf, bindingOf, OverloadSet.analyze_withoutProse]
  rcases set.analyze.value with fault | analysis
  · rfl
  · dsimp only
    rw [← OverloadSet.withoutDoc_synthesize]
    rfl

lemma withoutDoc_addBinding (bindings : List Binding) (set : OverloadSet) :
    (addBinding strict enums bindings set).map (List.map Binding.withoutDoc)
      = addBinding strict enums (bindings.map Binding.withoutDoc) set.withoutProse := by
  rw [addBinding, addBinding, ← withoutDoc_bindingOf]
  rcases hmade : (bindingOf strict enums set).value with fault | b
  · simp only [Reported.map, hmade, Except.map]
    rfl
  · have hfirst : (bindings.map Binding.withoutDoc).find? (fun first => first.name = b.name)
        = (bindings.find? fun first => first.name = b.name).map Binding.withoutDoc :=
      List.find?_map
    simp only [Reported.map, hmade, Except.map]
    rw [show b.withoutDoc.name = b.name from rfl, hfirst]
    rcases hfound : bindings.find? fun first => first.name = b.name with _ | first
    · simp only [hfound, Option.map_none, List.map_append, List.map_cons, List.map_nil]
    · simp only [hfound, Option.map_some]
      rfl

lemma withoutDoc_addBindings (bindings : List Binding) (sets : List OverloadSet) :
    (addBindings strict enums bindings sets).map (List.map Binding.withoutDoc)
      = addBindings strict enums (bindings.map Binding.withoutDoc)
        (sets.map OverloadSet.withoutProse) := by
  induction sets generalizing bindings with
  | nil => rfl
  | cons set rest ih =>
    rw [List.map_cons, addBindings, addBindings, ← withoutDoc_addBinding]
    dsimp only [Reported.map]
    rw [← ih]
    rfl

end Bindings

variable (s : Session)

lemma synthesizeAll_withoutProse (sets : OverloadSets) : s.synthesizeAll sets.withoutProse
    = ((s.synthesizeAll sets).1.withoutDocs, (s.synthesizeAll sets).2) := by
  have hvalues : Dictionary.values sets.withoutProse
      = (Dictionary.values sets).map OverloadSet.withoutProse := Dictionary.values_mapValues sets _
  have hall := withoutDoc_addBindings s.strict s.ledger.enums [] sets.values
  rw [List.map_nil] at hall
  simp only [synthesizeAll, hvalues, ← hall]
  rfl

lemma buildOverloads_withoutProse (ps : List Prototype) :
    s.buildOverloads (ps.map Prototype.withoutProse)
      = ((s.buildOverloads ps).1.withoutProse, (s.buildOverloads ps).2) := by
  rw [buildOverloads, ← withoutProse_group]
  rfl

/-- Prototypes that differ in prose give modules that differ in comments. -/
lemma synthesizeAll_alike {ps qs : List Prototype}
    (h : ps.map Prototype.withoutProse = qs.map Prototype.withoutProse) :
    (((s.buildOverloads ps).2.synthesizeAll (s.buildOverloads ps).1).1.withoutDocs,
        ((s.buildOverloads ps).2.synthesizeAll (s.buildOverloads ps).1).2)
      = (((s.buildOverloads qs).2.synthesizeAll (s.buildOverloads qs).1).1.withoutDocs,
        ((s.buildOverloads qs).2.synthesizeAll (s.buildOverloads qs).1).2) := by
  have hbuilt := s.buildOverloads_withoutProse ps
  rw [h, buildOverloads_withoutProse] at hbuilt
  obtain ⟨hsets, hsession⟩ := Prod.mk.inj hbuilt
  rw [← synthesizeAll_withoutProse, ← synthesizeAll_withoutProse, hsets, hsession]

/-- **A run does not read the prose.**  The runs over two stages that are alike end in the same
error, or in modules that differ in comments alone, and in the same session. -/
lemma run_alike {a b : Schema.Stage} (h : a.Alike b)
    (descriptions descriptions' : Schema.Descriptions) :
    ((s.run a descriptions).1.map BindingModule.withoutDocs, (s.run a descriptions).2)
      = ((s.run b descriptions').1.map BindingModule.withoutDocs, (s.run b descriptions').2) := by
  obtain ⟨hloaded, hledger⟩ := Prod.mk.inj (loadPrims_alike descriptions descriptions' h s.ledger)
  rw [run, run, loadStage, loadStage]
  rcases ha : loadPrims descriptions a.nodes s.ledger with ⟨found, l⟩
  rcases hb : loadPrims descriptions' b.nodes s.ledger with ⟨found', l'⟩
  rw [ha, hb] at hloaded hledger
  obtain rfl : l = l' := hledger
  rcases map_eq_map_cases hloaded with ⟨e, rfl, rfl⟩ | ⟨ps, qs, rfl, rfl, hsame⟩
  · rfl
  · obtain ⟨hmodule, hsession⟩ := Prod.mk.inj (synthesizeAll_alike ⟨s.strict, l⟩ hsame)
    exact Prod.ext (congrArg Except.ok hmodule) hsession

end Session

end ShaderBindings
