/-
# Free text in bindings

A binding is that of an overload set, and the members of the set are nodes of the stage
(`exists_members_of_run`).  Two parts of it are free text of the schema, which goes through a run
unchanged: the names of the parameters, which are the names of the inputs of the first node
(`exists_prim_of_names`), and the comment, which consists of display names and descriptions of the
nodes (`exists_prim_of_mem_doc`).
-/
import ShaderBindings.Proofs.Declarations
import ShaderBindings.Proofs.Codegen
import ShaderBindings.Proofs.Grouping
import ShaderBindings.Proofs.Metadata
import ShaderBindings.Proofs.Synthesis

namespace ShaderBindings

open Fault

/-! ## What a prim says of its node -/

/-- The bare name of a property that is an input. -/
def Schema.Property.inputName? (p : Schema.Property) : Option String :=
  match Direction.ofName? p.name with
  | some (.input, name) => some name
  | _ => none

/-- The vendor supports the property. -/
def Schema.Property.isSupported (p : Schema.Property) : Bool :=
  match Annotations.ofMetadata? p.metadata with
  | .ok annotations => !annotations.unsupported
  | .error _ => false

/-- The names of the inputs that a prim has as a node. -/
def Schema.Prim.inputNames (prim : Schema.Prim) : List String :=
  (prim.properties.filter Schema.Property.isSupported).filterMap Schema.Property.inputName?

/-- The name that a prim has for readers. -/
def Schema.Prim.displayName? (prim : Schema.Prim) : Option String :=
  match Annotations.ofMetadata? prim.metadata with
  | .ok annotations => annotations.displayName?
  | .error _ => none

section Drafts

variable {prim : Schema.Prim} {d : Draft}

/-- The drafts of the inputs are those of the supported properties that are inputs. -/
lemma inputs_of_draftSockets? {node : String} {properties : List Schema.Property}
    {sockets : List DraftSocket} (h : draftSockets? node properties = .ok sockets) :
    (DraftSocket.ofDirection .input sockets).map (·.name)
      = (properties.filter Schema.Property.isSupported).filterMap
          Schema.Property.inputName? := by
  induction properties generalizing sockets with
  | nil =>
    obtain rfl := Except.ok.inj h
    rfl
  | cons p rest ih =>
    rw [draftSockets?] at h
    rcases hname : Direction.ofName? p.name with _ | ⟨direction, name⟩
    -- the property is no socket
    · have hinput : p.inputName? = none := by rw [Schema.Property.inputName?, hname]
      rw [hname] at h
      rw [ih h, List.filter_cons]
      split_ifs
      · rw [List.filterMap_cons_none hinput]
      · rfl
    -- the property is a socket
    · rw [hname] at h
      obtain ⟨socket, hsocket, h⟩ := bind_eq_ok_iff.1 h
      obtain ⟨others, hothers, h⟩ := bind_eq_ok_iff.1 h
      obtain ⟨annotations, hannotations, hsocket⟩ := bind_eq_ok_iff.1 hsocket
      obtain ⟨default, -, hsocket⟩ := bind_eq_ok_iff.1 hsocket
      obtain rfl := Except.ok.inj hsocket
      have hsupported : p.isSupported = !annotations.unsupported := by
        rw [Schema.Property.isSupported, annotations?_eq_ok_iff.1 hannotations]
      obtain rfl := Except.ok.inj h
      rcases hunsupported : annotations.unsupported with _ | _
      · rw [List.filter_cons_of_pos (by rw [hsupported, hunsupported]; rfl)]
        cases direction with
        | input =>
          have hinput : p.inputName? = some name := by rw [Schema.Property.inputName?, hname]
          rw [List.filterMap_cons_some hinput, ← ih hothers]
          rfl
        | output =>
          have hinput : p.inputName? = none := by rw [Schema.Property.inputName?, hname]
          rw [List.filterMap_cons_none hinput, ← ih hothers]
          rfl
      · rw [List.filter_cons_of_neg (by rw [hsupported, hunsupported]; decide)]
        exact ih hothers

/-- The inputs of a draft have the names that its prim gives them. -/
lemma inputs_of_draft? (h : d ∈ prim.draft?) : d.inputs.map (·.name) = prim.inputNames := by
  obtain ⟨annotations, sockets, -, hsockets, hassembled⟩ :=
    exists_of_draft? (draft?_eq_ok_of_mem h)
  rw [hassembled.inputs]
  exact inputs_of_draftSockets? hsockets

lemma displayName?_of_draft? (h : d ∈ prim.draft?) :
    d.annotations.displayName? = prim.displayName? := by
  obtain ⟨annotations, sockets, hannotations, -, hassembled⟩ :=
    exists_of_draft? (draft?_eq_ok_of_mem h)
  rw [hassembled.annotations, Schema.Prim.displayName?, annotations?_eq_ok_iff.1 hannotations]

end Drafts

/-! ## Bindings of sets -/

namespace OverloadSet

variable {s : OverloadSet} {first : Prototype} {rest : List Prototype}

lemma arity_eq (h : s.prototypes = first :: rest) : s.arity = first.inputs.length := by
  obtain ⟨base, _ | ⟨m, members⟩⟩ := s
  · exact absurd h (by simp [prototypes])
  · obtain ⟨rfl, -⟩ := List.cons.inj h
    rfl

/-- The first member gives the names of the parameters. -/
lemma names_made (h : s.prototypes = first :: rest) (enums : EnumRegistry) :
    (s.made enums).names = first.inputs.map (·.name) := by
  have hnames : (s.made enums).names = (List.range s.arity).map s.inputName := by
    simp only [made, params_binding, Binding.names, analysis, List.map_map]
    rfl
  rw [hnames, arity_eq h]
  refine List.ext_getElem (by simp) fun index hindex _ => ?_
  have hlt : index < first.inputs.length := by simpa using hindex
  have hsocket : first.inputs[index]? = some first.inputs[index] := List.getElem?_eq_getElem hlt
  have hname : s.inputName index = first.inputs[index].name := by
    rw [inputName, socketsAt, h,
      List.filterMap_cons_some (f := fun p : Prototype => p.inputs[index]?) hsocket]
    rfl
  rw [List.getElem_map, List.getElem_map, List.getElem_range, hname]

/-- The first member is the first node that a binding stands for. -/
lemma head?_nodeIds_made (h : s.prototypes = first :: rest) (enums : EnumRegistry) :
    (s.made enums).nodeIds.head? = some first.id := by
  rw [Binding.nodeIds, made, branches_binding, h]
  rfl

/-- The comment consists of a display name and a description of the members. -/
lemma mem_docLines {line : String} (h : line ∈ s.docLines) :
    ∃ p ∈ s.prototypes, p.displayName? = some line ∨ p.description? = some line := by
  rw [docLines, List.mem_append, Option.mem_toList, Option.mem_toList] at h
  rcases h with h | h
  · obtain ⟨p, hp, hline⟩ := List.exists_of_findSome?_eq_some h
    exact ⟨p, hp, Or.inl hline⟩
  · obtain ⟨p, hp, hline⟩ := List.exists_of_findSome?_eq_some h
    exact ⟨p, hp, Or.inr hline⟩

end OverloadSet

/-! ## Runs -/

/-- What a loaded prototype has from its prim and from the table of descriptions. -/
structure Prototype.Tells (descriptions : Schema.Descriptions) (prim : Schema.Prim)
    (p : Prototype) : Prop where
  id : p.id = prim.name
  inputs : p.inputs.map (·.name) = prim.inputNames
  displayName? : p.displayName? = prim.displayName?
  description? : p.description? = (descriptions.get? prim.name).bind cleanDescription?

lemma Draft.tells_settled {prim : Schema.Prim} {d : Draft} (h : d ∈ prim.draft?)
    (descriptions : Schema.Descriptions) (r : EnumRegistry) :
    (d.settled descriptions r).Tells descriptions prim where
  id := id_of_draft? h
  inputs := by
    rw [settled, List.map_map, ← inputs_of_draft? h]
    rfl
  displayName? := displayName?_of_draft? h
  description? := by rw [settled, id_of_draft? h]

section Runs

variable {stage : Schema.Stage} {descriptions : Schema.Descriptions} {s s' : Session}
  {m : BindingModule} {b : Binding}

/-- The bindings of a run are those of sets of nodes. -/
lemma exists_members_of_run (hrun : s.run stage descriptions = (.ok m, s'))
    (hb : b ∈ m.bindings) :
    ∃ set r, b = OverloadSet.made set r ∧ set.members ≠ [] ∧
      ∀ p ∈ set.prototypes, ∃ prim ∈ stage.nodes, p.Tells descriptions prim := by
  obtain ⟨ps, s₁, hload, rfl, rfl⟩ := Session.exists_loadStage_of_run hrun
  obtain ⟨-, -, hsettled⟩ := Session.loadPrims_eq_ok (Session.loadPrims_of_loadStage hload)
  have hsets : ∀ set ∈ (group ps).value.values, set.members ≠ [] :=
    fun set hset => (uniform_of_mem_values hset).1.nonempty
  obtain ⟨set, hset, rfl⟩ := Session.exists_made_of_mem hsets hb
  refine ⟨set, _, rfl, hsets set hset, fun p hp => ?_⟩
  have hmem := (uniform_of_mem_values hset).2 p hp
  rw [hsettled s₁.ledger.enums (.refl _)] at hmem
  obtain ⟨d, hd, rfl⟩ := List.mem_map.1 hmem
  obtain ⟨prim, hprim, hdraft⟩ := List.mem_filterMap.1 hd
  exact ⟨prim, hprim, Draft.tells_settled hdraft _ _⟩

/-- The first node that a binding stands for gives the names of the parameters. -/
lemma exists_prim_of_names (hrun : s.run stage descriptions = (.ok m, s'))
    (hb : b ∈ m.bindings) :
    ∃ prim ∈ stage.nodes, b.nodeIds.head? = some prim.name ∧ b.names = prim.inputNames := by
  obtain ⟨set, r, rfl, hne, hmembers⟩ := exists_members_of_run hrun hb
  obtain ⟨first, rest, hcons⟩ : ∃ first rest, set.prototypes = first :: rest :=
    List.exists_cons_of_ne_nil (by simpa [OverloadSet.prototypes] using hne)
  obtain ⟨prim, hprim, htells⟩ := hmembers first (hcons ▸ List.mem_cons_self)
  refine ⟨prim, hprim, ?_, ?_⟩
  · rw [OverloadSet.head?_nodeIds_made hcons, htells.id]
  · rw [OverloadSet.names_made hcons, htells.inputs]

/-- The comment of a binding consists of display names and descriptions of nodes. -/
lemma exists_prim_of_mem_doc (hrun : s.run stage descriptions = (.ok m, s'))
    (hb : b ∈ m.bindings) {line : String} (hline : line ∈ b.doc) :
    ∃ prim ∈ stage.nodes, prim.displayName? = some line ∨
      (descriptions.get? prim.name).bind cleanDescription? = some line := by
  obtain ⟨set, r, rfl, -, hmembers⟩ := exists_members_of_run hrun hb
  obtain ⟨p, hp, hprose⟩ := OverloadSet.mem_docLines hline
  obtain ⟨prim, hprim, htells⟩ := hmembers p hp
  rw [htells.displayName?, htells.description?] at hprose
  exact ⟨prim, hprim, hprose⟩

end Runs

end ShaderBindings
