/-
# What loading depends on

Loading goes through the nodes one by one and hands a ledger on.  What it makes of a node still
depends on the node alone, but for the enumerations: a node declares those of its sockets, and each
socket gets the category that the last registry has for its members (`Draft.settled`).

So a stage that loads is described without the ledger on the way (`loadPrims_eq_ok`): the registry
is that of all declarations in order, the diagnostics are those on the declarations and those on the
types of the single nodes, and the prototypes are the drafts, settled in the registry.
-/
import ShaderBindings.Proofs.Admission
import ShaderBindings.Proofs.Fault
import ShaderBindings.Overload.Suffix

namespace ShaderBindings

open scoped List

/-! ## Declarations of a draft -/

namespace DraftSocket

/-- The enumeration that a socket of `node` declares. -/
def declaration? (node : String) (p : DraftSocket) : Option EnumDeclaration :=
  p.annotations.members?.map fun members => ⟨node, members⟩

/-- The report on the type of a socket of `node` that declares no enumeration. -/
def typeReport (node : String) (p : DraftSocket) : Diagnostics :=
  if p.annotations.members?.isSome then []
  else (categoryAt node p.name p.dataType).diagnostics

/-- The socket with the category that a registry has for it. -/
def settled (r : EnumRegistry) (p : DraftSocket) : Socket :=
  p.withCategory
    (match p.annotations.members? with
    | some members =>
      .enumerated ((r.byKey.get? (EnumRegistry.structuralKey members)).getD 0)
    | none => DataType.category p.dataType)

end DraftSocket

namespace Draft

/-- The sockets in the order in which they are resolved. -/
def sockets (d : Draft) : List DraftSocket := d.inputs ++ [d.output]

def declarations (d : Draft) : List EnumDeclaration := d.sockets.filterMap (·.declaration? d.id)

def typeReports (d : Draft) : Diagnostics := d.sockets.flatMap (·.typeReport d.id)

/-- The prototype of a draft under a registry that has all its enumerations. -/
def settled (descriptions : Schema.Descriptions) (r : EnumRegistry) (d : Draft) : Prototype where
  id := d.id
  name := bareName d.id
  inputs := d.inputs.map (·.settled r)
  output := d.output.settled r
  description? := (descriptions.get? d.id).bind cleanDescription?
  displayName? := d.annotations.displayName?
  availability? := d.annotations.availability?

end Draft

/-- The draft of a prim that is neither refused nor left out. -/
def Schema.Prim.draft? (prim : Schema.Prim) : Option Draft :=
  (ShaderBindings.draft? prim).toOption.join

/-- The prim is not refused, though it may be left out. -/
def Schema.Prim.Accepted (prim : Schema.Prim) : Prop :=
  ∃ found, ShaderBindings.draft? prim = .ok found

/-- A ledger grows by some declarations and by some reports on types. -/
structure Ledger.Grows (l l' : Ledger) (declarations : List EnumDeclaration)
    (reports : Diagnostics) : Prop where
  enums : l'.enums = (l.enums.declareAll declarations).value
  diagnostics : l'.diagnostics
    ~ l.diagnostics ++ ((l.enums.declareAll declarations).diagnostics ++ reports)

section Growth

variable {l l' l'' : Ledger} {declarations declarations' : List EnumDeclaration}
  {reports reports' : Diagnostics}

lemma Ledger.Grows.refl (l : Ledger) : l.Grows l [] [] where
  enums := rfl
  diagnostics := by simp [EnumRegistry.declareAll]

lemma Ledger.Grows.trans (h : l.Grows l' declarations reports)
    (h' : l'.Grows l'' declarations' reports') :
    l.Grows l'' (declarations ++ declarations') (reports ++ reports') where
  enums := by rw [h'.enums, h.enums, EnumRegistry.declareAll_append]
  diagnostics := by
    rw [EnumRegistry.declareAll_append, ← h.enums]
    calc l''.diagnostics
        ~ l'.diagnostics ++ ((l'.enums.declareAll declarations').diagnostics ++ reports') :=
          h'.diagnostics
      _ ~ l.diagnostics ++ ((l.enums.declareAll declarations).diagnostics ++ reports)
            ++ ((l'.enums.declareAll declarations').diagnostics ++ reports') :=
          h.diagnostics.append_right _
      _ = l.diagnostics ++ ((l.enums.declareAll declarations).diagnostics
            ++ (reports ++ ((l'.enums.declareAll declarations').diagnostics ++ reports'))) := by
          simp only [List.append_assoc]
      _ ~ l.diagnostics ++ ((l.enums.declareAll declarations).diagnostics
            ++ ((l'.enums.declareAll declarations').diagnostics ++ (reports ++ reports'))) :=
          ((List.perm_append_comm_assoc _ _ _).append_left _).append_left _
      _ = l.diagnostics ++ ((l.enums.declareAll declarations).diagnostics
            ++ (l'.enums.declareAll declarations').diagnostics ++ (reports ++ reports')) := by
          simp only [List.append_assoc]

lemma Ledger.Grows.keeps (h : l.Grows l' declarations reports) :
    l'.enums.Extends l.enums := by
  rw [h.enums]
  exact EnumRegistry.extends_declareAll _ _

end Growth

/-! ## Categories in the last registry -/

/-- A declaration whose key leads to a number leaves the registry as it is and reports nothing. -/
lemma EnumRegistry.declare_of_get?_byKey {r : EnumRegistry} {node : String}
    {members : List String} {id : Nat} (h : r.byKey.get? (structuralKey members) = some id) :
    r.declare node members = ⟨(.enumerated id, r), []⟩ := by
  rw [declare, h]

namespace DraftSocket

lemma grows_resolve (node : String) (p : DraftSocket) (l : Ledger) :
    l.Grows (p.resolve node l).2 (p.declaration? node).toList (p.typeReport node) := by
  rw [resolve, declaration?, typeReport]
  rcases p.annotations.members? with _ | members
  · exact ⟨rfl, by simp [Ledger.report, EnumRegistry.declareAll]⟩
  · exact ⟨rfl, by simp [EnumRegistry.declareAll]⟩

/-- The socket has the category of every later registry. -/
lemma resolve_eq_settled (node : String) (p : DraftSocket) (l : Ledger) {r : EnumRegistry}
    (hr : r.Extends (p.resolve node l).2.enums) :
    (p.resolve node l).1 = p.settled r := by
  rw [resolve] at hr ⊢
  rw [settled]
  rcases hmembers : p.annotations.members? with _ | members
  · rfl
  · obtain ⟨id, hcategory, hid⟩ := l.enums.exists_get?_byKey_declare node members
    rw [hmembers] at hr
    have hlater := hr.byKey _ _ hid
    simp only [hcategory, hlater, Option.getD_some]

lemma grows_resolveAll (node : String) (sockets : List DraftSocket) (l : Ledger) :
    l.Grows (resolveAll node sockets l).2 (sockets.filterMap (·.declaration? node))
      (sockets.flatMap (·.typeReport node)) := by
  induction sockets generalizing l with
  | nil => exact Ledger.Grows.refl l
  | cons p rest ih =>
    have hcons : (p :: rest).filterMap (·.declaration? node)
        = (p.declaration? node).toList ++ rest.filterMap (·.declaration? node) := by
      rw [List.filterMap_cons]
      rcases p.declaration? node with _ | d
      · rfl
      · rfl
    rw [resolveAll_cons, hcons, List.flatMap_cons]
    exact (grows_resolve node p l).trans (ih _)

lemma resolveAll_eq_settled (node : String) (sockets : List DraftSocket) (l : Ledger)
    {r : EnumRegistry} (hr : r.Extends (resolveAll node sockets l).2.enums) :
    (resolveAll node sockets l).1 = sockets.map (·.settled r) := by
  induction sockets generalizing l with
  | nil => rfl
  | cons p rest ih =>
    rw [resolveAll_cons] at hr ⊢
    have hfirst := hr.trans (grows_resolveAll node rest (p.resolve node l).2).keeps
    rw [List.map_cons, resolve_eq_settled node p l hfirst, ih _ hr]

end DraftSocket

/-! ## Drafts -/

lemma Draft.grows_resolve (d : Draft) (descriptions : Schema.Descriptions) (l : Ledger) :
    l.Grows (d.resolve descriptions l).2 d.declarations d.typeReports := by
  have hinputs := DraftSocket.grows_resolveAll d.id d.inputs l
  have hall := hinputs.trans
    (DraftSocket.grows_resolve d.id d.output (DraftSocket.resolveAll d.id d.inputs l).2)
  have hdeclarations : d.declarations = d.inputs.filterMap (·.declaration? d.id)
      ++ (d.output.declaration? d.id).toList := by
    rw [declarations, sockets, List.filterMap_append]
    rcases houtput : d.output.declaration? d.id with _ | e
    · simp [houtput]
    · simp [houtput]
  have hreports : d.typeReports
      = d.inputs.flatMap (·.typeReport d.id) ++ d.output.typeReport d.id := by
    simp [typeReports, sockets]
  rw [hdeclarations, hreports]
  exact hall

lemma Draft.resolve_eq_settled (d : Draft) (descriptions : Schema.Descriptions) (l : Ledger)
    {r : EnumRegistry} (hr : r.Extends (d.resolve descriptions l).2.enums) :
    (d.resolve descriptions l).1 = d.settled descriptions r := by
  have houtput := DraftSocket.resolve_eq_settled d.id d.output
    (DraftSocket.resolveAll d.id d.inputs l).2 hr
  have hinputs := DraftSocket.resolveAll_eq_settled d.id d.inputs l
    (hr.trans (DraftSocket.grows_resolve d.id d.output _).keeps)
  rw [resolve, settled, ← hinputs, ← houtput]

lemma draft?_eq_ok_of_mem {prim : Schema.Prim} {d : Draft} (h : d ∈ prim.draft?) :
    draft? prim = .ok (some d) := by
  rw [Option.mem_def, Schema.Prim.draft?] at h
  rcases hdraft : draft? prim with e | found
  · simp [hdraft, Except.toOption] at h
  · rw [hdraft] at h
    exact congrArg Except.ok h

/-- A draft keeps the name of its prim. -/
lemma id_of_draft? {prim : Schema.Prim} {d : Draft} (h : d ∈ prim.draft?) : d.id = prim.name := by
  obtain ⟨annotations, sockets, -, -, hassembled⟩ := exists_of_draft? (draft?_eq_ok_of_mem h)
  exact hassembled.id

/-! ## Stages -/

/-- The base of the name that a prim has as a node. -/
def Schema.Prim.base (prim : Schema.Prim) : String := (splitSuffix (bareName prim.name)).1

/-- The drafts of the prims that are neither refused nor left out. -/
def drafts (prims : List Schema.Prim) : List Draft := prims.filterMap Schema.Prim.draft?

namespace Session

variable {descriptions : Schema.Descriptions} {prims : List Schema.Prim} {l l' : Ledger}
  {ps : List Prototype}

/-- Loading succeeds when no prim is refused. -/
lemma exists_loadPrims (h : ∀ prim ∈ prims, prim.Accepted) (descriptions : Schema.Descriptions)
    (l : Ledger) : ∃ ps l', loadPrims descriptions prims l = (.ok ps, l') := by
  induction prims generalizing l with
  | nil => exact ⟨[], l, rfl⟩
  | cons prim rest ih =>
    rw [List.forall_mem_cons] at h
    obtain ⟨found, hfound⟩ := h.1
    rcases found with _ | d
    · obtain ⟨ps, l', hrest⟩ := ih h.2 l
      refine ⟨ps, l', ?_⟩
      rw [loadPrims, load, hfound]
      exact hrest
    · obtain ⟨ps, l', hrest⟩ := ih h.2 (d.resolve descriptions l).2
      refine ⟨(d.resolve descriptions l).1 :: ps, l', ?_⟩
      rw [loadPrims, load, hfound]
      simp only [hrest]

/-- **Loading depends on the single nodes and on the order of the declarations.** -/
lemma loadPrims_eq_ok (h : loadPrims descriptions prims l = (.ok ps, l')) :
    (∀ prim ∈ prims, prim.Accepted) ∧
      l.Grows l' ((drafts prims).flatMap Draft.declarations)
        ((drafts prims).flatMap Draft.typeReports) ∧
      ∀ r : EnumRegistry, r.Extends l'.enums →
        ps = (drafts prims).map (Draft.settled descriptions r) := by
  induction prims generalizing l l' ps with
  | nil =>
    obtain ⟨hps, rfl⟩ := Prod.mk.inj h
    obtain rfl := Except.ok.inj hps
    exact ⟨fun prim hprim => absurd hprim List.not_mem_nil, Ledger.Grows.refl l, fun _ _ => rfl⟩
  | cons prim rest ih =>
    rw [loadPrims, load] at h
    rcases hdraft : draft? prim with e | _ | d
    -- the prim is refused
    · simp only [hdraft] at h
      exact absurd (Prod.mk.inj h).1 (by simp)
    -- the prim is left out
    · simp only [hdraft] at h
      obtain ⟨haccepted, hgrows, hsettled⟩ := ih h
      have hrest : drafts (prim :: rest) = drafts rest := by
        simp [drafts, Schema.Prim.draft?, hdraft, Except.toOption]
      rw [hrest]
      exact ⟨List.forall_mem_cons.2 ⟨⟨_, hdraft⟩, haccepted⟩, hgrows, hsettled⟩
    -- the prim gives a prototype
    · simp only [hdraft] at h
      have hcons : drafts (prim :: rest) = d :: drafts rest := by
        simp [drafts, Schema.Prim.draft?, hdraft, Except.toOption]
      rcases hload : loadPrims descriptions rest (d.resolve descriptions l).2 with ⟨e | others, l₂⟩
      · simp only [hload] at h
        exact absurd (Prod.mk.inj h).1 (by simp)
      · simp only [hload] at h
        obtain ⟨hps, rfl⟩ := Prod.mk.inj h
        obtain rfl := Except.ok.inj hps
        obtain ⟨haccepted, hgrows, hsettled⟩ := ih hload
        rw [hcons]
        refine ⟨List.forall_mem_cons.2 ⟨⟨_, hdraft⟩, haccepted⟩,
          (d.grows_resolve descriptions l).trans hgrows, fun r hr => ?_⟩
        rw [List.map_cons, ← hsettled r hr,
          d.resolve_eq_settled descriptions l (hr.trans hgrows.keeps)]

/-- A loaded prototype has the name, and so the base, of a prim. -/
lemma exists_prim_of_mem (h : loadPrims descriptions prims l = (.ok ps, l')) {p : Prototype}
    (hp : p ∈ ps) : ∃ prim ∈ prims, (splitSuffix p.name).1 = prim.base := by
  obtain ⟨-, -, hsettled⟩ := loadPrims_eq_ok h
  rw [hsettled l'.enums (.refl _)] at hp
  obtain ⟨d, hd, rfl⟩ := List.mem_map.1 hp
  obtain ⟨prim, hprim, hdraft⟩ := List.mem_filterMap.1 hd
  refine ⟨prim, hprim, ?_⟩
  rw [Schema.Prim.base, ← id_of_draft? hdraft, Draft.settled]

/-- Loading more prims goes on where the loading of the first ones ends. -/
lemma exists_of_loadPrims_append {more : List Schema.Prim} {rs : List Prototype}
    (h : loadPrims descriptions (prims ++ more) l = (.ok rs, l')) :
    ∃ ps l₁ qs, loadPrims descriptions prims l = (.ok ps, l₁) ∧
      loadPrims descriptions more l₁ = (.ok qs, l') ∧ rs = ps ++ qs := by
  induction prims generalizing l rs with
  | nil => exact ⟨[], l, rs, rfl, h, rfl⟩
  | cons prim rest ih =>
    rw [List.cons_append, loadPrims] at h
    rw [loadPrims]
    rcases hload : load prim descriptions l with ⟨e | _ | p, l₂⟩
    · simp only [hload] at h
      exact absurd (Prod.mk.inj h).1 (by simp)
    · simp only [hload] at h
      exact ih h
    · simp only [hload] at h ⊢
      rcases hrest : loadPrims descriptions (rest ++ more) l₂ with ⟨e | others, l₃⟩
      · simp only [hrest] at h
        exact absurd (Prod.mk.inj h).1 (by simp)
      · simp only [hrest] at h
        obtain ⟨hrs, rfl⟩ := Prod.mk.inj h
        obtain rfl := Except.ok.inj hrs
        obtain ⟨ps, l₁, qs, hps, hqs, rfl⟩ := ih hrest
        exact ⟨p :: ps, l₁, qs, by rw [hps], hqs, rfl⟩

lemma loadPrims_of_loadStage {s s' : Session} {stage : Schema.Stage}
    {found : Except InvalidMetadata (List Prototype)}
    (h : s.loadStage stage descriptions = (found, s')) :
    loadPrims descriptions stage.nodes s.ledger = (found, s'.ledger) := by
  obtain ⟨hfound, rfl⟩ := Prod.mk.inj h
  exact Prod.ext hfound rfl

end Session

end ShaderBindings
