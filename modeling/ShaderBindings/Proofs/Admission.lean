/-
# Loading adds to the ledger

The ledger of a run only grows while nodes are loaded: new enumerations are registered behind the
old ones, and new diagnostics are reported behind the old ones.  Of the diagnostics, loading makes
two kinds only, for types outside the tables and for enumerations without a name.  Every
enumeration that a loaded prototype mentions is registered, and stays so.
-/
import Mathlib.Data.List.Infix
import ShaderBindings.Proofs.Fault
import ShaderBindings.Proofs.Registry
import ShaderBindings.Session

namespace ShaderBindings

/-- The diagnostic is of a kind that loading reports. -/
inductive Diagnostic.IsAdmission : Diagnostic → Prop where
  /-- A type is outside the tables. -/
  | unknownType (node property typeName : String) :
      IsAdmission (.unknownSchemaType node property typeName)
  /-- An enumeration has no established name. -/
  | unnamed (node : String) (members : List String) (name : String) :
      IsAdmission (.unnamedEnum node members name)

/-! ## Drafts -/

/-- What a draft takes over when it is assembled. -/
structure Draft.AssembledFrom (d : Draft) (id : String) (annotations : Annotations)
    (sockets : List DraftSocket) : Prop where
  id : d.id = id
  inputs : d.inputs = DraftSocket.ofDirection .input sockets
  annotations : d.annotations = annotations

lemma assembledFrom_of_assemble? {id : String} {annotations : Annotations}
    {sockets : List DraftSocket} {d : Draft} (h : assemble? id annotations sockets = some d) :
    d.AssembledFrom id annotations sockets := by
  rw [assemble?] at h
  split at h
  · split_ifs at h
    obtain rfl := Option.some.inj h
    exact ⟨rfl, rfl, rfl⟩
  · exact absurd h (by simp)

/-- A draft is assembled from the annotations and the sockets of its prim. -/
lemma exists_of_draft? {prim : Schema.Prim} {d : Draft} (h : draft? prim = .ok (some d)) :
    ∃ annotations sockets,
      annotations? prim.name "<prim>" prim.metadata = .ok annotations ∧
      draftSockets? prim.name prim.properties = .ok sockets ∧
      d.AssembledFrom prim.name annotations sockets := by
  unfold draft? at h
  split at h
  · exact absurd (Except.ok.inj h) (by simp)
  · obtain ⟨annotations, hannotations, h⟩ := Fault.bind_eq_ok_iff.1 h
    split_ifs at h
    · exact absurd (Except.ok.inj h) (by simp)
    · exact absurd (Except.ok.inj h) (by simp)
    · obtain ⟨sockets, hsockets, h⟩ := Fault.bind_eq_ok_iff.1 h
      exact ⟨annotations, sockets, hannotations, hsockets,
        assembledFrom_of_assemble? (Except.ok.inj h)⟩

/-! ## Enumerations -/

/-- The registry has an enumeration with the sequence number. -/
def EnumRegistry.Registered (r : EnumRegistry) (id : Nat) : Prop := ∃ e ∈ r.identities, e.id = id

/-- The enumeration of the socket, if it has one, is registered. -/
def Socket.Registered (x : Socket) (r : EnumRegistry) : Prop :=
  ∀ id, x.category = .enumerated id → r.Registered id

/-- The enumerations of all sockets of the prototype are registered. -/
structure Prototype.Registered (p : Prototype) (r : EnumRegistry) : Prop where
  inputs : ∀ x ∈ p.inputs, x.Registered r
  output : p.output.Registered r

/-- One ledger goes on where another one ends. -/
structure Ledger.Extends (l' l : Ledger) : Prop where
  enums : l'.enums.Extends l.enums
  diagnostics : ∃ new, l'.diagnostics = l.diagnostics ++ new ∧ ∀ d ∈ new, d.IsAdmission

section Growth

variable {r r' : EnumRegistry} {l l' l'' : Ledger} {x : Socket} {p : Prototype}

lemma EnumRegistry.Registered.mono {id : Nat} (h : r.Registered id)
    (hr : r'.Extends r) : r'.Registered id := by
  obtain ⟨e, he, hid⟩ := h
  exact ⟨e, hr.identities.subset he, hid⟩

lemma Socket.Registered.mono (h : x.Registered r) (hr : r'.Extends r) : x.Registered r' :=
  fun id hid => (h id hid).mono hr

lemma Prototype.Registered.mono (h : p.Registered r) (hr : r'.Extends r) : p.Registered r' :=
  ⟨fun x hx => (h.inputs x hx).mono hr, h.output.mono hr⟩

lemma Ledger.Extends.refl (l : Ledger) : l.Extends l :=
  ⟨.refl _, [], (List.append_nil _).symm, fun _ hd => absurd hd List.not_mem_nil⟩

lemma Ledger.Extends.trans (h' : l''.Extends l') (h : l'.Extends l) : l''.Extends l := by
  refine ⟨h'.enums.trans h.enums, ?_⟩
  obtain ⟨new, hnew, hkind⟩ := h.diagnostics
  obtain ⟨new', hnew', hkind'⟩ := h'.diagnostics
  refine ⟨new ++ new', by rw [hnew', hnew, List.append_assoc], fun d hd => ?_⟩
  rcases List.mem_append.1 hd with hd | hd
  · exact hkind d hd
  · exact hkind' d hd

end Growth

/-! ## Sockets -/

/-- No schema type of the tables is an enumeration, and neither is one outside of them. -/
lemma category_ne_enumerated (typeName : String) (id : Nat) :
    DataType.category typeName ≠ .enumerated id := by
  have hfamilies : ∀ family ∈ DataType.categoryFamilies, family.1.isEnumerated = false := by
    decide
  intro h
  rw [DataType.category, DataType.intrinsic?] at h
  rcases hfind : DataType.categoryFamilies.find? fun family => family.2.contains typeName
    with _ | family
  · rw [hfind] at h
    exact absurd h (by simp)
  · have hfalse := hfamilies family (List.mem_of_find?_eq_some hfind)
    simp only [hfind, Option.map_some, Option.getD_some] at h
    rw [h] at hfalse
    simp [Category.isEnumerated] at hfalse

namespace EnumRegistry

variable (r : EnumRegistry) (node : String) (members : List String)

/-- A declaration gives an enumeration that is registered after it. -/
lemma WellFormed.exists_declare {r : EnumRegistry} (h : r.WellFormed) :
    ∃ id, (r.declare node members).value.1 = .enumerated id ∧
      (r.declare node members).value.2.Registered id := by
  obtain ⟨id, hcategory, hid⟩ := r.exists_get?_byKey_declare node members
  obtain ⟨e, he, -, heq⟩ := ((h.declare node members).inStep _ _).1 hid
  exact ⟨id, hcategory, e, he, heq⟩

lemma isAdmission_of_mem_declare {d : Diagnostic}
    (hd : d ∈ (r.declare node members).diagnostics) : d.IsAdmission := by
  rcases declare_cases r node members with ⟨id, -, heq⟩ | ⟨-, heq⟩
  · rw [heq] at hd
    exact absurd hd List.not_mem_nil
  · rw [heq] at hd
    dsimp only at hd
    split_ifs at hd
    · exact absurd hd List.not_mem_nil
    · rw [List.mem_singleton.1 hd]
      exact .unnamed _ _ _

end EnumRegistry

lemma isAdmission_of_mem_categoryAt {node socket typeName : String} {d : Diagnostic}
    (hd : d ∈ (categoryAt node socket typeName).diagnostics) : d.IsAdmission := by
  rw [categoryAt] at hd
  dsimp only at hd
  split_ifs at hd
  · exact absurd hd List.not_mem_nil
  · rw [List.mem_singleton.1 hd]
    exact .unknownType _ _ _

namespace DraftSocket

variable {l : Ledger}

lemma extends_resolve (node : String) (p : DraftSocket) (l : Ledger) :
    (p.resolve node l).2.Extends l := by
  rw [resolve]
  split
  · exact ⟨EnumRegistry.extends_declare _ _ _, _, rfl,
      fun _ => EnumRegistry.isAdmission_of_mem_declare _ _ _⟩
  · exact ⟨.refl _, _, rfl, fun _ => isAdmission_of_mem_categoryAt⟩

lemma wellFormed_resolve (node : String) (p : DraftSocket) (hl : l.enums.WellFormed) :
    (p.resolve node l).2.enums.WellFormed := by
  rw [resolve]
  split
  · exact hl.declare node _
  · exact hl

lemma registered_resolve (node : String) (p : DraftSocket) (hl : l.enums.WellFormed) :
    (p.resolve node l).1.Registered (p.resolve node l).2.enums := by
  rw [resolve]
  split
  · rename_i members _
    obtain ⟨id, hcategory, hid⟩ := hl.exists_declare node members
    intro id' hid'
    obtain rfl : id = id' := Category.enumerated.inj (hcategory.symm.trans hid')
    exact hid
  · exact fun id hid => absurd hid (category_ne_enumerated _ id)

lemma resolveAll_cons (node : String) (p : DraftSocket) (rest : List DraftSocket) (l : Ledger) :
    resolveAll node (p :: rest) l
      = ((p.resolve node l).1 :: (resolveAll node rest (p.resolve node l).2).1,
        (resolveAll node rest (p.resolve node l).2).2) := rfl

lemma extends_resolveAll (node : String) (sockets : List DraftSocket) (l : Ledger) :
    (resolveAll node sockets l).2.Extends l := by
  induction sockets generalizing l with
  | nil => exact Ledger.Extends.refl l
  | cons p rest ih =>
    rw [resolveAll_cons]
    exact (ih _).trans (extends_resolve node p l)

lemma wellFormed_resolveAll (node : String) (sockets : List DraftSocket)
    (hl : l.enums.WellFormed) : (resolveAll node sockets l).2.enums.WellFormed := by
  induction sockets generalizing l with
  | nil => exact hl
  | cons p rest ih =>
    rw [resolveAll_cons]
    exact ih (wellFormed_resolve node p hl)

lemma registered_resolveAll (node : String) (sockets : List DraftSocket)
    (hl : l.enums.WellFormed) :
    ∀ x ∈ (resolveAll node sockets l).1, x.Registered (resolveAll node sockets l).2.enums := by
  induction sockets generalizing l with
  | nil => exact fun x hx => absurd hx List.not_mem_nil
  | cons p rest ih =>
    intro x hx
    rw [resolveAll_cons] at hx ⊢
    rcases List.mem_cons.1 hx with rfl | hx
    · exact (registered_resolve node p hl).mono (extends_resolveAll node rest _).enums
    · exact ih (wellFormed_resolve node p hl) x hx

end DraftSocket

/-! ## Nodes -/

namespace Draft

variable (d : Draft) (descriptions : Schema.Descriptions) {l : Ledger}

lemma extends_resolve (l : Ledger) : (d.resolve descriptions l).2.Extends l :=
  (DraftSocket.extends_resolve d.id d.output _).trans
    (DraftSocket.extends_resolveAll d.id d.inputs l)

lemma wellFormed_resolve (hl : l.enums.WellFormed) :
    (d.resolve descriptions l).2.enums.WellFormed :=
  DraftSocket.wellFormed_resolve d.id d.output (DraftSocket.wellFormed_resolveAll d.id d.inputs hl)

lemma registered_resolve (hl : l.enums.WellFormed) :
    (d.resolve descriptions l).1.Registered (d.resolve descriptions l).2.enums where
  inputs := fun x hx => (DraftSocket.registered_resolveAll d.id d.inputs hl x hx).mono
    (DraftSocket.extends_resolve d.id d.output _).enums
  output := DraftSocket.registered_resolve d.id d.output
    (DraftSocket.wellFormed_resolveAll d.id d.inputs hl)

end Draft

/-- A prim is refused or left out, which changes nothing, or it gives the prototype of its
draft. -/
lemma load_cases (prim : Schema.Prim) (descriptions : Schema.Descriptions) (l : Ledger) :
    (∃ e, load prim descriptions l = (.error e, l)) ∨ load prim descriptions l = (.ok none, l) ∨
      ∃ draft : Draft, load prim descriptions l
        = (.ok (some (draft.resolve descriptions l).1), (draft.resolve descriptions l).2) := by
  rw [load]
  rcases draft? prim with e | _ | draft
  · exact Or.inl ⟨e, rfl⟩
  · exact Or.inr (Or.inl rfl)
  · exact Or.inr (Or.inr ⟨draft, rfl⟩)

variable {prim : Schema.Prim} {descriptions : Schema.Descriptions} {l l' : Ledger}

/-- A prim that is not refused is left out, or it gives the prototype of its draft. -/
lemma load_eq_ok_cases {found : Option Prototype}
    (h : load prim descriptions l = (.ok found, l')) :
    (draft? prim = .ok none ∧ found = none ∧ l' = l) ∨
      ∃ d : Draft, draft? prim = .ok (some d) ∧ found = some (d.resolve descriptions l).1 ∧
        l' = (d.resolve descriptions l).2 := by
  rw [load] at h
  rcases hdraft : draft? prim with e | _ | d
  · rw [hdraft] at h
    exact absurd (Prod.mk.inj h).1 (by simp)
  · rw [hdraft] at h
    obtain ⟨hfound, hl⟩ := Prod.mk.inj h
    exact Or.inl ⟨rfl, (Except.ok.inj hfound).symm, hl.symm⟩
  · rw [hdraft] at h
    obtain ⟨hfound, hl⟩ := Prod.mk.inj h
    exact Or.inr ⟨d, rfl, (Except.ok.inj hfound).symm, hl.symm⟩

lemma extends_load {found : Except InvalidMetadata (Option Prototype)}
    (hload : load prim descriptions l = (found, l')) : l'.Extends l := by
  rcases load_cases prim descriptions l with ⟨e, h⟩ | h | ⟨draft, h⟩
  · obtain ⟨-, rfl⟩ := Prod.mk.inj (h.symm.trans hload)
    exact Ledger.Extends.refl l
  · obtain ⟨-, rfl⟩ := Prod.mk.inj (h.symm.trans hload)
    exact Ledger.Extends.refl l
  · obtain ⟨-, rfl⟩ := Prod.mk.inj (h.symm.trans hload)
    exact draft.extends_resolve descriptions l

lemma wellFormed_load {found : Except InvalidMetadata (Option Prototype)}
    (hload : load prim descriptions l = (found, l')) (hl : l.enums.WellFormed) :
    l'.enums.WellFormed := by
  rcases load_cases prim descriptions l with ⟨e, h⟩ | h | ⟨draft, h⟩
  · obtain ⟨-, rfl⟩ := Prod.mk.inj (h.symm.trans hload)
    exact hl
  · obtain ⟨-, rfl⟩ := Prod.mk.inj (h.symm.trans hload)
    exact hl
  · obtain ⟨-, rfl⟩ := Prod.mk.inj (h.symm.trans hload)
    exact draft.wellFormed_resolve descriptions hl

lemma registered_load {p : Prototype} (hload : load prim descriptions l = (.ok (some p), l'))
    (hl : l.enums.WellFormed) : p.Registered l'.enums := by
  rcases load_cases prim descriptions l with ⟨e, h⟩ | h | ⟨draft, h⟩
  · exact absurd (Prod.mk.inj (h.symm.trans hload)).1 (by simp)
  · exact absurd (Prod.mk.inj (h.symm.trans hload)).1 (by simp)
  · obtain ⟨hp, rfl⟩ := Prod.mk.inj (h.symm.trans hload)
    obtain rfl := Option.some.inj (Except.ok.inj hp)
    exact draft.registered_resolve descriptions hl

namespace Session

/-- Loading some prims extends the ledger.  A well-formed registry stays so, and the prototypes have
their enumerations in the last registry. -/
lemma loadPrims_spec {prims : List Schema.Prim} {found : Except InvalidMetadata (List Prototype)}
    (h : loadPrims descriptions prims l = (found, l')) :
    l'.Extends l ∧ (l.enums.WellFormed → l'.enums.WellFormed ∧
      ∀ ps, found = .ok ps → ∀ p ∈ ps, p.Registered l'.enums) := by
  induction prims generalizing l l' found with
  | nil =>
    obtain ⟨rfl, rfl⟩ := Prod.mk.inj h
    refine ⟨Ledger.Extends.refl l, fun hl => ⟨hl, fun ps hps p hp => ?_⟩⟩
    obtain rfl := Except.ok.inj hps
    exact absurd hp List.not_mem_nil
  | cons prim rest ih =>
    rw [loadPrims] at h
    rcases hload : load prim descriptions l with ⟨e | _ | p, l₁⟩
    -- the prim is refused
    · simp only [hload] at h
      obtain ⟨rfl, rfl⟩ := Prod.mk.inj h
      exact ⟨extends_load hload,
        fun hl => ⟨wellFormed_load hload hl, fun ps hps => absurd hps (by simp)⟩⟩
    -- the prim is left out
    · simp only [hload] at h
      obtain ⟨hextends, hrest⟩ := ih h
      exact ⟨hextends.trans (extends_load hload), fun hl => hrest (wellFormed_load hload hl)⟩
    -- the prim gives a prototype, whose enumerations stay registered
    · simp only [hload] at h
      rcases hothers : loadPrims descriptions rest l₁ with ⟨e | ps, l₂⟩
      · simp only [hothers] at h
        obtain ⟨rfl, rfl⟩ := Prod.mk.inj h
        obtain ⟨hextends, hrest⟩ := ih hothers
        exact ⟨hextends.trans (extends_load hload), fun hl =>
          ⟨(hrest (wellFormed_load hload hl)).1, fun ps hps => absurd hps (by simp)⟩⟩
      · simp only [hothers] at h
        obtain ⟨rfl, rfl⟩ := Prod.mk.inj h
        obtain ⟨hextends, hrest⟩ := ih hothers
        refine ⟨hextends.trans (extends_load hload), fun hl => ?_⟩
        obtain ⟨hwellFormed, hregistered⟩ := hrest (wellFormed_load hload hl)
        refine ⟨hwellFormed, fun qs hqs q hq => ?_⟩
        obtain rfl := Except.ok.inj hqs
        rcases List.mem_cons.1 hq with rfl | hq
        · exact (registered_load hload hl).mono hextends.enums
        · exact hregistered ps rfl q hq

lemma loadStage_spec {s s' : Session} {stage : Schema.Stage}
    {found : Except InvalidMetadata (List Prototype)}
    (h : s.loadStage stage descriptions = (found, s')) :
    s'.strict = s.strict ∧ s'.ledger.Extends s.ledger ∧
      (s.ledger.enums.WellFormed → s'.ledger.enums.WellFormed ∧
        ∀ ps, found = .ok ps → ∀ p ∈ ps, p.Registered s'.ledger.enums) := by
  obtain ⟨hfound, rfl⟩ := Prod.mk.inj h
  have hload : loadPrims descriptions stage.nodes s.ledger
      = (found, (loadPrims descriptions stage.nodes s.ledger).2) := Prod.ext hfound rfl
  exact ⟨rfl, loadPrims_spec hload⟩

end Session

end ShaderBindings
