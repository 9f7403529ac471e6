/-
# What loading makes of a socket

Every input of a loaded prototype is a property of its prim.  The runtime type is that of its
schema type.  So is the category, unless the property declares an enumeration.  The default has
been read for the schema type: a number is an integer there exactly when the type is one.

Loading also keeps the registry well formed.  Both facts are carried along together, from the
socket to the stage.
-/
import ShaderBindings.Proofs.Admission
import ShaderBindings.Proofs.Fault

namespace ShaderBindings

open Fault

/-! ## Drafts -/

/-- A number is an integer at the integer types, and only there. -/
def Literal.Suits (typeName : String) : Literal → Prop
  | .int _ => DataType.isInteger typeName = true
  | .float _ => DataType.isInteger typeName = false
  | _ => True

lemma Literal.suits_of_ofJson? {v : Json} {typeName : String} {l : Literal}
    (h : Literal.ofJson? v typeName = .ok (some l)) : l.Suits typeName := by
  rw [Literal.ofJson?.eq_def] at h
  rcases v with _ | b | n | s | items | members
  · exact absurd (Except.ok.inj h) (by simp)
  · obtain rfl := Option.some.inj (Except.ok.inj h)
    trivial
  · dsimp only at h
    split_ifs at h with hinteger
    · split at h
      · obtain rfl := Option.some.inj (Except.ok.inj h)
        exact hinteger
      · exact absurd h (by simp)
    · obtain rfl := Option.some.inj (Except.ok.inj h)
      exact Bool.eq_false_iff.2 hinteger
  · obtain rfl := Option.some.inj (Except.ok.inj h)
    trivial
  · dsimp only at h
    split_ifs at h
    · obtain ⟨xs, -, hxs⟩ := map_eq_ok_iff.1 h
      obtain rfl := Option.some.inj hxs
      trivial
    · obtain ⟨rows, -, hrows⟩ := map_eq_ok_iff.1 h
      obtain rfl := Option.some.inj hrows
      trivial
  · exact absurd h (by simp)

/-- The default of the socket has been read for its schema type. -/
def DraftSocket.IsRead (p : DraftSocket) : Prop := ∀ l ∈ p.default?, l.Suits p.dataType

lemma isRead_draftSocket? {node name : String} {direction : Direction} {p : Schema.Property}
    {socket : DraftSocket} (h : draftSocket? node direction name p = .ok socket) :
    socket.IsRead := by
  obtain ⟨annotations, -, h⟩ := bind_eq_ok_iff.1 h
  obtain ⟨found, hfound, h⟩ := bind_eq_ok_iff.1 h
  obtain rfl := Except.ok.inj h
  intro l hl
  obtain rfl : found = some l := hl
  rw [default?] at hfound
  split at hfound
  · exact absurd (Except.ok.inj hfound) (by simp)
  · split at hfound
    · rename_i hread
      obtain rfl := Except.ok.inj hfound
      exact Literal.suits_of_ofJson? hread
    · exact absurd hfound (by simp)

lemma isRead_draftSockets? {node : String} {properties : List Schema.Property}
    {sockets : List DraftSocket} (h : draftSockets? node properties = .ok sockets) :
    ∀ p ∈ sockets, p.IsRead := by
  induction properties generalizing sockets with
  | nil =>
    obtain rfl := Except.ok.inj h
    exact fun p hp => absurd hp List.not_mem_nil
  | cons property rest ih =>
    rw [draftSockets?] at h
    split at h
    · exact ih h
    · obtain ⟨socket, hsocket, h⟩ := bind_eq_ok_iff.1 h
      obtain ⟨others, hothers, h⟩ := bind_eq_ok_iff.1 h
      have hall : ∀ p ∈ socket :: others, p.IsRead :=
        List.forall_mem_cons.2 ⟨isRead_draftSocket? hsocket, ih hothers⟩
      obtain rfl := Except.ok.inj h
      intro p hp
      split_ifs at hp
      · exact hall p (List.mem_cons_of_mem _ hp)
      · exact hall p hp

lemma isRead_draft? {prim : Schema.Prim} {draft : Draft} (h : draft? prim = .ok (some draft)) :
    ∀ p ∈ draft.inputs, p.IsRead := by
  obtain ⟨annotations, sockets, -, hsockets, hassembled⟩ := exists_of_draft? h
  rw [hassembled.inputs]
  exact fun p hp => isRead_draftSockets? hsockets p (List.mem_filter.1 hp).1

/-! ## Sockets -/

/-- What loading says of a socket. -/
structure Socket.IsLoaded (x : Socket) : Prop where
  runtimeType : x.runtimeType = DataType.runtime x.dataType
  category : x.category.isEnumerated = true ∨ x.category = DataType.category x.dataType
  default : ∀ l ∈ x.default?, l.Suits x.dataType

namespace DraftSocket

variable {l : Ledger}

lemma isLoaded_resolve (node : String) {p : DraftSocket} (hp : p.IsRead) :
    (p.resolve node l).1.IsLoaded := by
  rw [resolve]
  split
  · rename_i members _
    obtain ⟨id, hcategory, -⟩ := l.enums.exists_get?_byKey_declare node members
    have henumerated : (l.enums.declare node members).value.1.isEnumerated = true := by
      rw [hcategory]
      rfl
    exact ⟨rfl, Or.inl henumerated, hp⟩
  · exact ⟨rfl, Or.inr rfl, hp⟩

lemma isLoaded_resolveAll (node : String) {sockets : List DraftSocket}
    (hsockets : ∀ p ∈ sockets, p.IsRead) : ∀ x ∈ (resolveAll node sockets l).1, x.IsLoaded := by
  induction sockets generalizing l with
  | nil => exact fun x hx => absurd hx List.not_mem_nil
  | cons p rest ih =>
    rw [List.forall_mem_cons] at hsockets
    rw [resolveAll_cons]
    exact List.forall_mem_cons.2 ⟨isLoaded_resolve node hsockets.1, ih hsockets.2⟩

end DraftSocket

/-! ## Nodes -/

/-- What loading says of the inputs of a prototype. -/
def Prototype.IsLoaded (p : Prototype) : Prop := ∀ x ∈ p.inputs, x.IsLoaded

variable {prim : Schema.Prim} {descriptions : Schema.Descriptions} {l l' : Ledger}

lemma isLoaded_load {p : Prototype} (h : load prim descriptions l = (.ok (some p), l')) :
    p.IsLoaded := by
  rw [load] at h
  split at h
  · exact absurd (Prod.mk.inj h).1 (by simp)
  · exact absurd (Prod.mk.inj h).1 (by simp)
  · rename_i draft hdraft
    obtain rfl := Option.some.inj (Except.ok.inj (Prod.mk.inj h).1)
    exact DraftSocket.isLoaded_resolveAll draft.id (isRead_draft? hdraft)

namespace Session

variable {ps : List Prototype}

/-- The first of some prims that are all accepted is left out, or it gives the first prototype. -/
lemma loadPrims_cons_cases {rest : List Schema.Prim}
    (h : loadPrims descriptions (prim :: rest) l = (.ok ps, l')) :
    (∃ l₁, load prim descriptions l = (.ok none, l₁) ∧
        loadPrims descriptions rest l₁ = (.ok ps, l')) ∨
      ∃ p others l₁, load prim descriptions l = (.ok (some p), l₁) ∧
        loadPrims descriptions rest l₁ = (.ok others, l') ∧ ps = p :: others := by
  rw [loadPrims] at h
  rcases hload : load prim descriptions l with ⟨e | _ | p, l₁⟩
  · simp only [hload] at h
    exact absurd (Prod.mk.inj h).1 (by simp)
  · simp only [hload] at h
    exact Or.inl ⟨l₁, rfl, h⟩
  · simp only [hload] at h
    rcases hrest : loadPrims descriptions rest l₁ with ⟨e | others, l₂⟩
    · simp only [hrest] at h
      exact absurd (Prod.mk.inj h).1 (by simp)
    · simp only [hrest] at h
      obtain ⟨hps, rfl⟩ := Prod.mk.inj h
      exact Or.inr ⟨p, others, l₁, rfl, hrest, (Except.ok.inj hps).symm⟩

/-- Loading some prims that are all accepted gives loaded prototypes. -/
lemma isLoaded_loadPrims {prims : List Schema.Prim}
    (h : loadPrims descriptions prims l = (.ok ps, l')) : ∀ p ∈ ps, p.IsLoaded := by
  induction prims generalizing l ps with
  | nil =>
    obtain rfl := Except.ok.inj (Prod.mk.inj h).1
    exact fun p hp => absurd hp List.not_mem_nil
  | cons prim rest ih =>
    rcases loadPrims_cons_cases h with ⟨l₁, -, hrest⟩ | ⟨p, others, l₁, hload, hrest, rfl⟩
    · exact ih hrest
    · exact List.forall_mem_cons.2 ⟨isLoaded_load hload, ih hrest⟩

/-- Any session loads prototypes whose sockets are as their properties say. -/
lemma isLoaded_loadStage {stage : Schema.Stage} {s s' : Session}
    (h : s.loadStage stage descriptions = (.ok ps, s')) : ∀ p ∈ ps, p.IsLoaded :=
  isLoaded_loadPrims (Prod.ext (Prod.mk.inj h).1 rfl)

/-- A session with a well-formed registry still has one after a stage. -/
lemma wellFormed_loadStage_of {stage : Schema.Stage} {s s' : Session}
    {found : Except InvalidMetadata (List Prototype)}
    (h : s.loadStage stage descriptions = (found, s')) (hs : s.ledger.enums.WellFormed) :
    s'.ledger.enums.WellFormed := ((loadStage_spec h).2.2 hs).1

/-- A new session loads a stage into a well-formed registry. -/
lemma wellFormed_loadStage {strict : Bool} {stage : Schema.Stage} {s : Session}
    (h : (Session.new strict).loadStage stage descriptions = (.ok ps, s)) :
    s.ledger.enums.WellFormed :=
  wellFormed_loadStage_of h EnumRegistry.WellFormed.empty

end Session

end ShaderBindings
