/-
# Which prims become prototypes

A prim that is not refused becomes a prototype exactly when it is eligible (`load_selects`), and
eligibility is told from the prim as it is written, without regard to the order in which loading
looks at it: the name, the flag of the vendor, the number of supported outputs, arrays and the type
of the output (`Schema.Prim.IsEligible`).  The prototype has the supported inputs of the prim in
their order, and each socket has the types and the category of its property
(`Socket.Presents`).

The proof goes through the drafts.  The draft of every socket is that of a supported property, one
for one, so that counting and choosing drafts is counting and choosing properties; and what the
registry has for a draft in the end is what the property asks for.
-/
import ShaderBindings.Proofs.Declarations
import ShaderBindings.Proofs.Exclusion
import ShaderBindings.Proofs.Search

namespace ShaderBindings

open Fault

/-! ## What a prim says -/

/-- The mark in front of the names of the sockets of a direction. -/
def Direction.mark : Direction → List Char
  | .input => "inputs:".toList
  | .output => "outputs:".toList

namespace Schema

namespace Property

/-- The property is a socket of the direction. -/
def isOf (d : Direction) (p : Property) : Bool := d.mark.isPrefixOf p.name.toList

/-- The vendor does not support the property. -/
def isWithdrawn (p : Property) : Bool := p.metadata.isRaised "unsupported"

/-- The members of the enumeration that the property declares, if it declares one. -/
def members (p : Property) : List String :=
  (Annotations.declaredMembers? p.metadata).toOption.getD []

/-- The category that a registry has for the property: the enumeration to which the key of its
members leads when it declares one, and else the category of its effective type. -/
def categoryIn? (r : EnumRegistry) (p : Property) : Option Category :=
  if p.members.isEmpty then some (DataType.category (effectiveType p))
  else (r.byKey.get? (EnumRegistry.structuralKey p.members)).map .enumerated

end Property

namespace Prim

/-- The supported properties of a direction, in their order. -/
def supported (d : Direction) (prim : Prim) : List Property :=
  prim.properties.filter fun p => p.isOf d && !p.isWithdrawn

/-- The prim is a node that gets a binding. -/
structure IsEligible (prim : Prim) : Prop where
  unmarked : prim.isMarked = false
  /-- The vendor does not advise against the node. -/
  current : prim.metadata.isRaised "deprecated" = false
  /-- There is one supported output, and it is no text. -/
  output : ∃ p, prim.supported .output = [p] ∧ effectiveType p ≠ "string" ∧
    effectiveType p ≠ "token"
  /-- No supported socket is an array. -/
  single : ∀ p ∈ prim.supported .input ++ prim.supported .output, p.isArray = false

end Prim

end Schema

/-- The socket presents a property of a direction, with the category that a registry has for the
property. -/
structure Socket.Presents (r : EnumRegistry) (d : Direction) (p : Schema.Property) (x : Socket) :
    Prop where
  qualifiedName : x.qualifiedName = p.name
  name : p.name.toList = d.mark ++ x.name.toList
  dataType : x.dataType = effectiveType p
  runtimeType : x.runtimeType = DataType.runtime (effectiveType p)
  isArray : x.isArray = p.isArray
  category : some x.category = p.categoryIn? r
  /-- In a well-formed registry the enumeration is that of the declared members. -/
  enumeration : r.WellFormed → p.members ≠ [] → ∃ e ∈ r.identities,
    e.key = EnumRegistry.structuralKey p.members ∧ x.category = .enumerated e.id

/-- The prototype is that of the prim: it has the supported sockets of the prim in their order. -/
structure Prototype.Presents (r : EnumRegistry) (prim : Schema.Prim) (p : Prototype) : Prop where
  id : p.id = prim.name
  name : p.name = bareName prim.name
  inputs : List.Forall₂ (Socket.Presents r .input) (prim.supported .input) p.inputs
  output : List.Forall₂ (Socket.Presents r .output) (prim.supported .output) [p.output]

/-! ## Drafts of sockets -/

lemma Direction.ofName?_eq_some_iff {name bare : String} {d : Direction} :
    Direction.ofName? name = some (d, bare) ↔ name.toList = d.mark ++ bare.toList := by
  rw [ofName?]
  constructor
  · intro h
    split at h
    · rename_i rest hrest
      obtain ⟨rfl, rfl⟩ := Prod.mk.inj (Option.some.inj h)
      rw [String.toList_ofList]
      exact Text.after?_eq_some_iff.1 hrest
    · split at h
      · rename_i rest hrest
        obtain ⟨rfl, rfl⟩ := Prod.mk.inj (Option.some.inj h)
        rw [String.toList_ofList]
        exact Text.after?_eq_some_iff.1 hrest
      · exact absurd h (by simp)
  · intro h
    cases d with
    | input =>
      have hinput : Text.after? "inputs:".toList name.toList = some bare.toList :=
        Text.after?_eq_some_iff.2 h
      rw [hinput]
      simp
    | output =>
      have houtput : Text.after? "outputs:".toList name.toList = some bare.toList :=
        Text.after?_eq_some_iff.2 h
      -- the marks differ in their first characters
      have hinput : Text.after? "inputs:".toList name.toList = none := by
        rw [Text.after?_eq_none_iff, h]
        intro hprefix
        have hmarks : "inputs:".toList <+: Direction.output.mark :=
          List.prefix_of_prefix_length_le hprefix (List.prefix_append _ _) (by decide)
        exact absurd hmarks (by decide)
      rw [hinput, houtput]
      simp

/-- The draft is that of the property. -/
structure DraftSocket.Drafts (p : Schema.Property) (x : DraftSocket) : Prop where
  name : Direction.ofName? p.name = some (x.direction, x.name)
  qualifiedName : x.qualifiedName = p.name
  dataType : x.dataType = effectiveType p
  isArray : x.isArray = p.isArray
  annotations : x.annotations.IsReadFrom p.metadata

section Drafts

variable {node : String} {properties : List Schema.Property} {sockets : List DraftSocket}
  {p : Schema.Property} {x : DraftSocket}

lemma drafts_of_draftSocket? {d : Direction} {bare : String}
    (hname : Direction.ofName? p.name = some (d, bare)) (h : draftSocket? node d bare p = .ok x) :
    x.Drafts p := by
  obtain ⟨annotations, hannotations, h⟩ := bind_eq_ok_iff.1 h
  obtain ⟨found, -, h⟩ := bind_eq_ok_iff.1 h
  obtain rfl := Except.ok.inj h
  have hread := Annotations.ofMetadata?_eq_ok_iff.1 (annotations?_eq_ok_iff.1 hannotations)
  exact ⟨hname, rfl, rfl, rfl, hread⟩

/-- The drafts are those of the supported properties among the sockets, in their order. -/
lemma forall₂_draftSockets? (h : draftSockets? node properties = .ok sockets) :
    List.Forall₂ DraftSocket.Drafts
      (properties.filter fun p => (Direction.ofName? p.name).isSome && !p.isWithdrawn) sockets := by
  induction properties generalizing sockets with
  | nil =>
    obtain rfl := Except.ok.inj h
    exact .nil
  | cons p rest ih =>
    rw [draftSockets?] at h
    rcases hname : Direction.ofName? p.name with _ | ⟨d, bare⟩
    -- the property is no socket
    · rw [hname] at h
      rw [List.filter_cons_of_neg (by simp [hname])]
      exact ih h
    -- the property is a socket
    · rw [hname] at h
      obtain ⟨x, hx, h⟩ := bind_eq_ok_iff.1 h
      obtain ⟨others, hothers, h⟩ := bind_eq_ok_iff.1 h
      have hdrafts := drafts_of_draftSocket? hname hx
      have hunsupported : x.annotations.unsupported = p.isWithdrawn :=
        Annotations.eq_isRaised_of_flag? hdrafts.annotations.unsupported
      obtain rfl := Except.ok.inj h
      rcases hwithdrawn : p.isWithdrawn with _ | _
      · rw [List.filter_cons_of_pos (by simp [hname, hwithdrawn]), hunsupported, hwithdrawn]
        exact .cons hdrafts (ih hothers)
      · rw [List.filter_cons_of_neg (by simp [hwithdrawn]), hunsupported, hwithdrawn]
        exact ih hothers

lemma Schema.Property.isOf_iff {d : Direction} :
    p.isOf d = true ↔ ∃ bare, Direction.ofName? p.name = some (d, bare) := by
  simp only [Direction.ofName?_eq_some_iff, isOf, List.isPrefixOf_iff_prefix]
  constructor
  · rintro ⟨rest, hrest⟩
    exact ⟨String.ofList rest, by rw [String.toList_ofList, hrest]⟩
  · rintro ⟨bare, hbare⟩
    exact ⟨bare.toList, hbare.symm⟩

/-- The drafts of a direction are those of the supported properties of that direction. -/
lemma forall₂_ofDirection {prim : Schema.Prim}
    (h : draftSockets? node prim.properties = .ok sockets) (d : Direction) :
    List.Forall₂ DraftSocket.Drafts (prim.supported d) (DraftSocket.ofDirection d sockets) := by
  have hsupported : prim.supported d = (prim.properties.filter fun p =>
      (Direction.ofName? p.name).isSome && !p.isWithdrawn).filter (·.isOf d) := by
    rw [Schema.Prim.supported, List.filter_filter]
    refine List.filter_congr fun p _ => ?_
    rcases hof : p.isOf d with _ | _
    · rfl
    · obtain ⟨bare, hname⟩ := Schema.Property.isOf_iff.1 hof
      rw [hname]
      rfl
  rw [hsupported, DraftSocket.ofDirection]
  refine List.rel_filter (fun p x hdrafts => ?_) (forall₂_draftSockets? h)
  show p.isOf d = true ↔ decide (x.direction = d) = true
  rw [Schema.Property.isOf_iff, hdrafts.name, decide_eq_true_eq]
  constructor
  · rintro ⟨bare, heq⟩
    exact (Prod.mk.inj (Option.some.inj heq)).1
  · rintro rfl
    exact ⟨x.name, rfl⟩

lemma forall_isArray_iff {ps : List Schema.Property}
    (h : List.Forall₂ DraftSocket.Drafts ps sockets) :
    (∀ p ∈ ps, p.isArray = false) ↔ ∀ x ∈ sockets, x.isArray = false := by
  induction h with
  | nil => simp
  | cons hdrafts _ ih => rw [List.forall_mem_cons, List.forall_mem_cons, ih, hdrafts.isArray]

end Drafts

/-! ## Drafts of nodes -/

/-- The types of texts are `string` and `token`. -/
lemma intrinsic?_eq_string_iff {typeName : String} :
    DataType.intrinsic? typeName = some .string ↔ typeName = "string" ∨ typeName = "token" := by
  constructor
  · intro h
    have hall : ∀ family ∈ DataType.categoryFamilies, family.1 = .string →
        ∀ t ∈ family.2, t = "string" ∨ t = "token" := by decide
    obtain ⟨family, hfind, hstring⟩ := Option.map_eq_some_iff.1 h
    have hcontains := List.find?_some hfind
    exact hall family (List.mem_of_find?_eq_some hfind) hstring typeName
      (List.contains_iff_mem.1 hcontains)
  · rintro (rfl | rfl)
    · decide
    · decide

section Assembly

variable {id : String} {annotations : Annotations} {sockets : List DraftSocket}

/-- The sockets make a node when they have one output, which is no text, and no arrays. -/
lemma isSome_assemble?_iff :
    (assemble? id annotations sockets).isSome = true ↔
      (∃ x, DraftSocket.ofDirection .output sockets = [x] ∧
        DataType.intrinsic? x.dataType ≠ some .string) ∧ ∀ x ∈ sockets, x.isArray = false := by
  rw [assemble?]
  split
  · rename_i output houtput
    rw [houtput]
    by_cases harray : sockets.any (·.isArray) = true
    · rw [if_pos harray]
      obtain ⟨x, hx, hxarray⟩ := List.any_eq_true.1 harray
      constructor
      · intro h
        exact absurd h (by simp)
      · rintro ⟨-, hsingle⟩
        exact absurd hxarray (by simp [hsingle x hx])
    · have hsingle : ∀ x ∈ sockets, x.isArray = false := by simpa using harray
      rw [if_neg harray]
      by_cases hstring : DataType.intrinsic? output.dataType = some .string
      · simp [hstring]
      · simpa [hstring] using hsingle
  · rename_i hnone
    constructor
    · intro h
      exact absurd h (by simp)
    · rintro ⟨⟨x, hx, -⟩, -⟩
      exact absurd hx (hnone x)

lemma output_of_assemble? {d : Draft} (h : assemble? id annotations sockets = some d) :
    DraftSocket.ofDirection .output sockets = [d.output] := by
  rw [assemble?] at h
  split at h
  · rename_i output houtput
    split_ifs at h
    obtain rfl := Option.some.inj h
    exact houtput
  · exact absurd h (by simp)

end Assembly

section Prims

variable {prim : Schema.Prim} {found : Option Draft}

/-- A prim that is not marked by its name gets a draft when its sockets make a node, unless the
vendor advises against it. -/
lemma draft?_of_unmarked (hmarked : prim.isMarked = false) (h : draft? prim = .ok found) :
    (prim.metadata.isRaised "deprecated" = true ∧ found = none) ∨
      (prim.metadata.isRaised "deprecated" = false ∧ ∃ annotations sockets,
        draftSockets? prim.name prim.properties = .ok sockets ∧
        found = assemble? prim.name annotations sockets) := by
  rw [Schema.Prim.isMarked, Bool.or_eq_false_iff] at hmarked
  unfold draft? at h
  rw [if_neg (Bool.eq_false_iff.1 hmarked.1)] at h
  obtain ⟨annotations, hannotations, h⟩ := bind_eq_ok_iff.1 h
  have hread := Annotations.ofMetadata?_eq_ok_iff.1 (annotations?_eq_ok_iff.1 hannotations)
  rw [← Annotations.eq_isRaised_of_flag? hread.deprecated]
  rcases hdeprecated : annotations.deprecated with _ | _
  · rw [hdeprecated, if_neg Bool.false_ne_true, if_neg (Bool.eq_false_iff.1 hmarked.2)] at h
    obtain ⟨sockets, hsockets, h⟩ := bind_eq_ok_iff.1 h
    exact Or.inr ⟨rfl, annotations, sockets, hsockets, (Except.ok.inj h).symm⟩
  · rw [hdeprecated, if_pos rfl] at h
    exact Or.inl ⟨rfl, (Except.ok.inj h).symm⟩

/-- A prim that is not refused gets a draft when it is eligible. -/
lemma isSome_iff_isEligible (h : draft? prim = .ok found) :
    found.isSome = true ↔ prim.IsEligible := by
  rcases hmarked : prim.isMarked with _ | _
  · rcases draft?_of_unmarked hmarked h with ⟨hraised, rfl⟩ |
      ⟨hraised, annotations, sockets, hsockets, rfl⟩
    -- the vendor advises against the node
    · constructor
      · intro hsome
        exact absurd hsome Bool.false_ne_true
      · intro heligible
        exact absurd (hraised.symm.trans heligible.current) (by decide)
    -- the sockets decide
    · have hinputs := forall₂_ofDirection hsockets .input
      have houtputs := forall₂_ofDirection hsockets .output
      have hsingle : (∀ x ∈ sockets, x.isArray = false) ↔
          ∀ p ∈ prim.supported .input ++ prim.supported .output, p.isArray = false := by
        rw [forall_isArray_iff (List.rel_append hinputs houtputs)]
        constructor
        · intro hall x hx
          rcases List.mem_append.1 hx with hx | hx
          · exact hall x (List.mem_filter.1 hx).1
          · exact hall x (List.mem_filter.1 hx).1
        · intro hall x hx
          refine hall x (List.mem_append.2 ?_)
          rcases hdirection : x.direction with _ | _
          · exact Or.inl (List.mem_filter.2 ⟨hx, by simp [hdirection]⟩)
          · exact Or.inr (List.mem_filter.2 ⟨hx, by simp [hdirection]⟩)
      rw [isSome_assemble?_iff, hsingle]
      constructor
      · rintro ⟨⟨x, hx, hstring⟩, hall⟩
        rw [hx] at houtputs
        obtain ⟨p, rest, hdrafts, hrest, hp⟩ := List.forall₂_cons_right_iff.1 houtputs
        rw [List.forall₂_nil_right_iff.1 hrest] at hp
        rw [hdrafts.dataType, ne_eq, intrinsic?_eq_string_iff, not_or] at hstring
        exact ⟨hmarked, hraised, ⟨p, hp, hstring⟩, hall⟩
      · intro heligible
        obtain ⟨p, hp, hstring⟩ := heligible.output
        rw [hp] at houtputs
        obtain ⟨x, rest, hdrafts, hrest, hx⟩ := List.forall₂_cons_left_iff.1 houtputs
        rw [List.forall₂_nil_left_iff.1 hrest] at hx
        refine ⟨⟨x, hx, ?_⟩, heligible.single⟩
        rw [hdrafts.dataType, ne_eq, intrinsic?_eq_string_iff, not_or]
        exact hstring
  -- the name says that the node gets no binding
  · have hnone : found = none := by
      rw [draft?_of_isMarked hmarked] at h
      split_ifs at h
      · exact (Except.ok.inj h).symm
      · obtain ⟨annotations, -, hnone⟩ := map_eq_ok_iff.1 h
        exact hnone.symm
    constructor
    · intro hsome
      rw [hnone] at hsome
      exact absurd hsome Bool.false_ne_true
    · intro heligible
      exact absurd (hmarked.symm.trans heligible.unmarked) (by decide)

/-- A draft has the sockets of its prim that are supported. -/
lemma exists_sockets_of_draft? {d : Draft} (h : draft? prim = .ok (some d)) :
    List.Forall₂ DraftSocket.Drafts (prim.supported .input) d.inputs ∧
      List.Forall₂ DraftSocket.Drafts (prim.supported .output) [d.output] := by
  have heligible := (isSome_iff_isEligible h).1 rfl
  rcases draft?_of_unmarked heligible.unmarked h with ⟨-, hnone⟩ |
    ⟨-, annotations, sockets, hsockets, hassemble⟩
  · exact absurd hnone (Option.some_ne_none d)
  · rw [(assembledFrom_of_assemble? hassemble.symm).inputs,
      ← output_of_assemble? hassemble.symm]
    exact ⟨forall₂_ofDirection hsockets .input, forall₂_ofDirection hsockets .output⟩

end Prims

/-! ## Resolution -/

/-- What is declared has a number afterwards. -/
lemma EnumRegistry.exists_get?_byKey_declareAll (r : EnumRegistry)
    {declarations : List EnumDeclaration} {d : EnumDeclaration} (hd : d ∈ declarations) :
    ∃ id, (r.declareAll declarations).value.byKey.get? (structuralKey d.members) = some id := by
  induction declarations generalizing r with
  | nil => exact absurd hd List.not_mem_nil
  | cons first rest ih =>
    rcases List.mem_cons.1 hd with rfl | hd
    · obtain ⟨id, -, hid⟩ := r.exists_get?_byKey_declare d.node d.members
      exact ⟨id, (extends_declareAll _ rest).byKey _ _ hid⟩
    · exact ih _ hd

section Resolution

variable {r : EnumRegistry} {p : Schema.Property} {x : DraftSocket}

lemma DraftSocket.Drafts.members? (h : x.Drafts p) :
    x.annotations.members? = if p.members.isEmpty then none else some p.members := by
  obtain ⟨members, hmembers, heq⟩ := h.annotations.members?
  rw [heq, Schema.Property.members, hmembers]
  rfl

/-- The category of a socket is settled as its property asks for. -/
lemma DraftSocket.Drafts.category_settled (h : x.Drafts p)
    (hfound : ∀ members ∈ x.annotations.members?,
      ∃ id, r.byKey.get? (EnumRegistry.structuralKey members) = some id) :
    some (x.settled r).category = p.categoryIn? r := by
  rw [DraftSocket.settled, Schema.Property.categoryIn?]
  rcases hempty : p.members.isEmpty with _ | _
  -- the property declares an enumeration
  · have hmembers : x.annotations.members? = some p.members := by rw [h.members?, hempty]; rfl
    obtain ⟨id, hid⟩ := hfound p.members hmembers
    simp [hmembers, hid, DraftSocket.withCategory]
  -- the type decides
  · have hmembers : x.annotations.members? = none := by rw [h.members?, hempty]; rfl
    simp [hmembers, h.dataType, DraftSocket.withCategory]

/-- The category of a property with members is an entry of a well-formed registry. -/
lemma Schema.Property.exists_of_categoryIn? {c : Category} (hr : r.WellFormed)
    (hmembers : p.members ≠ []) (hc : some c = p.categoryIn? r) : ∃ e ∈ r.identities,
      e.key = EnumRegistry.structuralKey p.members ∧ c = .enumerated e.id := by
  rw [categoryIn?, if_neg (by simpa using hmembers), eq_comm, Option.map_eq_some_iff] at hc
  obtain ⟨id, hid, rfl⟩ := hc
  obtain ⟨e, he, hkey, rfl⟩ := (hr.inStep _ _).1 hid
  exact ⟨e, he, hkey, rfl⟩

/-- A socket is settled as its property asks for, in a registry that knows its enumeration. -/
lemma DraftSocket.Drafts.presents_settled (h : x.Drafts p)
    (hfound : ∀ members ∈ x.annotations.members?,
      ∃ id, r.byKey.get? (EnumRegistry.structuralKey members) = some id) :
    (x.settled r).Presents r x.direction p where
  qualifiedName := h.qualifiedName
  name := Direction.ofName?_eq_some_iff.1 h.name
  dataType := h.dataType
  runtimeType := congrArg DataType.runtime h.dataType
  isArray := h.isArray
  category := h.category_settled hfound
  enumeration := fun hr hmembers => p.exists_of_categoryIn? hr hmembers (h.category_settled hfound)

/-- The sockets of a draft are settled as their properties ask for. -/
lemma forall₂_presents_settled {d : Direction} {ps : List Schema.Property}
    {sockets : List DraftSocket} (h : List.Forall₂ DraftSocket.Drafts ps sockets)
    (hof : ∀ p ∈ ps, p.isOf d = true)
    (hfound : ∀ x ∈ sockets, ∀ members ∈ x.annotations.members?,
      ∃ id, r.byKey.get? (EnumRegistry.structuralKey members) = some id) :
    List.Forall₂ (Socket.Presents r d) ps (sockets.map (·.settled r)) := by
  induction h with
  | nil => exact .nil
  | cons hdrafts _ ih =>
    rw [List.forall_mem_cons] at hof hfound
    obtain ⟨bare, hbare⟩ := Schema.Property.isOf_iff.1 hof.1
    have hdirection := (Prod.mk.inj (Option.some.inj (hdrafts.name.symm.trans hbare))).1
    have hpresents := hdrafts.presents_settled hfound.1
    rw [hdirection] at hpresents
    exact .cons hpresents (ih hof.2 hfound.2)

end Resolution

lemma Schema.Prim.isOf_of_mem_supported {prim : Schema.Prim} {d : Direction} {p : Schema.Property}
    (h : p ∈ prim.supported d) : p.isOf d = true := by
  obtain ⟨-, hp⟩ := List.mem_filter.1 h
  exact (Bool.and_eq_true_iff.1 hp).1

/-- The prototype of a draft presents its prim. -/
lemma presents_resolve {prim : Schema.Prim} {d : Draft} (h : draft? prim = .ok (some d))
    (descriptions : Schema.Descriptions) (l : Ledger) :
    (d.resolve descriptions l).1.Presents (d.resolve descriptions l).2.enums prim := by
  obtain ⟨hinputs, houtput⟩ := exists_sockets_of_draft? h
  obtain ⟨annotations, sockets, -, -, hassembled⟩ := exists_of_draft? h
  have hid : d.id = prim.name := hassembled.id
  have hfound : ∀ x ∈ d.sockets, ∀ members ∈ x.annotations.members?, ∃ id,
      (d.resolve descriptions l).2.enums.byKey.get? (EnumRegistry.structuralKey members)
        = some id := by
    intro x hx members hmembers
    have hdeclared : ⟨d.id, members⟩ ∈ d.declarations :=
      List.mem_filterMap.2 ⟨x, hx, by rw [DraftSocket.declaration?, hmembers]; rfl⟩
    rw [(d.grows_resolve descriptions l).enums]
    exact l.enums.exists_get?_byKey_declareAll hdeclared
  have hsockets := List.forall_mem_append.1 hfound
  rw [d.resolve_eq_settled descriptions l (.refl _)]
  exact
    { id := hid
      name := congrArg bareName hid
      inputs := forall₂_presents_settled hinputs
        (fun _ hp => Schema.Prim.isOf_of_mem_supported hp) hsockets.1
      output := forall₂_presents_settled houtput
        (fun _ hp => Schema.Prim.isOf_of_mem_supported hp) hsockets.2 }

/-- **Selection.**  A prim that is not refused gives a prototype when it is eligible, and the
prototype presents the prim with the categories of the registry afterwards. -/
theorem load_selects {prim : Schema.Prim} {descriptions : Schema.Descriptions} {l l' : Ledger}
    {found : Option Prototype} (h : load prim descriptions l = (.ok found, l')) :
    (found.isSome = true ↔ prim.IsEligible) ∧
      ∀ p ∈ found, p.Presents l'.enums prim := by
  rcases load_eq_ok_cases h with ⟨hdraft, rfl, -⟩ | ⟨d, hdraft, rfl, rfl⟩
  · exact ⟨isSome_iff_isEligible hdraft, fun p hp => absurd hp (Option.not_mem_none p)⟩
  · refine ⟨isSome_iff_isEligible hdraft, fun p hp => ?_⟩
    obtain rfl := Option.some.inj hp
    exact presents_resolve hdraft descriptions l

/-- A prim with an input that the vendor does not support, between one that declares an enumeration
and one that has an alternative type. -/
def blendPrim : Schema.Prim :=
  { path := "/ND_blend"
    metadata := []
    properties :=
      [{ plainProperty "inputs:mode" "token" with
          metadata := [("allowedTokens", .array [.string "over"])] },
        { plainProperty "inputs:seed" "int" with
          metadata := [("customData",
            .object [("realitykit", .object [("unsupported", .bool true)])])] },
        { plainProperty "inputs:fg" "color3h" with aliases := ["normal3f"] },
        plainProperty "outputs:out" "float"] }

theorem load_selects_blend : ∃ p l, load blendPrim [] Ledger.empty = (.ok (some p), l) ∧
    blendPrim.IsEligible ∧ p.Presents l.enums blendPrim ∧
    (blendPrim.supported .input).map (·.name) = ["inputs:mode", "inputs:fg"] ∧
    p.inputs.map (fun x => (x.name, x.runtimeType, x.category))
      = [("mode", "token", .enumerated 1), ("fg", "vector3f", .vector)] := by
  have hinputs : (load blendPrim [] Ledger.empty).1.toOption.map (fun found => found.map fun p =>
      p.inputs.map fun x => (x.name, x.runtimeType, x.category))
      = some (some [("mode", "token", .enumerated 1), ("fg", "vector3f", .vector)]) := by
    decide +kernel
  rcases hload : load blendPrim [] Ledger.empty with ⟨e | _ | p, l⟩
  · simp [hload, Except.toOption] at hinputs
  · simp [hload, Except.toOption] at hinputs
  · simp only [hload, Except.toOption, Option.map_some, Option.some.injEq] at hinputs
    obtain ⟨hselected, hpresents⟩ := load_selects hload
    exact ⟨p, l, rfl, hselected.1 rfl, hpresents p rfl, by decide +kernel, hinputs⟩

end ShaderBindings
