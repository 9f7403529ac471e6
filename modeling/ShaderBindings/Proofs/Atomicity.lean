/-
# Loading a prim is atomic

Loading a prim changes the ledger only when it gives a prototype (`load_atomic`).  What it adds then
is drawn up exactly: the new enumerations stand behind the old ones, the new reports stand behind
the old ones and are warnings on the node of the prim, one for each new enumeration without an
established name and one for each socket of a type outside the tables.

The account is a relation of two ledgers (`Ledger.Gains`) that holds of every socket and is closed
under composition, so that the sockets of a draft add up.  In consequence a prim that is left out
leaves no trace in the loading of a stage (`Session.loadPrims_filter`).
-/
import ShaderBindings.Proofs.Admission
import ShaderBindings.Proofs.Strictness

namespace ShaderBindings

/-! ## What the reports say -/

/-- The diagnostic is one that loading reports of the node. -/
inductive Diagnostic.IsAdmissionOf (node : String) : Diagnostic → Prop where
  /-- The type of a socket is outside the tables. -/
  | unknownType (property typeName : String) :
      IsAdmissionOf node (.unknownSchemaType node property typeName)
  /-- An enumeration of the node has no established name. -/
  | unnamed (members : List String) (name : String) :
      IsAdmissionOf node (.unnamedEnum node members name)

namespace Diagnostic

/-- The members and the made-up name of an enumeration that the diagnostic reports. -/
def unnamedEnum? : Diagnostic → Option (List String × String)
  | unnamedEnum _ members name => some (members.eraseDups, name)
  | _ => none

/-- The socket and the type outside the tables that the diagnostic reports. -/
def unknownType? : Diagnostic → Option (String × String)
  | unknownSchemaType _ property typeName => some (property, typeName)
  | _ => none

/-- Loading reports nothing fatal. -/
lemma IsAdmissionOf.isFatal_eq_false {node : String} {d : Diagnostic} (h : d.IsAdmissionOf node) :
    d.isFatal = false := by
  cases h <;> rfl

end Diagnostic

/-- The members and the name of an enumeration whose name is made up. -/
def EnumIdentity.madeUp? (e : EnumIdentity) : Option (List String × String) :=
  if e.canonical then none else some (e.members, e.name)

/-- The name and the type of a socket whose type is outside the tables. -/
def Socket.unknownType? (x : Socket) : Option (String × String) :=
  match x.category with
  | .unknown _ => some (x.name, x.dataType)
  | _ => none

/-- All sockets of the prototype, in the order in which they are resolved. -/
def Prototype.sockets (p : Prototype) : List Socket := p.inputs ++ [p.output]

/-! ## The account of some sockets -/

/-- The ledger `l'` is `l` with the enumerations `minted` and the reports `new`, which are those of
some sockets of a node. -/
structure Ledger.Gains (node : String) (sockets : List Socket) (minted : List EnumIdentity)
    (new : Diagnostics) (l l' : Ledger) : Prop where
  /-- The new enumerations stand behind the old ones. -/
  enums : l'.enums.identities = l.enums.identities ++ minted
  /-- Their keys are entered, and no other ones. -/
  byKey : l'.enums.byKey = minted.foldl (fun d e => d.insert e.key e.id) l.enums.byKey
  /-- The new reports stand behind the old ones. -/
  diagnostics : l'.diagnostics = l.diagnostics ++ new
  /-- The new reports are warnings of the node. -/
  ofNode : ∀ d ∈ new, d.IsAdmissionOf node
  /-- Every new enumeration without an established name is reported once. -/
  unnamed : new.filterMap Diagnostic.unnamedEnum? = minted.filterMap EnumIdentity.madeUp?
  /-- Every socket of a type outside the tables is reported once. -/
  unknown : new.filterMap Diagnostic.unknownType? = sockets.filterMap Socket.unknownType?

namespace Ledger.Gains

variable {node : String} {xs ys : List Socket} {minted minted' : List EnumIdentity}
  {new new' : Diagnostics} {l l' l'' : Ledger}

lemma nil (l : Ledger) : Gains node [] [] [] l l where
  enums := (List.append_nil _).symm
  byKey := rfl
  diagnostics := (List.append_nil _).symm
  ofNode := fun _ hd => absurd hd List.not_mem_nil
  unnamed := rfl
  unknown := rfl

lemma append (h : Gains node xs minted new l l') (h' : Gains node ys minted' new' l' l'') :
    Gains node (xs ++ ys) (minted ++ minted') (new ++ new') l l'' where
  enums := by rw [h'.enums, h.enums, List.append_assoc]
  byKey := by rw [h'.byKey, h.byKey, List.foldl_append]
  diagnostics := by rw [h'.diagnostics, h.diagnostics, List.append_assoc]
  ofNode := by
    intro d hd
    rcases List.mem_append.1 hd with hd | hd
    · exact h.ofNode d hd
    · exact h'.ofNode d hd
  unnamed := by rw [List.filterMap_append, List.filterMap_append, h.unnamed, h'.unnamed]
  unknown := by rw [List.filterMap_append, List.filterMap_append, h.unknown, h'.unknown]

end Ledger.Gains

/-! ## Sockets -/

namespace DraftSocket

/-- The type of a socket without members is reported exactly when it is outside the tables. -/
lemma unknownType?_withCategory (p : DraftSocket) :
    (p.withCategory (DataType.category p.dataType)).unknownType?
      = if (DataType.intrinsic? p.dataType).isSome then none else some (p.name, p.dataType) := by
  have hfamilies : ∀ family ∈ DataType.categoryFamilies, ∀ raw, family.1 ≠ .unknown raw := by
    simp [DataType.categoryFamilies]
  rw [DataType.category, DataType.intrinsic?]
  rcases hfind : DataType.categoryFamilies.find? fun family => family.2.contains p.dataType
    with _ | family
  · rw [hfind]
    rfl
  · rw [hfind, Socket.unknownType?]
    split
    · rename_i raw hraw
      exact absurd hraw (hfamilies family (List.mem_of_find?_eq_some hfind) raw)
    · rfl

variable (node : String) (p : DraftSocket) (l : Ledger)

/-- A socket with members registers at most their enumeration, which is reported when its name is
made up. -/
lemma gains_declare (members : List String) :
    ∃ minted new, Ledger.Gains node
      [p.withCategory (l.enums.declare node members).value.1] minted new l
      ⟨(l.enums.declare node members).value.2,
        l.diagnostics ++ (l.enums.declare node members).diagnostics⟩ := by
  rcases EnumRegistry.declare_cases l.enums node members with ⟨id, -, heq⟩ | ⟨-, heq⟩
  -- the enumeration is there already
  · rw [heq]
    exact ⟨[], [], (List.append_nil _).symm, rfl, rfl, fun _ hd => absurd hd List.not_mem_nil, rfl,
      rfl⟩
  -- the enumeration is new
  · rw [heq]
    by_cases hcanonical : (l.enums.mint members).canonical = true
    · rw [if_pos hcanonical]
      refine ⟨[l.enums.mint members], [], rfl, rfl, rfl, fun _ hd => absurd hd List.not_mem_nil, ?_,
        rfl⟩
      simp [EnumIdentity.madeUp?, hcanonical]
    · rw [if_neg hcanonical]
      refine ⟨[l.enums.mint members], _, rfl, rfl, rfl, fun d hd => ?_, ?_, rfl⟩
      · rw [List.mem_singleton.1 hd]
        exact .unnamed _ _
      · simp [EnumIdentity.madeUp?, hcanonical, Diagnostic.unnamedEnum?,
          EnumRegistry.mint_members]

/-- A socket without members registers nothing, and its type is reported when it is outside the
tables. -/
lemma gains_categoryAt :
    Ledger.Gains node [p.withCategory (DataType.category p.dataType)] []
      (categoryAt node p.name p.dataType).diagnostics l
      (l.report (categoryAt node p.name p.dataType).diagnostics) := by
  have hunknown := unknownType?_withCategory p
  rw [categoryAt]
  dsimp only
  by_cases hknown : (DataType.intrinsic? p.dataType).isSome = true
  · rw [if_pos hknown] at hunknown ⊢
    refine ⟨(List.append_nil _).symm, rfl, rfl, fun _ hd => absurd hd List.not_mem_nil, rfl, ?_⟩
    rw [List.filterMap_cons_none hunknown]
    rfl
  · rw [if_neg hknown] at hunknown ⊢
    refine ⟨(List.append_nil _).symm, rfl, rfl, fun d hd => ?_, rfl, ?_⟩
    · rw [List.mem_singleton.1 hd]
      exact .unknownType _ _
    · rw [List.filterMap_cons_some hunknown]
      rfl

lemma gains_resolve :
    ∃ minted new, Ledger.Gains node [(p.resolve node l).1] minted new l (p.resolve node l).2 := by
  rw [resolve]
  split
  · exact gains_declare node p l _
  · exact ⟨[], _, gains_categoryAt node p l⟩

lemma gains_resolveAll (sockets : List DraftSocket) :
    ∃ minted new, Ledger.Gains node (resolveAll node sockets l).1 minted new l
      (resolveAll node sockets l).2 := by
  induction sockets generalizing l with
  | nil => exact ⟨[], [], Ledger.Gains.nil l⟩
  | cons p rest ih =>
    rw [resolveAll_cons]
    obtain ⟨minted, new, hfirst⟩ := gains_resolve node p l
    obtain ⟨minted', new', hrest⟩ := ih (p.resolve node l).2
    exact ⟨minted ++ minted', new ++ new', hfirst.append hrest⟩

end DraftSocket

/-! ## Prims -/

lemma Draft.gains_resolve (d : Draft) (descriptions : Schema.Descriptions) (l : Ledger) :
    ∃ minted new, Ledger.Gains d.id (d.resolve descriptions l).1.sockets minted new l
      (d.resolve descriptions l).2 := by
  obtain ⟨minted, new, hinputs⟩ := DraftSocket.gains_resolveAll d.id l d.inputs
  obtain ⟨minted', new', houtput⟩ := DraftSocket.gains_resolve d.id d.output
    (DraftSocket.resolveAll d.id d.inputs l).2
  exact ⟨minted ++ minted', new ++ new', hinputs.append houtput⟩

/-- **Loading a prim is atomic.**  A prim that is refused or left out leaves the ledger as it is.
A prim that gives a prototype adds enumerations and reports behind those that are there; the
reports are warnings of the node of the prim, exactly one for each new enumeration without an
established name and one for each socket of a type outside the tables. -/
theorem load_atomic {prim : Schema.Prim} {descriptions : Schema.Descriptions} {l l' : Ledger}
    {found : Except InvalidMetadata (Option Prototype)}
    (hload : load prim descriptions l = (found, l')) :
    ((∀ p, found ≠ .ok (some p)) → l' = l) ∧
      ∀ p, found = .ok (some p) → ∃ minted new,
        Ledger.Gains prim.name p.sockets minted new l l' ∧ ∀ d ∈ new, d.isFatal = false := by
  rw [load] at hload
  split at hload
  -- the prim is refused
  · obtain ⟨rfl, rfl⟩ := Prod.mk.inj hload
    exact ⟨fun _ => rfl, fun p hp => absurd hp (by simp)⟩
  -- the prim is left out
  · obtain ⟨rfl, rfl⟩ := Prod.mk.inj hload
    exact ⟨fun _ => rfl, fun p hp => absurd hp (by simp)⟩
  -- the prim gives the prototype of its draft
  · rename_i draft hdraft
    obtain ⟨rfl, rfl⟩ := Prod.mk.inj hload
    refine ⟨fun hnone => absurd rfl (hnone _), fun p hp => ?_⟩
    obtain rfl := Option.some.inj (Except.ok.inj hp)
    obtain ⟨annotations, sockets, -, -, hassembled⟩ := exists_of_draft? hdraft
    obtain ⟨minted, new, hgains⟩ := draft.gains_resolve descriptions l
    rw [hassembled.id] at hgains
    exact ⟨minted, new, hgains, fun d hd => (hgains.ofNode d hd).isFatal_eq_false⟩

theorem load_atomic_pick : ∃ p l minted new,
    load (pickPrim "_float" "string") [] Ledger.empty = (.ok (some p), l) ∧
      p.sockets.map (·.name) = ["mode", "out"] ∧ l.enums.identities.map (·.name) = ["Enum1_fast"] ∧
      Ledger.Gains (pickPrim "_float" "string").name p.sockets minted new Ledger.empty l ∧
      ∀ d ∈ new, d.isFatal = false := by
  have hsockets : (load (pickPrim "_float" "string") [] Ledger.empty).1.toOption.map
      (fun found => found.map fun p => p.sockets.map (·.name)) = some (some ["mode", "out"]) := by
    decide +kernel
  have henums : (load (pickPrim "_float" "string") [] Ledger.empty).2.enums.identities.map (·.name)
      = ["Enum1_fast"] := by
    decide +kernel
  rcases hload : load (pickPrim "_float" "string") [] Ledger.empty with ⟨e | _ | p, l⟩
  · simp [hload, Except.toOption] at hsockets
  · simp [hload, Except.toOption] at hsockets
  · simp only [hload, Except.toOption, Option.map_some, Option.some.injEq] at hsockets henums
    obtain ⟨minted, new, hgains, hwarnings⟩ := (load_atomic hload).2 p rfl
    exact ⟨p, l, minted, new, rfl, hsockets, henums, hgains, hwarnings⟩

/-! ## Stages -/

/-- The prim gets no binding, without a complaint. -/
def Schema.Prim.isLeftOut (prim : Schema.Prim) : Bool :=
  match ShaderBindings.draft? prim with
  | .ok none => true
  | _ => false

lemma load_of_isLeftOut {prim : Schema.Prim} (h : prim.isLeftOut = true)
    (descriptions : Schema.Descriptions) (l : Ledger) :
    load prim descriptions l = (.ok none, l) := by
  rw [Schema.Prim.isLeftOut] at h
  rw [load]
  split at h
  · rename_i hdraft
    rw [hdraft]
  · exact absurd h (by decide)

/-- A stage loads as if the prims that are left out did not stand in it: no later enumeration has
another number or name because of them. -/
theorem Session.loadPrims_filter (descriptions : Schema.Descriptions) (prims : List Schema.Prim)
    (l : Ledger) : loadPrims descriptions (prims.filter fun prim => !prim.isLeftOut) l
      = loadPrims descriptions prims l := by
  induction prims generalizing l with
  | nil => rfl
  | cons prim rest ih =>
    rcases hout : prim.isLeftOut with _ | _
    · rw [List.filter_cons_of_pos (by simp [hout]), loadPrims, loadPrims]
      simp only [ih]
    · rw [List.filter_cons_of_neg (by simp [hout]), ih, loadPrims, load_of_isLeftOut hout]

/-- A prim that is left out because of its last property, behind an enumeration. -/
def listPrim : Schema.Prim :=
  { pickPrim "_list" "string" with
    properties :=
      (pickPrim "_list" "string").properties
        ++ [{ plainProperty "inputs:weights" "float" with isArray := true }] }

example : listPrim.isLeftOut = true := by decide +kernel

end ShaderBindings
