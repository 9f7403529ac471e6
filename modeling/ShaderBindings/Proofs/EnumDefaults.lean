/-
# Defaults that are cases of an enumeration

A parameter whose type is an enumeration has a default exactly when all members of its set declare
one and the same string at its position, and the enumeration has the string among its members.  The
default then names the case of this member, in the only enumeration of the file with the name
(`run_namesCase`).

The proof follows the default from the sockets to the file.  The sockets of the position have one
enumeration, so that their defaults merge when they are one string.  The parameter asks the registry
by number, and the file asks the module; both find the same entry, because the registry of every
session is well formed (`Session.Reachable.wellFormed`).
-/
import ShaderBindings.Proofs.EnumCases
import ShaderBindings.Proofs.Unification

namespace ShaderBindings

open Swift Fault

/-! ## Merged defaults -/

namespace OverloadSet

variable {s : OverloadSet} {index id : Nat} {c : Category} {l : Literal} {t : String}

/-- A socket with an enumeration can have the nonempty strings as defaults. -/
lemma isRepresentable_of_enumerated {x : Socket} (hx : x.category = .enumerated id) :
    isRepresentable x l = true ↔ ∃ t, t ≠ "" ∧ l = .string t := by
  cases l <;> simp [isRepresentable, hx]

/-- A merge that starts from a string goes through when all defaults are that string. -/
lemma mergeDefaults?_of_enumerated {sockets : List Socket} (ht : t ≠ "")
    (h : ∀ x ∈ sockets, x.category = .enumerated id) :
    mergeDefaults? (some (.string t)) sockets = some l
      ↔ l = .string t ∧ ∀ x ∈ sockets, x.default? = some (.string t) := by
  induction sockets with
  | nil => simp [mergeDefaults?, eq_comm]
  | cons x rest ih =>
    rw [List.forall_mem_cons] at h
    rw [mergeDefaults?, List.forall_mem_cons]
    rcases hdefault : x.default? with _ | own
    · simp
    · simp only [Option.map_some, Option.getD_some, Option.some.injEq]
      by_cases hown : own = .string t
      -- the default is the string
      · have hadds : (isRepresentable x own && (Literal.string t).agrees own) = true := by
          rw [hown, Bool.and_eq_true, isRepresentable_of_enumerated h.1]
          exact ⟨⟨t, ht, rfl⟩, decide_eq_true rfl⟩
        rw [if_pos hadds, hown, ih h.2]
        simp
      -- the default is no string, or another one
      · have hadds : ¬ (isRepresentable x own && (Literal.string t).agrees own) = true := by
          rw [Bool.and_eq_true, isRepresentable_of_enumerated h.1]
          rintro ⟨⟨u, -, rfl⟩, hagrees⟩
          exact hown (congrArg Literal.string (of_decide_eq_true hagrees).symm)
        rw [if_neg hadds]
        simp [hown]

/-- The sockets of an enumeration have a common default when all of them declare it. -/
lemma unifiedDefault?_of_haveEnumeration {sockets : List Socket} (hne : sockets ≠ [])
    (h : HaveEnumeration sockets id) :
    unifiedDefault? sockets = some l ↔ ∃ t, t ≠ "" ∧ l = .string t ∧
      ∀ x ∈ sockets, x.default? = some (.string t) := by
  obtain ⟨first, rest, rfl⟩ := List.exists_cons_of_ne_nil hne
  obtain ⟨hfirst, hrest⟩ := List.forall_mem_cons.1 h
  rw [unifiedDefault?_cons_eq_some_iff]
  constructor
  · rintro ⟨own, hown, hrepresentable, hmerge⟩
    obtain ⟨t, ht, rfl⟩ := (isRepresentable_of_enumerated hfirst).1 hrepresentable
    obtain ⟨rfl, hall⟩ := (mergeDefaults?_of_enumerated ht hrest).1 hmerge
    exact ⟨t, ht, rfl, List.forall_mem_cons.2 ⟨hown, hall⟩⟩
  · rintro ⟨t, ht, rfl, hall⟩
    obtain ⟨hown, hall⟩ := List.forall_mem_cons.1 hall
    exact ⟨_, hown, (isRepresentable_of_enumerated hfirst).2 ⟨t, ht, rfl⟩,
      (mergeDefaults?_of_enumerated ht hrest).2 ⟨rfl, hall⟩⟩

/-! ## Parameters -/

variable {r : EnumRegistry} {identity : EnumIdentity}

/-- A position that is a constant is not generic. -/
lemma not_mem_genericPositions (h : (collapseOf? (s.socketsAt index)).isSome) :
    index ∉ s.genericPositions := by
  intro hgeneric
  rw [genericPositions] at hgeneric
  split_ifs at hgeneric
  · exact absurd hgeneric List.not_mem_nil
  · have hnone := (Bool.and_eq_true_iff.1 (List.mem_filter.1 hgeneric).2).2
    rw [Option.isNone_iff_eq_none.1 hnone] at h
    exact absurd h (by simp)

/-- The parameter at the position of an enumeration has the string as its default that all sockets
declare, when it is a member. -/
lemma default?_parameter_of_enumerated (hr : r.WellFormed) (hidentity : identity ∈ r.identities)
    (hcollapse : collapseOf? (s.socketsAt index) = some (.enumerated identity.id)) :
    (parameter (s.analysis c) r (s.position index)).default? = some l ↔ ∃ t, t ≠ "" ∧
      l = .string t ∧ (∀ x ∈ s.socketsAt index, x.default? = some (.string t)) ∧
        t ∈ identity.members := by
  obtain ⟨hne, henumeration⟩ := collapseOf?_eq_enumerated_iff.1 hcollapse
  have hposition : (s.position index).default? = unifiedDefault? (s.socketsAt index) := by
    rw [position]
    dsimp only
    rw [if_neg fun h => not_mem_genericPositions (by simp [hcollapse])
      (List.contains_iff_mem.1 h)]
  have htype : (parameterType (s.analysis c) (s.position index)).1 = .enumerated identity.id := by
    rw [parameterType]
    simp only [show (s.position index).collapse? = some (.enumerated identity.id) from hcollapse]
  have hget : r.get? identity.id = some identity := hr.get?_eq_some_iff.2 ⟨hidentity, rfl⟩
  rw [default?_parameter, htype, hposition]
  constructor
  · intro h
    rcases hunified : unifiedDefault? (s.socketsAt index) with _ | merged
    · rw [hunified] at h
      exact absurd h (by simp [parameterDefault?])
    · obtain ⟨t, ht, rfl, hall⟩ :=
        (unifiedDefault?_of_haveEnumeration hne henumeration).1 hunified
      rw [hunified, parameterDefault?] at h
      simp only [hget] at h
      split_ifs at h with hcontains
      exact ⟨t, ht, (Option.some.inj h).symm, hall, List.contains_iff_mem.1 hcontains⟩
  · rintro ⟨t, ht, rfl, hall, hmember⟩
    have hunified : unifiedDefault? (s.socketsAt index) = some (.string t) :=
      (unifiedDefault?_of_haveEnumeration hne henumeration).2 ⟨t, ht, rfl, hall⟩
    rw [hunified, parameterDefault?]
    simp only [hget]
    rw [if_pos (List.contains_iff_mem.2 hmember)]

end OverloadSet

/-! ## Declared parameters -/

/-- What is true of a parameter of a function whose type is an enumeration.  The sockets are those
of the members of the set at its position. -/
structure Swift.Parameter.NamesCase (q : Parameter) (enums : List Enumeration)
    (identity : EnumIdentity) (sockets : List Socket) : Prop where
  /-- The members of the set have the enumeration. -/
  position : ∀ x ∈ sockets, x.category = .enumerated identity.id
  /-- The parameter has the name of the enumeration as its type. -/
  type : q.type = .named identity.name
  /-- The enumeration is the only one that is declared under its name. -/
  declared : ∀ e, (e ∈ enums ∧ e.name = identity.name) ↔ e = enumerationOf identity
  /-- The default names the case of the string that all members of the set declare. -/
  default?_iff : ∀ e, q.default? = some e ↔ ∃ t, t ≠ "" ∧
    (∀ x ∈ sockets, x.default? = some (.string t)) ∧
      ⟨lowerCamel t, t⟩ ∈ (enumerationOf identity).cases ∧
        e = .member (.identifier identity.name) (lowerCamel t)
  /-- There is no default when a member of the set declares a string that the enumeration does not
  have. -/
  unregistered : ∀ x ∈ sockets, ∀ t, x.default? = some (.string t) → t ∉ identity.members →
    q.default? = none

namespace OverloadSet

variable {s : OverloadSet} {index id : Nat} {c : Category} {r : EnumRegistry} {m : BindingModule}
  {q : Parameter}

/-- The enumerations of a module of a well-formed registry differ in their names. -/
lemma mem_enumerations_iff {identity : EnumIdentity} (hr : r.WellFormed)
    (hidentity : identity ∈ r.identities) (e : Enumeration) :
    (e ∈ r.identities.map enumerationOf ∧ e.name = identity.name)
      ↔ e = enumerationOf identity := by
  constructor
  · rintro ⟨he, hname⟩
    obtain ⟨other, hother, rfl⟩ := List.mem_map.1 he
    rw [hr.eq_of_name_eq hother hidentity hname]
  · rintro rfl
    exact ⟨List.mem_map_of_mem hidentity, rfl⟩

/-- The default of a declaration whose type is an enumeration is the default of the parameter, as a
case. -/
lemma defaultOf_eq_some_iff {p : Param} {identity : EnumIdentity} {default : Option Expr}
    (htype : p.type = .enumerated id) (hidentity : enumOf m id = .ok identity)
    (h : defaultOf m p = .ok default) {e : Expr} :
    default = some e ↔ ∃ t, p.default? = some (.string t) ∧
      e = .member (.identifier identity.name) (lowerCamel t) := by
  rw [defaultOf] at h
  rcases hp : p.default? with _ | l
  · simp only [hp] at h
    obtain rfl := Except.ok.inj h
    simp
  · cases l with
    | string t =>
      simp only [hp, htype, hidentity, Except.map] at h
      obtain rfl := Except.ok.inj h
      simp [eq_comm]
    | _ =>
      simp only [hp, htype] at h
      obtain rfl := Except.ok.inj h
      simp

/-- A declared parameter of an enumeration names a case of it, if it has a default. -/
lemma namesCase_parameter (hm : m.enums = r.identities) (hr : r.WellFormed)
    (hq : parameterOf m (parameter (s.analysis c) r (s.position index)) = .ok q)
    (htype : (parameter (s.analysis c) r (s.position index)).type = .enumerated id) :
    ∃ identity ∈ m.enums, identity.id = id ∧
      q.NamesCase (m.enums.map enumerationOf) identity (s.socketsAt index) := by
  obtain ⟨type, hnamed, hq⟩ := bind_eq_ok_iff.1 hq
  obtain ⟨default, hdefault, hq⟩ := bind_eq_ok_iff.1 hq
  obtain rfl := Except.ok.inj hq
  rw [htype] at hnamed
  obtain ⟨identity, hidentity, rfl⟩ := map_eq_ok_iff.1 hnamed
  obtain ⟨hmem, rfl⟩ := mem_of_enumOf hidentity
  have hregistered : identity ∈ r.identities := hm ▸ hmem
  have hcollapse : collapseOf? (s.socketsAt index) = some (.enumerated identity.id) :=
    collapseOf?_eq_of_parameterType htype
  have hiff := fun l => default?_parameter_of_enumerated (c := c) (l := l) hr hregistered hcollapse
  have hdefault?_iff : ∀ e, default = some e ↔ ∃ t, t ≠ "" ∧
      (∀ x ∈ s.socketsAt index, x.default? = some (.string t)) ∧ t ∈ identity.members ∧
        e = .member (.identifier identity.name) (lowerCamel t) := by
    intro e
    rw [defaultOf_eq_some_iff htype hidentity hdefault]
    constructor
    · rintro ⟨t, hp, rfl⟩
      obtain ⟨u, hu, heq, hall, hmember⟩ := (hiff _).1 hp
      obtain rfl := Literal.string.inj heq
      exact ⟨t, hu, hall, hmember, rfl⟩
    · rintro ⟨t, ht, hall, hmember, rfl⟩
      exact ⟨t, (hiff _).2 ⟨t, ht, rfl, hall, hmember⟩, rfl⟩
  refine ⟨identity, hmem, rfl, ?_⟩
  constructor
  · exact (collapseOf?_eq_enumerated_iff.1 hcollapse).2
  · rfl
  · rw [hm]
    exact mem_enumerations_iff hr hregistered
  · simpa only [mem_cases_enumerationOf_iff] using hdefault?_iff
  · intro x hx t hdeclared hmember
    rw [← Option.not_isSome_iff_eq_none]
    intro hsome
    obtain ⟨e, he⟩ := Option.isSome_iff_exists.1 hsome
    obtain ⟨u, -, hall, hu, -⟩ := (hdefault?_iff e).1 he
    obtain rfl := Literal.string.inj (Option.some.inj ((hall x hx).symm.trans hdeclared))
    exact hmember hu

end OverloadSet

/-! ## Runs -/

/-- The registry of every reachable session is well formed. -/
lemma Session.Reachable.wellFormed {s : Session} {ps : List Prototype} {sets : List OverloadSet}
    (h : s.Reachable ps sets) : s.ledger.enums.WellFormed := h.sound.enums

/-- The parameters of a declaration are those of its binding, in order. -/
lemma getElem?_parameters {m : BindingModule} {b : Binding} {f : Function} {index : Nat}
    {q : Parameter} (h : functionOf m b = .ok f) (hq : f.parameters[index]? = some q) :
    ∃ p, b.params[index]? = some p ∧ parameterOf m p = .ok q := by
  obtain ⟨parameters, hparameters, h⟩ := bind_eq_ok_iff.1 h
  obtain ⟨result, -, h⟩ := bind_eq_ok_iff.1 h
  obtain ⟨body, -, h⟩ := bind_eq_ok_iff.1 h
  obtain rfl := Except.ok.inj h
  exact getElem?_of_mapM hparameters hq

/-- **The default of an enumeration names a declared case.**  A run in a reachable session that ends
in a module has its files.  Every declaration is that of a binding of a group, and the parameters at
the positions of enumerations name cases of these enumerations by their defaults, exactly when all
members of the group declare one and the same token. -/
theorem run_namesCase {s s' : Session} {ps : List Prototype} {sets : List OverloadSet}
    (h : s.Reachable ps sets) {stage : Schema.Stage} {descriptions : Schema.Descriptions}
    {m : BindingModule} (hrun : s.run stage descriptions = (.ok m, s')) :
    ∃ units loaded, Units.ofModule m = .ok units ∧
      (s.loadStage stage descriptions).1 = .ok loaded ∧
      ∀ f ∈ units.declarations, ∃ b ∈ m.bindings, functionOf m b = .ok f ∧
        ∃ entry ∈ (group loaded).value, b.baseName = entry.1 ∧
          ∀ index (q : Parameter), f.parameters[index]? = some q →
            ∃ p : Param, b.params[index]? = some p ∧
              ∀ id, p.type = .enumerated id → ∃ identity ∈ m.enums, identity.id = id ∧
                q.NamesCase units.operations.enums identity (entry.2.socketsAt index) := by
  obtain ⟨loaded, s₁, hload, rfl, -⟩ := Session.exists_loadStage_of_run hrun
  have hreachable := h.load stage descriptions
  rw [hload] at hreachable
  have hwellFormed : s₁.ledger.enums.WellFormed := hreachable.wellFormed
  have hsound := hreachable.sound.group (List.subset_append_right ps loaded)
  obtain ⟨units, hunits⟩ := hsound.exists_units (List.subset_append_right sets _)
  refine ⟨units, loaded, hunits, by rw [hload], fun f hf => ?_⟩
  obtain ⟨b, hb, hfunction⟩ := exists_binding hunits hf
  obtain ⟨entry, hentry, rfl⟩ := Session.exists_entry_of_mem hb
  refine ⟨_, hb, hfunction, entry, hentry, (wellGrouped_of_mem_group hentry).key_eq, ?_⟩
  intro index q hq
  obtain ⟨p, hp, hparameter⟩ := getElem?_parameters hfunction hq
  refine ⟨p, hp, fun id htype => ?_⟩
  have hindex : index < entry.2.arity := by
    rw [← OverloadSet.length_params_binding]
    exact (List.getElem?_eq_some_iff.1 hp).1
  obtain rfl := Option.some.inj ((OverloadSet.getElem?_params_binding hindex).symm.trans hp)
  rw [enums_ofModule hunits]
  exact OverloadSet.namesCase_parameter rfl hwellFormed hparameter htype

/-! ## A default that is a token, and one that is none -/

/-- A prim with an input that takes one token and has a default. -/
def gaitPrim (name token : String) : Schema.Prim :=
  { path := "/ND_" ++ name
    metadata := []
    properties :=
      [{ plainProperty "inputs:mode" "string" with
          metadata := [("allowedTokens", .array [.string "fast"])]
          default? := some (.string token) },
        plainProperty "outputs:out" "float"] }

/-- Two nodes with the same enumeration, of which only the first one has a member as default. -/
def gaitStage : Schema.Stage := ⟨[gaitPrim "run" "fast", gaitPrim "walk" "slow"]⟩

/-- The types of the parameters of all bindings, and the texts of the defaults in the file. -/
def shownDefaults (m : BindingModule) : Option (List (List ParamType) × List (Option String)) :=
  (Units.ofModule m).toOption.map fun units =>
    (m.bindings.map fun b => b.params.map (·.type),
      (units.declarations.flatMap (·.parameters)).map fun q => q.default?.map (Expr.text 0))

theorem run_namesCase_gait : ∃ m s units f q t identity,
    (Session.new false).Reachable [] [] ∧ (Session.new false).run gaitStage [] = (.ok m, s) ∧
      Units.ofModule m = .ok units ∧ f ∈ units.declarations ∧ q ∈ f.parameters ∧
      (units.declarations.flatMap (·.parameters)).map (fun q => q.default?.map (Expr.text 0))
        = [some "Enum1_fast.fast", none] ∧
      q.default? = some (.member (.identifier identity.name) (lowerCamel t)) ∧
      enumerationOf identity ∈ units.operations.enums ∧
      ⟨lowerCamel t, t⟩ ∈ (enumerationOf identity).cases := by
  have hshown : ((Session.new false).run gaitStage []).1.toOption.bind shownDefaults
      = some ([[.enumerated 1], [.enumerated 1]], [some "Enum1_fast.fast", none]) := by
    decide +kernel
  obtain ⟨m, hm, hshown⟩ := Option.bind_eq_some_iff.1 hshown
  obtain ⟨units, hunits, hshown⟩ := Option.map_eq_some_iff.1 hshown
  obtain ⟨htypes, htexts⟩ := Prod.mk.inj hshown
  have hrun : (Session.new false).run gaitStage []
      = (.ok m, ((Session.new false).run gaitStage []).2) :=
    Prod.ext (toOption_eq_some_iff.1 hm) rfl
  obtain ⟨units', loaded, hunits', -, hnames⟩ := run_namesCase (Session.Reachable.new false) hrun
  obtain rfl := Except.ok.inj (hunits'.symm.trans (toOption_eq_some_iff.1 hunits))
  -- the parameter with the default
  have hdefault : some "Enum1_fast.fast" ∈ (units'.declarations.flatMap (·.parameters)).map
      fun q => q.default?.map (Expr.text 0) := by
    rw [htexts]
    decide
  obtain ⟨q, hq, htext⟩ := List.mem_map.1 hdefault
  obtain ⟨e, he, -⟩ := Option.map_eq_some_iff.1 htext
  obtain ⟨f, hf, hq⟩ := List.mem_flatMap.1 hq
  obtain ⟨b, hb, -, entry, -, -, hparameters⟩ := hnames f hf
  obtain ⟨index, hindex⟩ := List.mem_iff_getElem?.1 hq
  obtain ⟨p, hp, hcases⟩ := hparameters index q hindex
  have htype : p.type = .enumerated 1 := by
    have hall : ∀ types ∈ m.bindings.map fun b => b.params.map (·.type),
        ∀ type ∈ types, type = .enumerated 1 := by
      rw [htypes]
      decide
    exact hall _ (List.mem_map_of_mem hb) _ (List.mem_map_of_mem (List.mem_of_getElem? hp))
  obtain ⟨identity, hidentity, -, hnamed⟩ := hcases 1 htype
  obtain ⟨t, -, -, hcase, rfl⟩ := (hnamed.default?_iff e).1 he
  exact ⟨m, _, units', f, q, t, identity, .new false, hrun, hunits', hf, hq, htexts, he,
    ((hnamed.declared _).2 rfl).1, hcase⟩

end ShaderBindings
