/-
# Dispatch follows the members

A binding that is made of an overload set answers a call as the members of the set would.  Three
stages have to agree for that: the analysis says which positions become constants, the guards
check the positions that the members share, and the conditions of the branches check the positions
where they differ.  A position that none of the three covers would send a call to the wrong node.

One kind of position is left to the caller on purpose: a port with one runtime type that takes
constants only, but is a texture, so that it cannot become a constant.
-/
import ShaderBindings.Proofs.Analysis
import ShaderBindings.Proofs.Branches
import ShaderBindings.Proofs.Parameters

namespace ShaderBindings

/-- The arguments of a call have the runtime types of the prototype's inputs. -/
def Prototype.Accepts (p : Prototype) (types : ArgumentTypes) : Prop :=
  ∀ (index : Nat) (x : Socket), p.inputs[index]? = some x → types index = x.runtimeType

/-- The branch wires each input of the prototype, under its own name, to the parameter at its
place, and wires nothing else. -/
def Branch.Wires (branch : Branch) (p : Prototype) : Prop :=
  branch.inputs.length = p.inputs.length ∧
    ∀ (index : Nat) (x : Socket), p.inputs[index]? = some x →
      branch.inputs[index]? = some ⟨x.name, index⟩

/-- A port of one runtime type that takes constants only in every member and is a texture in
some. -/
structure OverloadSet.IsFixedTexture (s : OverloadSet) (index : Nat) : Prop where
  shared : s.SharesType index
  interfaceOnly : ∀ x ∈ s.socketsAt index, x.isInterfaceOnly
  texture : ∃ x ∈ s.socketsAt index, x.category = .texture

/-- The branch stands for the member: it has the place among the branches that the member has
among the leaders of the set. -/
def Binding.StandsFor (b : Binding) (s : OverloadSet) (a : Analysis) (branch : Branch)
    (p : Prototype) : Prop :=
  ∃ k : Nat, b.branches[k]? = some branch ∧
    (OverloadSet.leaders a.discriminating s.prototypes)[k]? = some p

/-- The dispatch of a binding is that of the members of a set with an analysis. -/
structure Binding.FollowsMembers (b : Binding) (s : OverloadSet) (a : Analysis) : Prop where
  /-- Every branch stands for a member. -/
  owned : ∀ branch ∈ b.branches, ∃ p ∈ s.prototypes, b.StandsFor s a branch p
  /-- A branch builds the node of its member from all of its inputs. -/
  wires : ∀ branch p, b.StandsFor s a branch p → branch.nodeId = p.id ∧ branch.Wires p
  /-- A branch is taken only by a call with the types of its member at the checked positions. -/
  sound : ∀ types branch p, b.dispatch types = .taken branch → b.StandsFor s a branch p →
    ∀ (index : Nat) (x : Socket), p.inputs[index]? = some x → ¬ a.Collapsed index →
      ¬ s.IsFixedTexture index → types index = x.runtimeType
  /-- A call with the types of a member takes the branch of the first member that agrees with
  it. -/
  complete : ∀ types, ∀ p ∈ s.prototypes, p.Accepts types → ∃ first branch,
    s.prototypes.find? (fun q => p.Agree a.discriminating q) = some first ∧
      b.StandsFor s a branch first ∧ b.dispatch types = .taken branch
  /-- No call fits two branches. -/
  disjoint : ∀ types, b.branches.Pairwise fun x y => ¬ (x.fits types ∧ y.fits types)
  /-- A call that fits no branch differs from every member at a discriminating position. -/
  unmatched : ∀ types reported, b.dispatch types = .unmatched reported →
    ∀ p ∈ s.prototypes, ∃ index ∈ a.discriminating,
      types index ≠ OverloadSet.runtimeTypeAt p index
  /-- Every call has an answer. -/
  answered : ∀ types, b.dispatch types ≠ .unanswered

namespace Binding

variable {b : Binding} {types : ArgumentTypes}

lemma dispatch_eq_taken_iff {branch : Branch} :
    b.dispatch types = .taken branch
      ↔ (∀ g ∈ b.guards, g.holds types) ∧ b.fitting? types = some branch := by
  rw [← show b.violated? types = none ↔ ∀ g ∈ b.guards, g.holds types by
    simp [violated?, List.find?_eq_none]]
  rw [dispatch]
  rcases b.violated? types with _ | g
  · rcases b.fitting? types with _ | branch'
    · cases b.fallback? <;> simp
    · simp
  · simp

lemma fitting?_eq_none_of_unmatched {reported : List Nat}
    (h : b.dispatch types = .unmatched reported) : b.fitting? types = none := by
  rw [dispatch] at h
  rcases hv : b.violated? types with _ | g
  · rcases hf : b.fitting? types with _ | branch
    · rfl
    · simp [hv, hf] at h
  · simp [hv] at h

/-- A binding has a failure for the calls that fit no branch, or a branch that fits all calls. -/
def Exhaustive (b : Binding) : Prop :=
  b.fallback? = none → ∃ branch ∈ b.branches, branch.conditions = []

lemma Exhaustive.dispatch_ne_unanswered (h : b.Exhaustive) (types : ArgumentTypes) :
    b.dispatch types ≠ .unanswered := by
  intro hdispatch
  rw [dispatch] at hdispatch
  rcases hv : b.violated? types with _ | g
  · rcases hf : b.fitting? types with _ | branch
    · rcases hb : b.fallback? with _ | reported
      · obtain ⟨branch, hbranch, hconditions⟩ := h hb
        have hnot := List.find?_eq_none.1 hf branch hbranch
        simp [Branch.fits, hconditions] at hnot
      · simp [hv, hf, hb] at hdispatch
    · simp [hv, hf] at hdispatch
  · simp [hv] at hdispatch

end Binding

namespace OverloadSet

variable {s : OverloadSet} {a : Analysis} {c : Category} {index : Nat} {types : ArgumentTypes}
  {enums : EnumRegistry}

/-! ## Guards -/

lemma runtimeTypeAt_eq {p : Prototype} {x : Socket} (hx : p.inputs[index]? = some x) :
    runtimeTypeAt p index = x.runtimeType := by
  simp [runtimeTypeAt, hx]

/-- The first runtime type of a shared position is that of all its sockets. -/
lemma head_runtimeTypes (hshared : s.SharesType index) {x : Socket}
    (hx : x ∈ s.socketsAt index) :
    (s.position index).runtimeTypes.head?.getD "" = x.runtimeType := by
  obtain ⟨first, rest, hcons⟩ := List.exists_cons_of_ne_nil (List.ne_nil_of_mem hx)
  have hfirst : (s.position index).runtimeTypes.head?.getD "" = first.runtimeType := by
    simp [position, hcons]
  rw [hfirst]
  exact hshared first (by simp [hcons]) x hx

lemma mem_guards_iff {g : TypeCheck} :
    g ∈ guards (s.analysis c) ↔ ∃ index < s.arity, isGuarded (s.position index) = true ∧
      g = ⟨index, (s.position index).runtimeTypes.head?.getD ""⟩ := by
  simp only [guards, analysis, List.mem_map, List.mem_filter, List.mem_range]
  constructor
  · rintro ⟨p, ⟨⟨index, hindex, rfl⟩, hguard⟩, rfl⟩
    exact ⟨index, hindex, hguard, rfl⟩
  · rintro ⟨index, hindex, hguard, rfl⟩
    exact ⟨_, ⟨⟨index, hindex, rfl⟩, hguard⟩, rfl⟩

lemma sharesType_of_isGuarded (h : isGuarded (s.position index) = true) :
    s.SharesType index := by
  simp only [isGuarded, Bool.and_eq_true] at h
  exact sharedType_position_iff.1 h.1.1.1

lemma collapse?_of_isGuarded (h : isGuarded (s.position index) = true) :
    collapseOf? (s.socketsAt index) = none := by
  simp only [isGuarded, Bool.and_eq_true] at h
  exact Option.isNone_iff_eq_none.1 h.1.1.2

/-- A position of one enumeration becomes a constant. -/
lemma collapse?_isSome_of_isEnumerated (h : (s.position index).isEnumerated = true) :
    (collapseOf? (s.socketsAt index)).isSome := by
  rw [Position.isEnumerated, Bool.and_eq_true] at h
  obtain ⟨hshared, hhead⟩ := h
  rcases hsockets : s.socketsAt index with _ | ⟨first, rest⟩
  · simp [position, hsockets] at hhead
  · rcases hcategory : first.category with _ | _ | _ | _ | _ | _ | _ | _ | _ | id | raw
    case enumerated =>
      have hall : HaveEnumeration (first :: rest) id := by
        rw [← haveEnumeration_iff hcategory, ← hsockets]
        exact hshared
      rw [collapseOf?_of_haveEnumeration (List.cons_ne_nil _ _) hall]
      rfl
    all_goals simp [position, hsockets, hcategory, Category.isEnumerated] at hhead

/-- A shared position that does not become a constant is guarded, unless it is a texture that
takes constants only. -/
lemma isGuarded_or_isFixedTexture (hne : s.socketsAt index ≠ []) (hshared : s.SharesType index)
    (hcollapse : collapseOf? (s.socketsAt index) = none) :
    isGuarded (s.position index) = true ∨ s.IsFixedTexture index := by
  have hnot : ¬ (collapseOf? (s.socketsAt index)).isSome := by simp [hcollapse]
  by_cases honly : ∀ x ∈ s.socketsAt index, x.isInterfaceOnly = true
  -- the sockets take constants only, so a texture is what keeps them from being one
  · right
    refine ⟨hshared, honly, ?_⟩
    by_contra hnone
    refine hnot ((collapseOf?_isSome_iff hne).2 (Or.inr ⟨hshared, honly, ?_⟩))
    exact fun x hx htexture => hnone ⟨x, hx, htexture⟩
  · left
    have henum : (s.position index).isEnumerated = false :=
      eq_false_of_ne_true fun h => hnot (collapse?_isSome_of_isEnumerated h)
    have hface : (s.position index).interfaceOnly = false := by
      rw [← Bool.not_eq_true]
      exact fun h => honly (List.all_eq_true.1 h)
    have htype : (s.position index).sharedType = true := sharedType_position_iff.2 hshared
    have hnone : (s.position index).collapse? = none := hcollapse
    rw [isGuarded, htype, hnone, hface, henum]
    rfl

/-! ## The binding of a set -/

lemma branches_binding (s : OverloadSet) (a : Analysis) (enums : EnumRegistry) :
    (s.binding a enums).branches
      = (leaders a.discriminating s.prototypes).map (branch a.discriminating) :=
  branches_eq a.discriminating s.prototypes

lemma fitting?_binding (s : OverloadSet) (a : Analysis) (enums : EnumRegistry)
    (types : ArgumentTypes) :
    (s.binding a enums).fitting? types
      = (s.prototypes.find? fun p => (branch a.discriminating p).fits types).map
          (branch a.discriminating) := by
  rw [Binding.fitting?, branches_binding, List.find?_map]
  congr 1
  refine find?_leaders (fun p q hpq => ?_) s.prototypes
  rw [Bool.eq_iff_iff]
  simp only [Function.comp_apply, fits_branch_iff]
  exact hpq.forall_eq_iff

lemma standsFor_binding_iff {branch : Branch} {p : Prototype} :
    (s.binding a enums).StandsFor s a branch p
      ↔ p ∈ leaders a.discriminating s.prototypes ∧
        branch = OverloadSet.branch a.discriminating p := by
  simp only [Binding.StandsFor, branches_binding, List.getElem?_map, Option.map_eq_some_iff]
  constructor
  · rintro ⟨k, ⟨q, hq, rfl⟩, hk⟩
    obtain rfl : q = p := Option.some.inj (hq.symm.trans hk)
    exact ⟨List.mem_of_getElem? hk, rfl⟩
  · rintro ⟨hp, rfl⟩
    obtain ⟨k, hk⟩ := List.mem_iff_getElem?.1 hp
    exact ⟨k, ⟨p, hk, rfl⟩, hk⟩

lemma branch_wires (positions : List Nat) (p : Prototype) : (branch positions p).Wires p := by
  refine ⟨by simp [branch], fun index x hx => ?_⟩
  simp [branch, List.getElem?_map, List.getElem?_zipIdx, hx]

/-- The guards hold of a call with the types of a member. -/
lemma guards_hold (hs : s.Uniform) {p : Prototype} (hp : p ∈ s.prototypes)
    (haccepts : p.Accepts types) : ∀ g ∈ guards (s.analysis c), g.holds types := by
  intro g hg
  obtain ⟨index, hindex, hguard, rfl⟩ := mem_guards_iff.1 hg
  obtain ⟨x, hx⟩ := hs.exists_socket hindex hp
  rw [TypeCheck.holds, decide_eq_true_eq, haccepts index x hx,
    head_runtimeTypes (sharesType_of_isGuarded hguard) (mem_socketsAt hp hx)]

/-- A position of a member that the guards and the conditions of its branch leave unchecked
becomes a constant or is a fixed texture. -/
lemma types_eq_of_checked (hs : s.Uniform) {p : Prototype} (hp : p ∈ s.prototypes)
    (hguards : ∀ g ∈ guards (s.analysis c), g.holds types)
    (hfits : (branch (s.analysis c).discriminating p).fits types = true) {x : Socket}
    (hx : p.inputs[index]? = some x) (hcollapsed : ¬ (s.analysis c).Collapsed index)
    (htexture : ¬ s.IsFixedTexture index) : types index = x.runtimeType := by
  have hindex : index < s.arity := hs.lt_arity hp hx
  by_cases hshared : s.SharesType index
  -- a shared position is the business of the guards
  · have hnone := collapseOf?_of_not_collapsed hindex hcollapsed
    rcases isGuarded_or_isFixedTexture (socketsAt_ne_nil hindex) hshared hnone with hg | ht
    · have hholds := hguards _ (mem_guards_iff.2 ⟨index, hindex, hg, rfl⟩)
      rw [TypeCheck.holds, decide_eq_true_eq,
        head_runtimeTypes hshared (mem_socketsAt hp hx)] at hholds
      exact hholds
    · exact absurd ht htexture
  -- any other position is a condition of the branch
  · have hmem : index ∈ (s.analysis c).discriminating :=
      mem_discriminating_iff.2 ⟨hindex, hshared, hcollapsed⟩
    rw [fits_branch_iff.1 hfits index hmem, runtimeTypeAt_eq hx]

/-- A set without discriminating positions has a branch without conditions, that of a member. -/
lemma exhaustive_binding (hs : s.Uniform) : (s.binding a enums).Exhaustive := by
  intro hfallback
  have hnil : a.discriminating = [] := by
    by_contra hne
    simp [hne] at hfallback
  obtain ⟨p, hp⟩ := hs.exists_prototype
  obtain ⟨first, rest, hleaders⟩ :=
    List.exists_cons_of_ne_nil (leaders_ne_nil a.discriminating (List.ne_nil_of_mem hp))
  refine ⟨branch a.discriminating first, ?_, ?_⟩
  · rw [branches_binding, hleaders]
    exact List.mem_map_of_mem List.mem_cons_self
  · simp [branch, conditions, hnil]

/-- A call with the types of a member fits the branches of the prototypes that agree with it. -/
lemma fits_branch_of_accepts (hs : s.Uniform) {p : Prototype} (hp : p ∈ s.prototypes)
    (haccepts : p.Accepts types) (q : Prototype) :
    (branch (s.analysis c).discriminating q).fits types
      = decide (p.Agree (s.analysis c).discriminating q) := by
  rw [Bool.eq_iff_iff, fits_branch_iff, decide_eq_true_eq]
  refine forall₂_congr fun index hindex => ?_
  obtain ⟨x, hx⟩ := hs.exists_socket (mem_discriminating_iff.1 hindex).1 hp
  rw [haccepts index x hx, runtimeTypeAt_eq hx]

/-- A call with the types of a member takes the branch of the first one that agrees with it. -/
lemma exists_dispatch_eq_taken (hs : s.Uniform) {p : Prototype} (hp : p ∈ s.prototypes)
    (haccepts : p.Accepts types) : ∃ first branch,
      s.prototypes.find? (fun q => p.Agree (s.analysis c).discriminating q) = some first ∧
        (s.binding (s.analysis c) enums).StandsFor s (s.analysis c) branch first ∧
          (s.binding (s.analysis c) enums).dispatch types = .taken branch := by
  obtain ⟨first, hleader, hfirst⟩ :=
    exists_first_leader (s.analysis c).discriminating hp
  refine ⟨first, _, hfirst, standsFor_binding_iff.2 ⟨hleader, rfl⟩, ?_⟩
  refine Binding.dispatch_eq_taken_iff.2 ⟨guards_hold hs hp haccepts, ?_⟩
  rw [fitting?_binding]
  simp only [fits_branch_of_accepts hs hp haccepts, hfirst, Option.map_some]

/-- The dispatch of the binding of a uniform set follows the members of the set. -/
lemma followsMembers_binding (hs : s.Uniform) :
    (s.binding (s.analysis c) enums).FollowsMembers s (s.analysis c) where
  owned := by
    intro branch hbranch
    rw [branches_binding] at hbranch
    obtain ⟨p, hp, rfl⟩ := List.mem_map.1 hbranch
    exact ⟨p, mem_of_mem_leaders hp, standsFor_binding_iff.2 ⟨hp, rfl⟩⟩
  wires := by
    intro branch p hstands
    obtain ⟨-, rfl⟩ := standsFor_binding_iff.1 hstands
    exact ⟨rfl, branch_wires _ p⟩
  sound := by
    intro types branch p hdispatch hstands index x hx hcollapsed htexture
    obtain ⟨hguards, hfitting⟩ := Binding.dispatch_eq_taken_iff.1 hdispatch
    obtain ⟨hp, rfl⟩ := standsFor_binding_iff.1 hstands
    exact types_eq_of_checked hs (mem_of_mem_leaders hp) hguards (List.find?_some hfitting) hx
      hcollapsed htexture
  complete := fun _ _ hp haccepts => exists_dispatch_eq_taken hs hp haccepts
  disjoint := by
    intro types
    rw [branches_binding, List.pairwise_map]
    refine (leaders_pairwise _ _).imp fun hpq hfits => hpq fun index hindex => ?_
    rw [← fits_branch_iff.1 hfits.1 index hindex, fits_branch_iff.1 hfits.2 index hindex]
  unmatched := by
    intro types reported hdispatch p hp
    have hnone := Binding.fitting?_eq_none_of_unmatched hdispatch
    rw [fitting?_binding, Option.map_eq_none_iff, List.find?_eq_none] at hnone
    have hnot := hnone p hp
    rw [fits_branch_iff] at hnot
    simpa using hnot
  answered := (exhaustive_binding hs).dispatch_ne_unanswered

end OverloadSet

/-- **Dispatch is sound, complete and disjoint.**  The binding of a set that grouping returns
takes a branch for exactly the calls that the member of the branch answers. -/
theorem dispatch_followsMembers {ps : List Prototype} {entry : String × OverloadSet}
    (hentry : entry ∈ (group ps).value) {a : Analysis} (ha : entry.2.analyze.value = .ok a)
    {enums : EnumRegistry} {strict : Bool} {b : Binding}
    (hb : (entry.2.synthesize a enums strict).value = .ok b) : b.FollowsMembers entry.2 a := by
  have hs : entry.2.Uniform := (wellGrouped_of_mem_group hentry).toUniform
  obtain ⟨c, -, rfl, -⟩ := OverloadSet.eq_analysis_of_analyze hs.nonempty ha
  rw [OverloadSet.synthesize_analysis] at hb
  obtain rfl := Except.ok.inj hb
  exact OverloadSet.followsMembers_binding hs

/-! ## A family of two nodes -/

/-- A socket of a schema type from the tables, without a default. -/
def plainSocket (name dataType : String) (connectability : Connectability) : Socket :=
  { qualifiedName := "inputs:" ++ name
    name := name
    dataType := dataType
    runtimeType := DataType.runtime dataType
    isArray := false
    default? := none
    connectability := connectability
    members? := none
    displayName? := none
    category := DataType.category dataType }

/-- A node with a discriminating input, a shared one, a constant and a fixed texture. -/
def mixNode (suffix dataType : String) : Prototype :=
  { id := "ND_mix" ++ suffix
    name := "mix" ++ suffix
    inputs :=
      [plainSocket "fg" dataType .free, plainSocket "mix" "float" .free,
        plainSocket "space" "int" .interfaceOnly, plainSocket "file" "asset" .interfaceOnly]
    output := plainSocket "out" dataType .free
    description? := none
    displayName? := none
    availability? := none }

/-- Two nodes that one binding stands for. -/
def mixFamily : List Prototype := [mixNode "_float" "float", mixNode "_color3" "color3f"]

/-- The set of the two nodes. -/
def mixSet : OverloadSet :=
  ⟨"mix", [⟨some "_float", mixNode "_float" "float"⟩,
    ⟨some "_color3", mixNode "_color3" "color3f"⟩]⟩

theorem dispatch_followsMembers_mix :
    ("mix", mixSet) ∈ (group mixFamily).value ∧
      mixSet.analyze.value = .ok (mixSet.analysis .numeric) ∧
      (mixSet.synthesize (mixSet.analysis .numeric) .empty false).value
        = .ok (mixSet.binding (mixSet.analysis .numeric) .empty) ∧
      (mixSet.binding (mixSet.analysis .numeric) .empty).FollowsMembers mixSet
        (mixSet.analysis .numeric) := by
  have hgroup : ("mix", mixSet) ∈ (group mixFamily).value := by decide +kernel
  have hanalyze : mixSet.analyze.value = .ok (mixSet.analysis .numeric) := by decide +kernel
  have hbinding : (mixSet.synthesize (mixSet.analysis .numeric) .empty false).value
      = .ok (mixSet.binding (mixSet.analysis .numeric) .empty) := by
    rw [OverloadSet.synthesize_analysis]
  exact ⟨hgroup, hanalyze, hbinding, dispatch_followsMembers hgroup hanalyze hbinding⟩

end ShaderBindings
