/-
# Runtime types of runtime types

A check of a binding compares runtime types, and the generated expression takes the runtime type
of what the check compares.  So the expression compares that type only where the runtime type of a
runtime type is the type itself.  This holds of a schema type exactly when the type is *settled*
(`DataType.runtime_runtime_iff`): when it is in the table of runtime types, or when its identifier
has letters and is no other name of a type in the table.  The identifier `float3` of the type
`float_3` is such a name.

In consequence the conditions that a function tests differ exactly when those of the branches still
do after one more step to runtime types (`nodup_conditions_iff`).  Expressions are compared from the
first operand on; the conditions of all branches check the same parameters, so they have as many
operands and differ at one of them.
-/
import Mathlib.Data.List.TakeWhile
import ShaderBindings.Proofs.Accounting
import ShaderBindings.Proofs.Codegen
import ShaderBindings.Proofs.Loading
import ShaderBindings.Proofs.Spelling

namespace ShaderBindings

open Swift Fault

/-! ## Settled types -/

namespace DataType

/-- The runtime type of the schema type is its own runtime type: the table of runtime types has the
schema type, or the identifier of the schema type has letters and the table does not have it as
another name of a runtime type. -/
def IsSettled (typeName : String) : Prop :=
  (∃ family ∈ runtimeFamilies, typeName ∈ family.2) ∨
    (Text.letters typeName.toList ≠ [] ∧
      ∀ family ∈ runtimeFamilies, lowerCamel typeName ∈ family.2 → family.1 = lowerCamel typeName)

instance (typeName : String) : Decidable (IsSettled typeName) :=
  inferInstanceAs (Decidable (_ ∨ _))

variable {typeName : String} {family : String × List String}

/-- A type of the table has the runtime type of its family. -/
lemma runtime_of_mem (hfamily : family ∈ runtimeFamilies) (h : typeName ∈ family.2) :
    runtime typeName = family.1 := by
  have hall : ∀ family ∈ runtimeFamilies, ∀ t ∈ family.2, runtime t = family.1 := by
    decide +kernel
  exact hall family hfamily typeName h

/-- A type outside the table has its identifier as its runtime type. -/
lemma runtime_of_forall_not_mem (h : ∀ family ∈ runtimeFamilies, typeName ∉ family.2) :
    runtime typeName = lowerCamel typeName := by
  have hnone : (runtimeFamilies.find? fun family => family.2.contains typeName) = none := by
    refine List.find?_eq_none.2 fun family hfamily => ?_
    rw [List.contains_iff_mem]
    exact h family hfamily
  rw [runtime, hnone]

/-- The runtime types of the table are their own runtime types. -/
lemma runtime_family (hfamily : family ∈ runtimeFamilies) : runtime family.1 = family.1 := by
  have hall : ∀ family ∈ runtimeFamilies, runtime family.1 = family.1 := by decide +kernel
  exact hall family hfamily

/-- The identifier of a name without letters is not in the table. -/
lemma letters_ne_nil_of_mem (hfamily : family ∈ runtimeFamilies)
    (h : lowerCamel typeName ∈ family.2) : Text.letters typeName.toList ≠ [] := by
  have hall : ∀ family ∈ runtimeFamilies, lowerCamel "" ∉ family.2 := by decide +kernel
  intro hnil
  have heq : lowerCamel typeName = lowerCamel "" := by
    rw [lowerCamel_eq_iff, hnil]
    rfl
  exact hall family hfamily (heq ▸ h)

/-- The runtime type of a type is its own runtime type exactly when the type is settled. -/
lemma runtime_runtime_iff (typeName : String) :
    runtime (runtime typeName) = runtime typeName ↔ IsSettled typeName := by
  by_cases htable : ∃ family ∈ runtimeFamilies, typeName ∈ family.2
  · obtain ⟨family, hfamily, hmem⟩ := htable
    rw [runtime_of_mem hfamily hmem]
    exact iff_of_true (runtime_family hfamily) (Or.inl ⟨family, hfamily, hmem⟩)
  · rw [IsSettled, or_iff_right htable]
    have houtside : ∀ family ∈ runtimeFamilies, typeName ∉ family.2 :=
      fun family hfamily hmem => htable ⟨family, hfamily, hmem⟩
    rw [runtime_of_forall_not_mem houtside]
    by_cases halias : ∃ family ∈ runtimeFamilies, lowerCamel typeName ∈ family.2
    -- the identifier is a name of the table
    · obtain ⟨family, hfamily, hmem⟩ := halias
      rw [runtime_of_mem hfamily hmem]
      constructor
      · intro heq
        refine ⟨letters_ne_nil_of_mem hfamily hmem, fun other hother hmem' => ?_⟩
        rw [← runtime_of_mem hother hmem', runtime_of_mem hfamily hmem, heq]
      · exact fun h => h.2 family hfamily hmem
    -- the identifier is outside the table as well
    · have halias' : ∀ family ∈ runtimeFamilies, lowerCamel typeName ∉ family.2 :=
        fun family hfamily hmem => halias ⟨family, hfamily, hmem⟩
      rw [runtime_of_forall_not_mem halias', lowerCamel_lowerCamel_iff]
      exact ⟨fun h => ⟨h, fun family hfamily hmem => absurd hmem (halias' family hfamily)⟩,
        fun h => h.1⟩

example : IsSettled "quatf" ∧ ¬ IsSettled "float_3" ∧ ¬ IsSettled "_" := by decide +kernel

end DataType

/-! ## The conditions of a function -/

/-- The condition of a statement under a condition. -/
def Swift.Stmt.condition? : Stmt → Option Expr
  | .cond e _ => some e
  | _ => none

/-- The conditions that a function tests one after another to find its branch. -/
def Swift.Function.conditions (f : Function) : List Expr := f.body.filterMap Stmt.condition?

namespace Binding

variable {b : Binding} {c d : TypeCheck} {e e' : Expr} {rest rest' : List TypeCheck}
  {result : TypeExpr}

/-- The checks of the guards and of all branches. -/
def checks (b : Binding) : List TypeCheck := b.guards ++ b.branches.flatMap (·.conditions)

/-- Checks of one parameter have one expression when their types have one runtime type. -/
lemma checkExpr_eq_iff (h : c.param = d.param) :
    checkExpr b c = checkExpr b d ↔ c.onRuntime = d.onRuntime := by
  simp [checkExpr, dataTypeExpr, TypeCheck.onRuntime, h]

/-- Two conjunctions of as many operands are equal when their operands are. -/
lemma foldl_checks_eq_iff (h : rest.length = rest'.length) :
    rest.foldl (fun e c => .binary e .and (checkExpr b c)) e
        = rest'.foldl (fun e c => .binary e .and (checkExpr b c)) e'
      ↔ e = e' ∧ rest.map (checkExpr b) = rest'.map (checkExpr b) := by
  induction rest generalizing rest' e e' with
  | nil =>
    obtain rfl := List.eq_nil_of_length_eq_zero h.symm
    simp
  | cons c rest ih =>
    obtain ⟨d, rest', rfl⟩ := List.exists_cons_of_length_eq_add_one h.symm
    rw [List.foldl_cons, List.foldl_cons, ih (Nat.succ.inj h), List.map_cons, List.map_cons]
    simp [and_assoc]

/-- Checks of the same parameters have the same expressions when their types have the same runtime
types. -/
lemma map_checkExpr_eq_iff (h : rest.map (·.param) = rest'.map (·.param)) :
    rest.map (checkExpr b) = rest'.map (checkExpr b)
      ↔ rest.map TypeCheck.onRuntime = rest'.map TypeCheck.onRuntime := by
  induction rest generalizing rest' with
  | nil =>
    obtain rfl := List.map_eq_nil_iff.1 h.symm
    simp
  | cons c rest ih =>
    cases rest' with
    | nil => exact absurd h (by simp)
    | cons d rest' =>
      rw [List.map_cons, List.map_cons, List.cons.injEq] at h
      simp only [List.map_cons, List.cons.injEq, checkExpr_eq_iff h.1, ih h.2]

/-- The condition of a branch, unless the branch is always taken. -/
def conditionOf? (b : Binding) (branch : Branch) : Option Expr :=
  match branch.conditions with
  | [] => none
  | first :: others => some (checksExpr b first others)

lemma exists_conditionOf? {x : Branch} (h : x.conditions ≠ []) :
    ∃ e, b.conditionOf? x = some e := by
  obtain ⟨first, others, hconditions⟩ := List.exists_cons_of_ne_nil h
  exact ⟨checksExpr b first others, by rw [conditionOf?, hconditions]⟩

/-- The conditions of two branches that check the same parameters are equal when the checks have
the same runtime types. -/
lemma conditionOf?_eq_iff {x y : Branch}
    (h : x.conditions.map (·.param) = y.conditions.map (·.param)) :
    b.conditionOf? x = b.conditionOf? y
      ↔ x.onRuntime.conditions = y.onRuntime.conditions := by
  have hlength : x.conditions.length = y.conditions.length := by
    simpa using congrArg List.length h
  have hchecks : x.conditions.map (checkExpr b) = y.conditions.map (checkExpr b)
      ↔ x.onRuntime.conditions = y.onRuntime.conditions := map_checkExpr_eq_iff h
  rw [← hchecks, conditionOf?, conditionOf?]
  rcases hx : x.conditions with _ | ⟨first, others⟩
  · rw [hx] at hlength
    rw [List.eq_nil_of_length_eq_zero hlength.symm]
    simp
  · rw [hx] at hlength
    obtain ⟨first', others', hy⟩ := List.exists_cons_of_length_eq_add_one hlength.symm
    rw [hy] at hlength ⊢
    simp only [checksExpr, Option.some.injEq, foldl_checks_eq_iff (Nat.succ.inj hlength),
      List.map_cons, List.cons.injEq]

/-- Two branches with conditions, which check the same parameters, differ in their expressions when
they do in the runtime types. -/
lemma conditionOf?_ne_iff {x y : Branch} (hx : x.conditions ≠ []) (hy : y.conditions ≠ [])
    (h : x.conditions.map (·.param) = y.conditions.map (·.param)) :
    (∀ e, b.conditionOf? x = some e → ∀ e', b.conditionOf? y = some e' → e ≠ e')
      ↔ x.onRuntime.conditions ≠ y.onRuntime.conditions := by
  obtain ⟨e, he⟩ := exists_conditionOf? (b := b) hx
  obtain ⟨e', he'⟩ := exists_conditionOf? (b := b) hy
  have hiff := conditionOf?_eq_iff (b := b) h
  rw [he, he', Option.some.injEq] at hiff
  constructor
  · exact fun hne heq => hne e he e' he' (hiff.2 heq)
  · intro hne d hd d' hd' heq
    obtain rfl := Option.some.inj (he.symm.trans hd)
    obtain rfl := Option.some.inj (he'.symm.trans hd')
    exact hne (hiff.1 heq)

lemma condition?_branchBody {branch : Branch} {body : List Stmt}
    (h : branchBody b result branch = .ok body) : body.filterMap Stmt.condition? = [] := by
  obtain ⟨items, -, h⟩ := bind_eq_ok_iff.1 h
  obtain rfl := Except.ok.inj h
  rfl

/-- The statements for the branches test the conditions of the branches up to the first one that is
always taken. -/
lemma condition?_branchStmts {branches : List Branch} {stmts : List Stmt}
    (h : branchStmts b result branches = .ok stmts) :
    stmts.filterMap Stmt.condition?
      = (branches.takeWhile fun x => !x.conditions.isEmpty).filterMap b.conditionOf? := by
  induction branches generalizing stmts with
  | nil =>
    obtain rfl := Except.ok.inj h
    rfl
  | cons branch branches ih =>
    obtain ⟨body, hbody, h⟩ := bind_eq_ok_iff.1 h
    rcases hconditions : branch.conditions with _ | ⟨first, others⟩
    -- the branch is always taken
    · simp only [hconditions] at h
      obtain rfl := Except.ok.inj h
      rw [condition?_branchBody hbody, List.takeWhile_cons_of_neg (by simp [hconditions]),
        List.filterMap_nil]
    -- the branch is a statement under its condition
    · simp only [hconditions] at h
      obtain ⟨following, hfollowing, h⟩ := bind_eq_ok_iff.1 h
      obtain rfl := Except.ok.inj h
      have hcondition : b.conditionOf? branch = some (checksExpr b first others) := by
        rw [conditionOf?, hconditions]
      have hstmt : (Stmt.cond (checksExpr b first others) body).condition?
          = some (checksExpr b first others) := rfl
      rw [List.takeWhile_cons_of_pos (by simp [hconditions]), List.filterMap_cons_some hstmt,
        List.filterMap_cons_some hcondition, ih hfollowing]

/-- Only the branches have conditions. -/
lemma conditions_functionOf {m : BindingModule} {f : Function} (h : functionOf m b = .ok f) :
    f.conditions
      = (b.branches.takeWhile fun x => !x.conditions.isEmpty).filterMap b.conditionOf? := by
  obtain ⟨stmts, hstmts, hbody⟩ := bind_eq_ok_iff.1 (functionOf_eq_ok h).2
  have hguards : ∀ guards : List TypeCheck,
      (guards.map (guardStmt b f.returnType)).filterMap Stmt.condition? = [] := by
    intro guards
    rw [List.filterMap_map]
    exact List.filterMap_eq_nil_iff.2 fun _ _ => rfl
  have hfallback : (b.fallback?.map (fallbackStmt b f.returnType)).toList.filterMap
      Stmt.condition? = [] := by
    rcases b.fallback? with _ | reported <;> rfl
  rw [Function.conditions, ← Except.ok.inj hbody, List.filterMap_append, List.filterMap_append,
    hguards, hfallback, condition?_branchStmts hstmts, List.nil_append, List.append_nil]

end Binding

namespace OverloadSet

variable {s : OverloadSet} {a : Analysis} {c : Category} {r : EnumRegistry}

/-! ## The checks of a set -/

/-- The branches of a set differ in their conditions. -/
lemma nodup_map_conditions : ((s.binding a r).branches.map (·.conditions)).Nodup := by
  rw [branches_binding, List.map_map]
  refine List.pairwise_map.2 ((leaders_pairwise _ _).imp fun {p q} hpq heq => ?_)
  exact hpq (conditions_eq_iff.1 heq)

/-- All branches of a set check the discriminating parameters. -/
lemma map_param_conditions {x : Branch} (hx : x ∈ (s.binding a r).branches) :
    x.conditions.map (·.param) = a.discriminating := by
  rw [branches_binding] at hx
  obtain ⟨p, -, rfl⟩ := List.mem_map.1 hx
  simp [branch, conditions, Function.comp_def]

/-- One more step to runtime types is taken in every check of every branch. -/
lemma map_conditions_onRuntime (b : Binding) :
    b.onRuntime.branches.map (·.conditions)
      = (b.branches.map (·.conditions)).map (List.map TypeCheck.onRuntime) := by
  rw [Binding.onRuntime, List.map_map, List.map_map]
  rfl

/-- The conditions that the function of a set tests differ exactly when those of the branches still
do after one more step to runtime types. -/
lemma nodup_conditions_iff {m : BindingModule} {f : Function}
    (hf : functionOf m (s.binding a r) = .ok f) :
    f.conditions.Nodup ↔ ((s.binding a r).onRuntime.branches.map (·.conditions)).Nodup := by
  rw [Binding.conditions_functionOf hf]
  by_cases hpositions : a.discriminating = []
  -- the branches have no conditions, so that there is one branch at most
  · have hnil : ∀ x ∈ (s.binding a r).branches, x.conditions = [] := by
      intro x hx
      rw [← List.map_eq_nil_iff, map_param_conditions hx, hpositions]
    refine iff_of_true ?_ ?_
    · rw [List.takeWhile_eq_nil_iff.2 fun hpos => by simp [hnil _ (List.getElem_mem hpos)]]
      exact List.nodup_nil
    · rw [map_conditions_onRuntime]
      refine nodup_map_conditions.map_on fun cs hcs ds hds _ => ?_
      obtain ⟨x, hx, rfl⟩ := List.mem_map.1 hcs
      obtain ⟨y, hy, rfl⟩ := List.mem_map.1 hds
      rw [hnil x hx, hnil y hy]
  -- every branch has conditions, and two branches check the same parameters
  · have hne : ∀ x ∈ (s.binding a r).branches, x.conditions ≠ [] := by
      intro x hx hnil
      rw [← map_param_conditions hx, hnil] at hpositions
      exact hpositions rfl
    rw [List.takeWhile_eq_self_iff.2 fun x hx => by simpa using hne x hx, Binding.onRuntime,
      List.map_map]
    rw [List.Nodup, List.Nodup, List.pairwise_filterMap, List.pairwise_map]
    refine List.Pairwise.iff_of_mem fun {x y} hx hy => ?_
    exact Binding.conditionOf?_ne_iff (hne x hx) (hne y hy)
      ((map_param_conditions hx).trans (map_param_conditions hy).symm)

/-- The type of a check is the runtime type of the schema type of a member's socket. -/
lemma exists_socket_of_mem_checks (hs : s.Uniform)
    (hloaded : ∀ index, ∀ x ∈ s.socketsAt index, x.IsLoaded) {check : TypeCheck}
    (hcheck : check ∈ (s.binding (s.analysis c) r).checks) :
    ∃ x ∈ s.socketsAt check.param, check.dataType = DataType.runtime x.dataType := by
  rcases List.mem_append.1 hcheck with hguard | hcondition
  -- a guard has the type that the sockets at its position share
  · obtain ⟨index, hindex, hguarded, rfl⟩ := mem_guards_iff.1 hguard
    obtain ⟨x, hx⟩ := List.exists_mem_of_ne_nil _ (socketsAt_ne_nil hindex)
    refine ⟨x, hx, ?_⟩
    rw [← (hloaded index x hx).runtimeType]
    exact head_runtimeTypes (sharesType_of_isGuarded hguarded) hx
  -- a condition has the type of the socket of the member of its branch
  · obtain ⟨branch, hbranch, hcondition⟩ := List.mem_flatMap.1 hcondition
    obtain ⟨p, hp, rfl⟩ := exists_member_of_mem_branches hbranch
    obtain ⟨index, hindex, rfl⟩ := mem_conditions_iff.1 hcondition
    obtain ⟨x, hx⟩ := hs.exists_socket (mem_discriminating_iff.1 hindex).1 hp
    refine ⟨x, mem_socketsAt hp hx, ?_⟩
    rw [← (hloaded index x (mem_socketsAt hp hx)).runtimeType]
    exact runtimeTypeAt_eq hx

end OverloadSet

/-! ## Runs -/

/-- What becomes of the checks of the binding of a set in its function. -/
structure Binding.EmitsChecks (b : Binding) (m : BindingModule) (s : OverloadSet) : Prop where
  /-- A check compares the runtime type of a member's socket.  Its expression compares this very
  type exactly when the schema type of the socket is settled. -/
  written : ∀ c ∈ b.checks, ∃ x ∈ s.socketsAt c.param,
    c.dataType = DataType.runtime x.dataType ∧
      (checkExpr b c = .binary (reportedType (paramName b c.param)) .equal
          (.member (.identifier "SGDataType") c.dataType) ↔ DataType.IsSettled x.dataType)
  /-- The branches differ in their conditions. -/
  distinct : (b.branches.map (·.conditions)).Nodup
  /-- The conditions of the function differ when those of the branches do after one more step to
  runtime types, and only then. -/
  emitted : ∀ f, functionOf m b = .ok f →
    (f.conditions.Nodup ↔ (b.onRuntime.branches.map (·.conditions)).Nodup)
  /-- For members with settled types this step changes nothing. -/
  settled : (∀ index, ∀ x ∈ s.socketsAt index, DataType.IsSettled x.dataType) → b.onRuntime = b

lemma OverloadSet.emitsChecks_binding {s : OverloadSet} {c : Category} {r : EnumRegistry}
    {m : BindingModule} (hs : s.Uniform)
    (hloaded : ∀ index, ∀ x ∈ s.socketsAt index, x.IsLoaded) :
    (s.binding (s.analysis c) r).EmitsChecks m s where
  written := by
    intro check hcheck
    obtain ⟨x, hx, htype⟩ := exists_socket_of_mem_checks hs hloaded hcheck
    refine ⟨x, hx, htype, ?_⟩
    rw [← DataType.runtime_runtime_iff, ← htype]
    simp [checkExpr, dataTypeExpr]
  distinct := nodup_map_conditions
  emitted := fun f hf => nodup_conditions_iff hf
  settled := by
    intro hsettled
    have hruntime : ∀ check ∈ (s.binding (s.analysis c) r).checks,
        DataType.runtime check.dataType = check.dataType := by
      intro check hcheck
      obtain ⟨x, hx, htype⟩ := exists_socket_of_mem_checks hs hloaded hcheck
      rw [htype]
      exact (DataType.runtime_runtime_iff _).2 (hsettled _ x hx)
    refine Binding.onRuntime_of_checksRuntimeTypes ⟨fun g hg => ?_, fun x hx check hcheck => ?_⟩
    · exact hruntime g (List.mem_append_left _ hg)
    · exact hruntime check (List.mem_append_right _ (List.mem_flatMap.2 ⟨x, hx, hcheck⟩))

/-- **Only settled types survive a second step to runtime types.**  The runtime type of a schema
type is its own runtime type exactly when the schema type is settled.  In every run, the expression
of a check compares the type that the check compares exactly at sockets of settled types, and the
conditions of a function differ when the inputs of the members of its set have settled types. -/
theorem run_emitsChecks {session session' : Session} {stage : Schema.Stage}
    {descriptions : Schema.Descriptions} {m : BindingModule}
    (hrun : session.run stage descriptions = (.ok m, session')) :
    (∀ t, DataType.runtime (DataType.runtime t) = DataType.runtime t ↔ DataType.IsSettled t) ∧
      ∃ ps, (session.loadStage stage descriptions).1 = .ok ps ∧
        ∀ b ∈ m.bindings, ∃ entry ∈ (group ps).value, b.baseName = entry.1 ∧
          b.EmitsChecks m entry.2 := by
  refine ⟨DataType.runtime_runtime_iff, ?_⟩
  obtain ⟨ps, s₁, hload, rfl, -⟩ := Session.exists_loadStage_of_run hrun
  refine ⟨ps, by rw [hload], fun b hb => ?_⟩
  obtain ⟨entry, hentry, rfl⟩ := Session.exists_entry_of_mem hb
  have hgrouped := wellGrouped_of_mem_group hentry
  refine ⟨entry, hentry, hgrouped.key_eq, ?_⟩
  refine OverloadSet.emitsChecks_binding hgrouped.toUniform fun index x hx => ?_
  obtain ⟨p, hp, hx⟩ := OverloadSet.mem_socketsAt_iff.1 hx
  exact Session.isLoaded_loadStage hload p (hgrouped.subset p hp) x (List.mem_of_getElem? hx)

/-! ## Two branches with one condition -/

/-- Two nodes whose input types report `float3` and `vector3f`.  The second of these types is the
runtime type of the first one. -/
def aliasStage : Schema.Stage :=
  ⟨[mixPrim "_half" "float_3" "float", mixPrim "_vector3" "float3" "float"]⟩

/-- The conditions of the branches of a binding, and the texts of those of its function. -/
def shownConditions (m : BindingModule) (b : Binding) :
    Option (List (List TypeCheck) × List String) :=
  (functionOf m b).toOption.map fun f =>
    (b.branches.map (·.conditions), f.conditions.map (Expr.text 0))

lemma exists_run_alias : ∃ m s b f, (Session.new false).run aliasStage [] = (.ok m, s) ∧
    m.bindings = [b] ∧ functionOf m b = .ok f ∧
    b.branches.map (·.conditions) = [[⟨0, "float3"⟩], [⟨0, "vector3f"⟩]] ∧
    f.conditions.map (Expr.text 0)
      = ["fg.dataType == SGDataType.vector3f", "fg.dataType == SGDataType.vector3f"] := by
  have hshown : ((Session.new false).run aliasStage []).1.toOption.map
      (fun m => m.bindings.map (shownConditions m))
      = some [some ([[⟨0, "float3"⟩], [⟨0, "vector3f"⟩]],
          ["fg.dataType == SGDataType.vector3f", "fg.dataType == SGDataType.vector3f"])] := by
    decide +kernel
  obtain ⟨m, hm, hbindings⟩ := Option.map_eq_some_iff.1 hshown
  obtain ⟨b, hb, hconditions⟩ := List.map_eq_singleton_iff.1 hbindings
  obtain ⟨f, hf, heq⟩ := Option.map_eq_some_iff.1 hconditions
  obtain ⟨hbranches, htexts⟩ := Prod.mk.inj heq
  exact ⟨m, _, b, f, Prod.ext (toOption_eq_some_iff.1 hm) rfl, hb, toOption_eq_some_iff.1 hf,
    hbranches, htexts⟩

theorem run_emitsChecks_alias : ∃ m s b f,
    (Session.new false).run aliasStage [] = (.ok m, s) ∧ m.bindings = [b] ∧
      functionOf m b = .ok f ∧ (b.branches.map (·.conditions)).Nodup ∧ ¬ f.conditions.Nodup := by
  obtain ⟨m, s, b, f, hrun, hb, hf, hbranches, -⟩ := exists_run_alias
  obtain ⟨-, ps, -, hemits⟩ := run_emitsChecks hrun
  obtain ⟨entry, -, -, hchecks⟩ := hemits b (by simp [hb])
  refine ⟨m, s, b, f, hrun, hb, hf, hchecks.distinct, ?_⟩
  rw [hchecks.emitted f hf, OverloadSet.map_conditions_onRuntime, hbranches]
  decide +kernel

/-- The runtime type of `float_3` is not its own runtime type, and so two branches that the binding
tells apart have one condition in the function. -/
theorem runtime_float_3 :
    (¬ ∀ t, DataType.runtime (DataType.runtime t) = DataType.runtime t) ∧
      DataType.runtime "float_3" = "float3" ∧ DataType.runtime "float3" = "vector3f" ∧
      ∃ m s b f, (Session.new false).run aliasStage [] = (.ok m, s) ∧ m.bindings = [b] ∧
        functionOf m b = .ok f ∧
        b.branches.map (·.conditions) = [[⟨0, "float3"⟩], [⟨0, "vector3f"⟩]] ∧
        f.conditions.map (Expr.text 0)
          = ["fg.dataType == SGDataType.vector3f", "fg.dataType == SGDataType.vector3f"] := by
  have hfirst : DataType.runtime "float_3" = "float3" := by decide +kernel
  have hsecond : DataType.runtime "float3" = "vector3f" := by decide +kernel
  refine ⟨fun hall => ?_, hfirst, hsecond, exists_run_alias⟩
  have heq := hall "float_3"
  rw [hfirst, hsecond] at heq
  exact absurd heq (by decide)

end ShaderBindings
