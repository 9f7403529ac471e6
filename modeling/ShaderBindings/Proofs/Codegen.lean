/-
# The generated function follows the dispatch

The body of a function is made from the guards, the branches and the fallback of a binding.
Running it gives what the dispatch of the binding gives: each statement is matched with the step
of the dispatch that it stands for, and the statements are run in the order of the steps.

A body sees the parameters by name and writes every type of a check as a runtime type.  So it
follows the binding as it `reads` that binding: with the runtime types in the checks, and with
the argument of the first parameter of each name.  When the names are distinct and the checks
are on runtime types, this is the binding itself.
-/
import Mathlib.Data.List.Nodup
import ShaderBindings.Proofs.Execution
import ShaderBindings.Proofs.Fault
import ShaderBindings.Proofs.WellFormed

namespace ShaderBindings

open Swift Fault

/-! ## What a call is to return -/

/-- What reaches an input that a parameter feeds. -/
def Param.feed (p : Param) : Feed :=
  match p.wiring with
  | .connection => .argument p.name
  | .constant dataType =>
    .constant (((DataType.intrinsic? dataType).map className).getD "SGValue")
      (DataType.runtime dataType) p.name
  | .enumConstant => .rawText "SGString" "string" p.name

namespace Binding

/-- What reaches an input that the parameter with an index feeds. -/
def feedOf (b : Binding) (index : Nat) : Feed :=
  (b.params[index]?.map Param.feed).getD (.argument "")

/-- The node of a branch: its inputs in their order, and an output of the type of the branch. -/
def nodeOf (b : Binding) (branch : Branch) : NodeValue :=
  { nodeType := branch.nodeId
    inputs := branch.inputs.map fun input => (input.name, b.feedOf input.param)
    output := (branch.outputName, DataType.runtime branch.outputDataType) }

/-- The report on the types of some arguments, each after its separator. -/
def typeReport (b : Binding) (types : ArgumentTypes) : String → List Nat → String
  | _, [] => ""
  | separator, index :: rest =>
    separator ++ paramName b index ++ " " ++ types index ++ typeReport b types ", " rest

/-- The message on the first guard that does not hold. -/
def guardMessage (b : Binding) (types : ArgumentTypes) (g : TypeCheck) : String :=
  "Invalid " ++ b.name ++ " input. Expected " ++ paramName b g.param ++ " data type to be "
    ++ g.dataType ++ ", but got " ++ types g.param

/-- The message on a call that fits no branch. -/
def fallbackMessage (b : Binding) (types : ArgumentTypes) (reported : List Nat) : String :=
  "Invalid " ++ b.name ++ " input. Unsupported data types:" ++ b.typeReport types " " reported

/-- How a function ends for each outcome of the dispatch. -/
def reply (b : Binding) (result : TypeExpr) (types : ArgumentTypes) : Dispatch → Flow
  | .violated g => .returned result.text (.failure (b.guardMessage types g) (connectedNames b))
  | .taken branch => .returned result.text (.nodeOutput (b.nodeOf branch) branch.outputName)
  | .unmatched reported =>
    .returned result.text (.failure (b.fallbackMessage types reported) (connectedNames b))
  | .unanswered => .next []

end Binding

/-! ## What a body reads -/

/-- The check with the runtime type of its type. -/
def TypeCheck.onRuntime (c : TypeCheck) : TypeCheck := ⟨c.param, DataType.runtime c.dataType⟩

/-- The branch with checks on runtime types. -/
def Branch.onRuntime (branch : Branch) : Branch :=
  { branch with conditions := branch.conditions.map TypeCheck.onRuntime }

namespace Binding

/-- The binding with checks on runtime types. -/
def onRuntime (b : Binding) : Binding :=
  { b with
    guards := b.guards.map TypeCheck.onRuntime
    branches := b.branches.map Branch.onRuntime }

/-- Every check is on a runtime type. -/
structure ChecksRuntimeTypes (b : Binding) : Prop where
  guards : ∀ g ∈ b.guards, DataType.runtime g.dataType = g.dataType
  conditions : ∀ branch ∈ b.branches, ∀ c ∈ branch.conditions,
    DataType.runtime c.dataType = c.dataType

/-- The names of the parameters. -/
def names (b : Binding) : List String := b.params.map (·.name)

/-- A call of the function of a binding. -/
def call (b : Binding) (types : ArgumentTypes) : Call := ⟨b.names, types⟩

/-- The runtime types that a body reads: a name stands for the first parameter that has it. -/
def reads (b : Binding) (types : ArgumentTypes) : ArgumentTypes := fun index =>
  if index < b.params.length then types (b.names.idxOf (paramName b index)) else types index

variable {b : Binding} {types : ArgumentTypes} {index : Nat}

lemma paramName_eq (hindex : index < b.params.length) :
    b.names[index]? = some (paramName b index) := by
  simp [names, paramName, List.getElem?_eq_getElem hindex]

lemma paramName_mem (hindex : index < b.params.length) : paramName b index ∈ b.names :=
  List.mem_of_getElem? (paramName_eq hindex)

lemma reads_of_lt (hindex : index < b.params.length) :
    b.reads types index = types (b.names.idxOf (paramName b index)) := if_pos hindex

/-- Distinct names stand for their own parameters. -/
lemma reads_of_nodup (hnodup : b.names.Nodup) (types : ArgumentTypes) : b.reads types = types := by
  funext index
  by_cases hindex : index < b.params.length
  · obtain ⟨hlt, hget⟩ := List.getElem?_eq_some_iff.1 (paramName_eq hindex)
    rw [reads_of_lt hindex, ← hget, hnodup.idxOf_getElem]
  · rw [reads, if_neg hindex]

lemma onRuntime_of_checksRuntimeTypes (h : b.ChecksRuntimeTypes) : b.onRuntime = b := by
  have hcheck : ∀ c : TypeCheck, DataType.runtime c.dataType = c.dataType → c.onRuntime = c := by
    rintro ⟨param, dataType⟩ hc
    rw [TypeCheck.onRuntime, hc]
  have hguards : b.guards.map TypeCheck.onRuntime = b.guards :=
    (List.map_congr_left fun g hg => hcheck g (h.guards g hg)).trans (List.map_id _)
  have hbranches : b.branches.map Branch.onRuntime = b.branches := by
    refine (List.map_congr_left fun branch hbranch => ?_).trans (List.map_id _)
    have hconditions : branch.conditions.map TypeCheck.onRuntime = branch.conditions :=
      (List.map_congr_left fun c hc => hcheck c (h.conditions branch hbranch c hc)).trans
        (List.map_id _)
    rw [Branch.onRuntime, hconditions, id]
  rw [onRuntime, hguards, hbranches]

/-! ## Reading the expressions of a body -/

lemma argument?_paramName (hindex : index < b.params.length) :
    (b.call types).argument? [] (.identifier (paramName b index)) = some (paramName b index) :=
  if_pos ⟨paramName_mem hindex, rfl⟩

lemma reported?_reportedType (hindex : index < b.params.length) :
    (b.call types).reported? [] (reportedType (paramName b index))
      = some (b.reads types index) := by
  rw [reads_of_lt hindex]
  simp only [reportedType, Call.reported?, if_true, argument?_paramName hindex, Option.map_some]
  rfl

lemma truth?_checkExpr (types : ArgumentTypes) {c : TypeCheck} (hc : c.param < b.params.length) :
    (b.call types).truth? [] (checkExpr b c) = some (c.onRuntime.holds (b.reads types)) := by
  simp only [checkExpr, Call.truth?, reported?_reportedType hc]
  rfl

/-- A left fold of conjunctions is true when all its operands are. -/
lemma truth?_foldl {e : Expr} {v : Bool} {rest : List TypeCheck}
    (he : (b.call types).truth? [] e = some v) (hrest : ∀ c ∈ rest, c.param < b.params.length) :
    (b.call types).truth? [] (rest.foldl (fun e c => .binary e .and (checkExpr b c)) e)
      = some (v && rest.all fun c => c.onRuntime.holds (b.reads types)) := by
  induction rest generalizing e v with
  | nil => simp [he]
  | cons c rest ih =>
    have hc := truth?_checkExpr types (hrest c List.mem_cons_self)
    have hand : (b.call types).truth? [] (.binary e .and (checkExpr b c))
        = some (v && c.onRuntime.holds (b.reads types)) := by
      -- the right operand is looked at only when the left one is true
      rw [Call.truth?, he]
      cases v with
      | true => exact hc
      | false => rfl
    rw [List.foldl_cons, ih hand fun d hd => hrest d (List.mem_cons_of_mem _ hd), List.all_cons,
      Bool.and_assoc]

lemma truth?_checksExpr (types : ArgumentTypes) {first : TypeCheck} {rest : List TypeCheck}
    (h : ∀ c ∈ first :: rest, c.param < b.params.length) :
    (b.call types).truth? [] (checksExpr b first rest)
      = some ((first :: rest).all fun c => c.onRuntime.holds (b.reads types)) :=
  truth?_foldl (truth?_checkExpr types (h first List.mem_cons_self))
    fun c hc => h c (List.mem_cons_of_mem _ hc)

/-! ### Failures -/

lemma mapM_argument? {l : List String} (h : ∀ name ∈ l, name ∈ b.names) :
    (l.map Expr.identifier).mapM ((b.call types).argument? []) = some l := by
  refine mapM_eq_some (List.forall₂_map_left_iff.2 (List.forall₂_same.2 fun name hname => ?_))
  exact if_pos ⟨h name hname, rfl⟩

lemma connectedNames_subset : ∀ name ∈ connectedNames b, name ∈ b.names := by
  intro name hname
  obtain ⟨p, hp, rfl⟩ := List.mem_map.1 hname
  exact List.mem_map_of_mem (List.mem_filter.1 hp).1

lemma return?_construct {call : Call} {locals : Locals} {result : TypeExpr} {source : Expr} :
    call.return? locals (construct result source)
      = (call.answer? locals source).map (.returned result.text) := by
  have hread : (construct result source).construct? = some (result.text, source) := by
    simp [construct, Expr.construct?, Arg.labelled, Arg.as?]
  rw [Call.return?, hread]
  cases hanswer : call.answer? locals source <;> simp [hanswer]

/-- A failure is read as its message, with the arguments that are values of the graph. -/
lemma return?_failure {result : TypeExpr} {message : List Segment} {text : String}
    (hmessage : (b.call types).message? [] (.interpolated message) = some text) :
    (b.call types).return? [] (Swift.failure b result message)
      = some (.returned result.text (.failure text (connectedNames b))) := by
  rw [Swift.failure, return?_construct]
  simp [Call.answer?, Expr.implicitCall?, Arg.plain, Arg.labelled, Arg.as?, Expr.items?,
    hmessage, mapM_argument? connectedNames_subset]

lemma step_guardStmt {result : TypeExpr} {g : TypeCheck} (hg : g.param < b.params.length) :
    (b.call types).step [] (guardStmt b result g)
      = some (if g.onRuntime.holds (b.reads types) then .next []
        else b.reply result (b.reads types) (.violated g.onRuntime)) := by
  have hmessage : (b.call types).message? []
      (.interpolated
        [.text ("Invalid " ++ b.name ++ " input. Expected " ++ paramName b g.param
            ++ " data type to be " ++ DataType.runtime g.dataType ++ ", but got "),
          .value (reportedType (paramName b g.param))])
      = some (b.guardMessage (b.reads types) g.onRuntime) := by
    simp [Call.message?, Call.segment?, reported?_reportedType hg, guardMessage,
      TypeCheck.onRuntime, String.append_assoc]
  rw [guardStmt, Call.step, truth?_checkExpr types hg]
  rcases g.onRuntime.holds (b.reads types) with _ | _
  -- the guard does not hold, and its block returns
  · simp [Call.run, Call.step, return?_failure hmessage, reply]
  · rfl

/-! ### Nodes -/

lemma constant?_constantValue {className caseName : String} {args : List Arg} :
    (constantValue className caseName args).constant? = some (className, caseName, args) := by
  simp [constantValue, Expr.constant?, Expr.construct?, Expr.implicitCall?, Arg.plain,
    Arg.labelled, Arg.as?]

lemma feed?_constantValue {call : Call} {locals : Locals} {className caseName : String}
    {value : Expr} {rest : List Arg} (hrest : rest.all Call.isColorSpace = true) :
    call.feed? locals (constantValue className caseName (.plain value :: rest))
      = call.constantFeed? locals className caseName value := by
  simp [Call.feed?, constant?_constantValue, hrest, Arg.plain, Arg.as?]

/-- The value that is wired for a parameter is read as what the parameter feeds. -/
lemma feed?_connectionExpr {p : Param} (hp : p.name ∈ b.names) :
    (b.call types).feed? [] (connectionExpr p) = some p.feed := by
  have hname : (b.call types).argument? [] (.identifier p.name) = some p.name :=
    if_pos ⟨hp, rfl⟩
  rw [connectionExpr, Param.feed]
  rcases p.wiring with _ | dataType | _
  -- the argument itself
  · simp [Call.feed?, Expr.constant?, Expr.construct?, hname]
  -- a constant, which may have an argument for its color space
  · have hspace : (if DataType.runtime dataType = "color3f"
          || DataType.runtime dataType = "color4f"
        then [Arg.labelled "colorSpace" (.constant .nil)] else []).all Call.isColorSpace = true := by
      split_ifs <;> decide
    rw [feed?_constantValue hspace, Call.constantFeed?, hname]
    · rfl
    · simp
  -- a constant that is made from the raw text
  · rw [feed?_constantValue rfl, Call.constantFeed?, if_pos rfl, hname]
    rfl

lemma input?_inputExpr {node : String} {input : NodeInput} {item : Expr}
    (h : inputExpr b node input = .ok item) :
    (b.call types).input? [] item = some (input.name, b.feedOf input.param) := by
  rw [inputExpr] at h
  rcases hp : b.params[input.param]? with _ | p
  · simp [hp] at h
  · simp only [hp, Except.ok.injEq] at h
    subst h
    have hmem : p.name ∈ b.names := List.mem_map_of_mem (List.mem_of_getElem? hp)
    simp [Call.input?, Expr.implicitCall?, Arg.labelled, Arg.as?, Expr.string, Expr.text?,
      feed?_connectionExpr hmem, feedOf, hp]

/-- The arrays that a body has declared when it returns the output of a branch. -/
def inputsOf (b : Binding) (branch : Branch) : Locals := [(inputsName, (b.nodeOf branch).inputs)]

lemma node?_nodeExpr {branch : Branch} :
    Call.node? (b.inputsOf branch) (nodeExpr branch) = some (b.nodeOf branch) := by
  have hinputs : Call.inputs? (b.inputsOf branch) (.identifier inputsName)
      = some (b.nodeOf branch).inputs := by
    simp [Call.inputs?, inputsOf]
  by_cases hname : branch.outputName = usualOutput
  · simp [nodeExpr, hname, Call.node?, Arg.labelled, Arg.as?, Expr.string, Expr.text?,
      Expr.items?, hinputs, Call.output?, Expr.implicitCall?, dataTypeExpr, Expr.dataType?, nodeOf]
  · simp [nodeExpr, hname, Call.node?, Arg.labelled, Arg.as?, Expr.string, Expr.text?,
      Expr.items?, hinputs, Call.output?, Expr.implicitCall?, dataTypeExpr, Expr.dataType?, nodeOf]

lemma answer?_outputExpr {branch : Branch} :
    (b.call types).answer? (b.inputsOf branch) (outputExpr branch)
      = some (.nodeOutput (b.nodeOf branch) branch.outputName) := by
  by_cases hname : branch.outputName = usualOutput
  · simp [outputExpr, hname, Call.answer?, Expr.implicitCall?, Arg.plain, Arg.as?,
      node?_nodeExpr]
  · simp [outputExpr, hname, Call.answer?, Expr.implicitCall?, Arg.plain, Arg.as?,
      node?_nodeExpr, Expr.string, Expr.text?]

/-- The body of a branch returns the output of its node. -/
lemma run_branchBody (types : ArgumentTypes) {result : TypeExpr} {branch : Branch}
    {body : List Stmt} (h : branchBody b result branch = .ok body) (rest : List Stmt) :
    (b.call types).run [] (body ++ rest)
      = some (b.reply result (b.reads types) (.taken branch)) := by
  obtain ⟨items, hitems, hbody⟩ := bind_eq_ok_iff.1 h
  obtain rfl := Except.ok.inj hbody
  have hread : items.mapM ((b.call types).input? []) = some (b.nodeOf branch).inputs := by
    refine mapM_eq_some (List.forall₂_map_right_iff.2 ?_)
    exact (mapM_eq_ok_iff.1 hitems).flip.imp fun item input hitem => input?_inputExpr hitem
  have hreturn : (b.call types).return? (b.inputsOf branch) (construct result (outputExpr branch))
      = some (b.reply result (b.reads types) (.taken branch)) := by
    rw [return?_construct, answer?_outputExpr]
    rfl
  simp only [List.cons_append, List.nil_append, Call.run, Call.step, hread]
  simp only [inputsOf] at hreturn
  simp [hreturn, reply]

/-! ## Running the statements of a body -/

/-- The guards end a call at the first one that does not hold. -/
lemma run_guards {result : TypeExpr} {guards : List TypeCheck} (rest : List Stmt)
    (h : ∀ g ∈ guards, g.param < b.params.length) :
    (b.call types).run [] (guards.map (guardStmt b result) ++ rest)
      = match (guards.map TypeCheck.onRuntime).find? fun g => !g.holds (b.reads types) with
        | some g => some (b.reply result (b.reads types) (.violated g))
        | none => (b.call types).run [] rest := by
  induction guards with
  | nil => rfl
  | cons g guards ih =>
    rw [List.map_cons, List.cons_append, Call.run, step_guardStmt (h g List.mem_cons_self),
      List.map_cons, List.find?_cons]
    cases hholds : g.onRuntime.holds (b.reads types) with
    | true => exact ih fun g hg => h g (List.mem_cons_of_mem _ hg)
    | false => rfl

lemma fits_onRuntime {branch : Branch} :
    branch.onRuntime.fits (b.reads types)
      = branch.conditions.all fun c => c.onRuntime.holds (b.reads types) := by
  simp [Branch.fits, Branch.onRuntime, List.all_map, Function.comp_def]

/-- The branches end a call at the first one that fits.  The induction is on the branches; a
branch without conditions ends the statements, as it ends the search. -/
lemma run_branchStmts {result : TypeExpr} {branches : List Branch} {stmts : List Stmt}
    (hstmts : branchStmts b result branches = .ok stmts) (rest : List Stmt)
    (h : ∀ branch ∈ branches, ∀ c ∈ branch.conditions, c.param < b.params.length) :
    (b.call types).run [] (stmts ++ rest)
      = match (branches.map Branch.onRuntime).find? (Branch.fits (b.reads types)) with
        | some branch => some (b.reply result (b.reads types) (.taken branch))
        | none => (b.call types).run [] rest := by
  induction branches generalizing stmts with
  | nil =>
    obtain rfl := Except.ok.inj hstmts
    rfl
  | cons branch branches ih =>
    obtain ⟨body, hbody, hstmts⟩ := bind_eq_ok_iff.1 hstmts
    rw [List.map_cons, List.find?_cons, fits_onRuntime]
    rcases hconditions : branch.conditions with _ | ⟨first, others⟩
    -- the branch fits every call, and its statements are the last ones
    · simp only [hconditions] at hstmts
      obtain rfl := Except.ok.inj hstmts
      exact run_branchBody types hbody rest
    -- the branch is a block under its conditions
    · simp only [hconditions] at hstmts
      obtain ⟨following, hfollowing, hstmts⟩ := bind_eq_ok_iff.1 hstmts
      obtain rfl := Except.ok.inj hstmts
      have hrange : ∀ c ∈ first :: others, c.param < b.params.length :=
        fun c hc => h branch List.mem_cons_self c (hconditions ▸ hc)
      have htruth := truth?_checksExpr types hrange
      have hrun := run_branchBody types hbody []
      rw [List.append_nil] at hrun
      rw [List.cons_append, Call.run, Call.step, htruth]
      cases (first :: others).all fun c => c.onRuntime.holds (b.reads types) with
      | true =>
        simp only [Option.bind_eq_bind, Option.bind_some, if_true, hrun]
        rfl
      | false => exact ih hfollowing fun branch hbranch => h branch (List.mem_cons_of_mem _ hbranch)

lemma mapM_reportedSegments (types : ArgumentTypes) (separator : String) {reported : List Nat}
    (h : ∀ index ∈ reported, index < b.params.length) :
    ∃ texts, (reportedSegments b separator reported).mapM ((b.call types).segment? [])
        = some texts ∧
      String.join texts = b.typeReport (b.reads types) separator reported := by
  induction reported generalizing separator with
  | nil => exact ⟨[], rfl, rfl⟩
  | cons index rest ih =>
    obtain ⟨texts, htexts, hjoin⟩ := ih ", " fun i hi => h i (List.mem_cons_of_mem _ hi)
    refine ⟨(separator ++ paramName b index ++ " ") :: b.reads types index :: texts, ?_, ?_⟩
    · simp [reportedSegments, Call.segment?, htexts,
        reported?_reportedType (h index List.mem_cons_self)]
    · simp [typeReport, hjoin, String.append_assoc]

/-- The last statement reports the types of the parameters that the fallback names. -/
lemma run_fallback {result : TypeExpr} {reported : List Nat}
    (h : ∀ index ∈ reported, index < b.params.length) :
    (b.call types).run [] [fallbackStmt b result reported]
      = some (b.reply result (b.reads types) (.unmatched reported)) := by
  obtain ⟨texts, htexts, hjoin⟩ := mapM_reportedSegments types " " h
  have hmessage : (b.call types).message? []
      (.interpolated (.text ("Invalid " ++ b.name ++ " input. Unsupported data types:")
        :: reportedSegments b " " reported))
      = some (b.fallbackMessage (b.reads types) reported) := by
    simp [Call.message?, Call.segment?, htexts, hjoin, fallbackMessage]
  rw [fallbackStmt, Call.run, Call.step, return?_failure hmessage]
  rfl

/-- The body of a function follows the dispatch of the binding that it reads. -/
lemma run_bodyOf (hb : b.InRange) {result : TypeExpr} {body : List Stmt}
    (hbody : bodyOf b result = .ok body) (types : ArgumentTypes) :
    (b.call types).run [] body
      = some (b.reply result (b.reads types) (b.onRuntime.dispatch (b.reads types))) := by
  obtain ⟨stmts, hstmts, hbody⟩ := bind_eq_ok_iff.1 hbody
  obtain rfl := Except.ok.inj hbody
  have hguards : ∀ rest, (b.call types).run [] (b.guards.map (guardStmt b result) ++ rest)
      = match b.onRuntime.violated? (b.reads types) with
        | some g => some (b.reply result (b.reads types) (.violated g))
        | none => (b.call types).run [] rest :=
    fun rest => run_guards rest hb.guards
  have hbranches : ∀ rest, (b.call types).run [] (stmts ++ rest)
      = match b.onRuntime.fitting? (b.reads types) with
        | some branch => some (b.reply result (b.reads types) (.taken branch))
        | none => (b.call types).run [] rest :=
    fun rest => run_branchStmts hstmts rest hb.conditions
  rw [List.append_assoc, hguards, hbranches, dispatch]
  rcases b.onRuntime.violated? (b.reads types) with _ | g
  · rcases b.onRuntime.fitting? (b.reads types) with _ | branch
    -- the call passes all guards and branches, and reaches the end
    · rcases hfallback : b.fallback? with _ | reported
      · simp [onRuntime, hfallback, Call.run, reply]
      · simp [onRuntime, hfallback, run_fallback (hb.reported reported hfallback)]
    · rfl
  · rfl

/-! ## The generated functions -/

lemma name_parameterOf {m : BindingModule} {p : Param} {q : Parameter}
    (h : parameterOf m p = .ok q) : q.name = p.name := by
  obtain ⟨type, -, h⟩ := bind_eq_ok_iff.1 h
  obtain ⟨default, -, h⟩ := bind_eq_ok_iff.1 h
  obtain rfl := Except.ok.inj h
  rfl

/-- The function of a binding has its parameters, by name, and its body. -/
lemma functionOf_eq_ok {m : BindingModule} {f : Function} (h : functionOf m b = .ok f) :
    f.parameters.map (·.name) = b.names ∧ bodyOf b f.returnType = .ok f.body := by
  obtain ⟨parameters, hparameters, h⟩ := bind_eq_ok_iff.1 h
  obtain ⟨result, -, h⟩ := bind_eq_ok_iff.1 h
  obtain ⟨body, hbody, h⟩ := bind_eq_ok_iff.1 h
  obtain rfl := Except.ok.inj h
  refine ⟨?_, hbody⟩
  have hnames := (mapM_eq_ok_iff.1 hparameters).imp fun p q h => (name_parameterOf h).symm
  rw [← List.forall₂_eq_eq_eq]
  exact List.forall₂_map_left_iff.2
    (List.forall₂_map_right_iff.2 (hnames.flip.imp fun _ _ h => h.symm))

/-- The function of a binding runs as the dispatch of the binding that its body reads. -/
lemma execute_functionOf {m : BindingModule} {f : Function} (hf : functionOf m b = .ok f)
    (hb : b.InRange) (types : ArgumentTypes) :
    f.execute types
      = some (b.reply f.returnType (b.reads types) (b.onRuntime.dispatch (b.reads types))) := by
  obtain ⟨hnames, hbody⟩ := functionOf_eq_ok hf
  rw [Function.execute, hnames]
  exact run_bodyOf hb hbody types

lemma Exhaustive.onRuntime (h : b.Exhaustive) : b.onRuntime.Exhaustive := by
  intro hfallback
  obtain ⟨branch, hbranch, hconditions⟩ := h hfallback
  refine ⟨branch.onRuntime, List.mem_map_of_mem hbranch, ?_⟩
  rw [Branch.onRuntime, hconditions]
  rfl

/-- The function of a binding that answers every call ends in a return. -/
lemma exists_execute_eq_returned {m : BindingModule} {f : Function}
    (hf : functionOf m b = .ok f) (hb : b.InRange) (hexhaustive : b.Exhaustive)
    (types : ArgumentTypes) :
    ∃ answer, f.execute types = some (.returned f.returnType.text answer) := by
  rw [execute_functionOf hf hb]
  have hne := hexhaustive.onRuntime.dispatch_ne_unanswered (b.reads types)
  rcases hdispatch : b.onRuntime.dispatch (b.reads types) with g | branch | reported | _
  · exact ⟨_, rfl⟩
  · exact ⟨_, rfl⟩
  · exact ⟨_, rfl⟩
  · exact absurd hdispatch hne

end Binding

namespace Swift.Units

/-- The functions and computed properties of the two files. -/
def declarations (units : Units) : List Function :=
  units.operations.functions ++ units.sources.extensions.flatMap (·.members)

/-- Every binding of a module has its function in one of the files. -/
lemma exists_declaration {m : BindingModule} {units : Units} (h : Units.ofModule m = .ok units)
    {b : Binding} (hb : b ∈ m.bindings) : ∃ f ∈ units.declarations, functionOf m b = .ok f := by
  obtain ⟨functions, hfunctions, h⟩ := bind_eq_ok_iff.1 h
  obtain ⟨members, hmembers, h⟩ := bind_eq_ok_iff.1 h
  obtain rfl := Except.ok.inj h
  rcases hkind : b.kind with _ | _
  · have hmem : b ∈ m.sources := List.mem_filter.2 ⟨hb, by simp [hkind]⟩
    obtain ⟨f, hf, heq⟩ := exists_mem_of_mapM hmembers hmem
    exact ⟨f, by simp [declarations, hf], heq⟩
  · have hmem : b ∈ m.operations := List.mem_filter.2 ⟨hb, by simp [hkind]⟩
    obtain ⟨f, hf, heq⟩ := exists_mem_of_mapM hfunctions hmem
    exact ⟨f, by simp [declarations, hf], heq⟩

end Swift.Units

/-- **A generated function does what the dispatch of its binding says.**  It ends with the failure
of the first guard that does not hold, with the node of the first branch that fits, or with the
failure of the fallback.  The function of the binding of an overload set always returns. -/
theorem execute_eq_reply_dispatch {m : BindingModule} {units : Units}
    (hunits : Units.ofModule m = .ok units) {b : Binding} (hb : b ∈ m.bindings) :
    ∃ f ∈ units.declarations, functionOf m b = .ok f ∧
      (b.InRange → b.names.Nodup → b.ChecksRuntimeTypes → ∀ types,
        f.execute types = some (b.reply f.returnType types (b.dispatch types))) ∧
      (∀ ps, ∀ entry ∈ (group ps).value, ∀ a enums strict, entry.2.analyze.value = .ok a →
        (entry.2.synthesize a enums strict).value = .ok b → ∀ types, ∃ answer,
          f.execute types = some (.returned f.returnType.text answer)) := by
  obtain ⟨f, hmem, hf⟩ := Units.exists_declaration hunits hb
  refine ⟨f, hmem, hf, ?_, ?_⟩
  · intro hrange hnodup hruntime types
    rw [Binding.execute_functionOf hf hrange, Binding.reads_of_nodup hnodup,
      Binding.onRuntime_of_checksRuntimeTypes hruntime]
  · intro ps entry hentry a enums strict ha hsynthesize types
    have hs : entry.2.Uniform := (wellGrouped_of_mem_group hentry).toUniform
    obtain ⟨c, -, rfl, -⟩ := OverloadSet.eq_analysis_of_analyze hs.nonempty ha
    rw [OverloadSet.synthesize_analysis] at hsynthesize
    obtain rfl := Except.ok.inj hsynthesize
    exact Binding.exists_execute_eq_returned hf (OverloadSet.inRange_binding hs)
      (OverloadSet.exhaustive_binding hs) types

/-! ## The function of a family of two nodes -/

/-- The binding of the two nodes. -/
def mixBinding : Binding := mixSet.binding (mixSet.analysis .numeric) .empty

/-- The module with that binding. -/
def mixModule : BindingModule := ⟨[], [mixBinding]⟩

/-- The arguments of a call that the second node answers. -/
def mixColors : ArgumentTypes := fun index => ["color3f", "float", "int", "asset"].getD index ""

theorem execute_eq_reply_dispatch_mix :
    ∃ units, Units.ofModule mixModule = .ok units ∧
      ∃ f ∈ units.declarations, functionOf mixModule mixBinding = .ok f ∧
        f.execute mixColors = some (.returned f.returnType.text
          (.nodeOutput (mixBinding.nodeOf (OverloadSet.branch [0] (mixNode "_color3" "color3f")))
            "out")) ∧
        ∀ types, ∃ answer, f.execute types = some (.returned f.returnType.text answer) := by
  have hok : (Units.ofModule mixModule).toBool = true := by decide +kernel
  rcases hunits : Units.ofModule mixModule with fault | units
  · rw [hunits] at hok
    exact absurd hok Bool.false_ne_true
  have hrange : mixBinding.InRange := by constructor <;> decide +kernel
  have hnodup : mixBinding.names.Nodup := by decide +kernel
  have hruntime : mixBinding.ChecksRuntimeTypes := by constructor <;> decide +kernel
  have hdispatch : mixBinding.dispatch mixColors
      = .taken (OverloadSet.branch [0] (mixNode "_color3" "color3f")) := by decide +kernel
  have hgroup : ("mix", mixSet) ∈ (group mixFamily).value := by decide +kernel
  have hanalyze : mixSet.analyze.value = .ok (mixSet.analysis .numeric) := by decide +kernel
  obtain ⟨f, hmem, hf, hsimulates, hreturns⟩ :=
    execute_eq_reply_dispatch hunits (b := mixBinding) List.mem_cons_self
  refine ⟨units, rfl, f, hmem, hf, ?_, ?_⟩
  · rw [hsimulates hrange hnodup hruntime, hdispatch]
    rfl
  · exact hreturns mixFamily _ hgroup _ .empty false hanalyze
      (by rw [OverloadSet.synthesize_analysis]; rfl)

end ShaderBindings
