/-
# Names in a signature

A signature names its parameters in the scope of the body, which declares the inputs of a node, and
beside the type parameter.  So the names have to be distinct identifiers, other than the names of
the locals and of the type parameter (`Function.Hygienic`).

The body of a generated function declares one name only (`mem_localsOf_bodyOf_iff`), and the names
of the parameters are those of the inputs of the first node that the function stands for, as the
schema writes them.  So a signature is hygienic exactly when the schema names these inputs well.
-/
import ShaderBindings.Proofs.Defaults
import ShaderBindings.Proofs.Origins

namespace ShaderBindings

open Fault Swift

/-! ## Hygiene -/

/-- A letter or an underscore, and then letters, digits and underscores, all of them ASCII. -/
def IsIdentifier (name : String) : Prop :=
  ∃ c rest, name.toList = c :: rest ∧ (c.isAlpha ∨ c = '_') ∧ ∀ d ∈ rest, d.isAlphanum ∨ d = '_'

/-- A blank stands in no identifier. -/
lemma not_isIdentifier_of_blank {name : String} (h : ' ' ∈ name.toList) : ¬ IsIdentifier name := by
  rintro ⟨c, rest, hname, hfirst, hrest⟩
  rw [hname, List.mem_cons] at h
  rcases h with rfl | h
  · exact absurd hfirst (by decide)
  · exact absurd (hrest ' ' h) (by decide)

/-- The names can stand in one signature: they are distinct identifiers, and none is a name that
the generator introduces. -/
structure HygienicNames (names : List String) : Prop where
  nodup : names.Nodup
  identifiers : ∀ name ∈ names, IsIdentifier name
  inputs : inputsName ∉ names
  placeholder : genericPlaceholder ∉ names

namespace Swift

namespace Stmt

mutual

/-- The names that a statement declares. -/
def locals : Stmt → List String
  | letArray name _ _ => [name]
  | ret _ => []
  | cond _ body => localsOf body
  | guardElse _ body => localsOf body

/-- The names that some statements declare. -/
def localsOf : List Stmt → List String
  | [] => []
  | s :: rest => locals s ++ localsOf rest

end

lemma mem_localsOf_append {name : String} {before after : List Stmt} :
    name ∈ localsOf (before ++ after) ↔ name ∈ localsOf before ∨ name ∈ localsOf after := by
  induction before with
  | nil => simp [localsOf]
  | cons s rest ih => simp [localsOf, ih, or_assoc]

end Stmt

/-- The names of the parameters of a function. -/
def Function.names (f : Function) : List String := f.parameters.map (·.name)

/-- The parameters of a function are distinct identifiers, none of which is declared in the body
or is the name of the type parameter. -/
structure Function.Hygienic (f : Function) : Prop where
  nodup : f.names.Nodup
  identifiers : ∀ name ∈ f.names, IsIdentifier name
  locals : ∀ name ∈ Stmt.localsOf f.body, name ∉ f.names
  placeholder : genericPlaceholder ∉ f.names

/-! ## Locals of a body -/

section Bodies

variable {b : Binding} {result : TypeExpr}

lemma localsOf_branchBody {branch : Branch} {stmts : List Stmt}
    (h : branchBody b result branch = .ok stmts) : Stmt.localsOf stmts = [inputsName] := by
  obtain ⟨items, -, h⟩ := bind_eq_ok_iff.1 h
  obtain rfl := Except.ok.inj h
  rfl

/-- The statements for some branches declare the inputs of the nodes and nothing else. -/
lemma mem_localsOf_branchStmts_iff {branches : List Branch} {stmts : List Stmt}
    (h : branchStmts b result branches = .ok stmts) (hne : branches ≠ []) {name : String} :
    name ∈ Stmt.localsOf stmts ↔ name = inputsName := by
  induction branches generalizing stmts with
  | nil => exact absurd rfl hne
  | cons branch rest ih =>
    obtain ⟨body, hbody, h⟩ := bind_eq_ok_iff.1 h
    have hlocals := localsOf_branchBody hbody
    split at h
    -- the branch is always taken and ends the statements
    · obtain rfl := Except.ok.inj h
      rw [hlocals, List.mem_singleton]
    -- the branch has conditions
    · obtain ⟨following, hfollowing, h⟩ := bind_eq_ok_iff.1 h
      obtain rfl := Except.ok.inj h
      rw [Stmt.localsOf, Stmt.locals, hlocals, List.mem_append, List.mem_singleton]
      rcases rest with _ | ⟨next, rest⟩
      · obtain rfl := Except.ok.inj hfollowing
        simp [Stmt.localsOf]
      · rw [ih hfollowing (List.cons_ne_nil next rest), or_self]

/-- The body of a binding with branches declares the inputs of the nodes and nothing else. -/
lemma mem_localsOf_bodyOf_iff {body : List Stmt} (h : bodyOf b result = .ok body)
    (hne : b.branches ≠ []) {name : String} :
    name ∈ Stmt.localsOf body ↔ name = inputsName := by
  obtain ⟨stmts, hstmts, h⟩ := bind_eq_ok_iff.1 h
  obtain rfl := Except.ok.inj h
  have hguards : name ∉ Stmt.localsOf (b.guards.map (guardStmt b result)) := by
    induction b.guards with
    | nil => simp [Stmt.localsOf]
    | cons g rest ih => simpa [guardStmt, Stmt.localsOf, Stmt.locals] using ih
  have hfallback : name ∉ Stmt.localsOf (b.fallback?.map (fallbackStmt b result)).toList := by
    rcases b.fallback? with _ | reported
    · simp [Stmt.localsOf]
    · simp [fallbackStmt, Stmt.localsOf, Stmt.locals]
  rw [Stmt.mem_localsOf_append, Stmt.mem_localsOf_append, mem_localsOf_branchStmts_iff hstmts hne]
  simp [hguards, hfallback]

end Bodies

end Swift

/-- A function is hygienic when the names of its parameters are. -/
lemma hygienic_functionOf_iff {m : BindingModule} {b : Binding} {f : Function}
    (h : functionOf m b = .ok f) (hne : b.branches ≠ []) :
    f.Hygienic ↔ HygienicNames b.names := by
  obtain ⟨hnames, hbody⟩ := Binding.functionOf_eq_ok h
  have hlocals : (∀ name ∈ Stmt.localsOf f.body, name ∉ f.names) ↔ inputsName ∉ f.names := by
    simp only [mem_localsOf_bodyOf_iff hbody hne, forall_eq]
  rw [← hnames]
  exact ⟨fun hf => ⟨hf.nodup, hf.identifiers, hlocals.1 hf.locals, hf.placeholder⟩,
    fun hn => ⟨hn.nodup, hn.identifiers, hlocals.2 hn.inputs, hn.placeholder⟩⟩

/-! ## Parameters -/

/-- The text in front of a parameter without a label. -/
def Swift.Parameter.mark (p : Parameter) : String := if p.label?.isSome then "" else "_ "

/-- A parameter is printed with its own name, between backquotes when it is a reserved word. -/
lemma exists_text_parameterOf {m : BindingModule} {p : Param} {q : Parameter}
    (h : parameterOf m p = .ok q) :
    ∃ rest, q.text = q.mark ++ identifier q.name ++ ": " ++ rest := by
  have hhead : q.head = q.mark ++ identifier q.name := by
    obtain ⟨type, -, h⟩ := bind_eq_ok_iff.1 h
    obtain ⟨default, -, h⟩ := bind_eq_ok_iff.1 h
    obtain rfl := Except.ok.inj h
    cases hlabelling : p.labelling with
    | positional => simp [Parameter.head, Parameter.mark]
    | named => simp [Parameter.head, Parameter.mark]
  rw [Parameter.text, hhead]
  split
  · rename_i value _
    exact ⟨q.type.text ++ (" = " ++ value.text 0), by simp only [String.append_assoc]⟩
  · exact ⟨q.type.text, rfl⟩

/-- The parameters of a function are printed with the names that its binding gives them. -/
lemma exists_text_functionOf {m : BindingModule} {b : Binding} {f : Function}
    (h : functionOf m b = .ok f) {q : Parameter} (hq : q ∈ f.parameters) :
    ∃ rest, q.text = q.mark ++ identifier q.name ++ ": " ++ rest := by
  obtain ⟨parameters, hparameters, h⟩ := bind_eq_ok_iff.1 h
  obtain ⟨result, -, h⟩ := bind_eq_ok_iff.1 h
  obtain ⟨body, -, h⟩ := bind_eq_ok_iff.1 h
  obtain rfl := Except.ok.inj h
  obtain ⟨p, -, hp⟩ := exists_of_mem_mapM hparameters hq
  exact exists_text_parameterOf hp

/-! ## Generation -/

/-- **A signature is as hygienic as the schema.**  Every generated function stands for some nodes,
and its parameters have the names of the inputs of the first one, in their order.  So it is hygienic
exactly when the schema names these inputs with distinct identifiers other than the names that the
generator introduces.  In the text each parameter stands under its name, which is quoted when it is
a reserved word. -/
theorem hygienic_iff {schema : String} {descriptions : Schema.Descriptions} {strict : Bool}
    {g : Generated} (h : generate schema descriptions strict = .ok g) :
    ∃ stage m units, Schema.Stage.ofText? schema = some stage ∧
      ((Session.new strict).run stage descriptions).1 = .ok m ∧
      filesOf? schema descriptions strict = some units ∧
      g.operations = units.operations.text ∧ g.sources = units.sources.text ∧
      ∀ f ∈ units.declarations, ∃ b ∈ m.bindings, ∃ prim ∈ stage.nodes,
        functionOf m b = .ok f ∧ b.nodeIds.head? = some prim.name ∧ f.names = prim.inputNames ∧
        (f.Hygienic ↔ HygienicNames prim.inputNames) ∧
        ∀ p ∈ f.parameters, ∃ rest, p.text = p.mark ++ identifier p.name ++ ": " ++ rest := by
  obtain ⟨units, hunits, hoperations, hsources⟩ := exists_filesOf? h
  obtain ⟨stage, m, session, hstage, hrun, -, hmodule⟩ := filesOf?_eq_some_iff.1 hunits
  refine ⟨stage, m, units, hstage, by rw [hrun], hunits, hoperations, hsources, fun f hf => ?_⟩
  obtain ⟨b, hb, hfunction⟩ := exists_binding hmodule hf
  obtain ⟨prim, hprim, hfirst, hinputs⟩ := exists_prim_of_names hrun hb
  have hnames : f.names = prim.inputNames :=
    (Binding.functionOf_eq_ok hfunction).1.trans hinputs
  have hne : b.branches ≠ [] := by
    intro hnil
    simp [Binding.nodeIds, hnil] at hfirst
  refine ⟨b, hb, prim, hprim, hfunction, hfirst, hnames, ?_,
    fun p hp => exists_text_functionOf hfunction hp⟩
  rw [← hinputs]
  exact hygienic_functionOf_iff hfunction hne

/-! ## A node with careless names -/

/-- The lines of the text of a node whose inputs have a name with a blank, one name twice, which is
that of the inputs in a body, and the name of the type parameter. -/
def blendLines : List String :=
  ["\x7b\"prims\":[\x7b\"path\":\"/ND_blend\",\"properties\":[",
    "\x7b\"name\":\"inputs:edge width\",\"typeName\":\"float\"\x7d,",
    "\x7b\"name\":\"inputs:inputs\",\"typeName\":\"float\"\x7d,",
    "\x7b\"name\":\"inputs:inputs\",\"typeName\":\"float\"\x7d,",
    "\x7b\"name\":\"inputs:T\",\"typeName\":\"float\"\x7d,",
    "\x7b\"name\":\"outputs:out\",\"typeName\":\"float\"\x7d]\x7d]\x7d"]

def blendSchema : String := String.join blendLines

def blendNames : List String := ["edge width", "inputs", "inputs", "T"]

lemma exists_filesOf?_blend : ∃ units f, filesOf? blendSchema [] false = some units ∧
    f ∈ units.declarations ∧ f.names = blendNames ∧ inputsName ∈ Stmt.localsOf f.body := by
  have htext : blendSchema.toList = blendLines.flatMap String.toList := String.toList_join
  have hfunctions : (filesOf? blendSchema [] false).map (fun units =>
      units.declarations.map fun f => (f.names, Stmt.localsOf f.body))
        = some [(blendNames, [inputsName])] := by
    rw [filesOf?, Schema.Stage.ofText?, Json.Document.ofText?, htext]
    decide +kernel
  obtain ⟨units, hunits, hfunctions⟩ := Option.map_eq_some_iff.1 hfunctions
  have hmem : (blendNames, [inputsName])
      ∈ units.declarations.map fun f => (f.names, Stmt.localsOf f.body) :=
    hfunctions ▸ List.mem_cons_self
  obtain ⟨f, hf, heq⟩ := List.mem_map.1 hmem
  obtain ⟨hnames, hlocals⟩ := Prod.mk.inj heq
  exact ⟨units, f, hunits, hf, hnames, hlocals ▸ List.mem_singleton_self _⟩

theorem hygienic_iff_blend :
    ∃ g units f stage prim, generate blendSchema [] false = .ok g ∧
      filesOf? blendSchema [] false = some units ∧ g.operations = units.operations.text ∧
      f ∈ units.declarations ∧ Schema.Stage.ofText? blendSchema = some stage ∧
      prim ∈ stage.nodes ∧ prim.inputNames = blendNames ∧ f.names = blendNames ∧
      (f.Hygienic ↔ HygienicNames prim.inputNames) ∧
      ∀ p ∈ f.parameters, ∃ rest, p.text = p.mark ++ identifier p.name ++ ": " ++ rest := by
  obtain ⟨units, f, hunits, hf, hnames, -⟩ := exists_filesOf?_blend
  obtain ⟨g, hg⟩ := exists_generate hunits
  obtain ⟨stage, m, units', hstage, -, hunits', hoperations, -, hall⟩ := hygienic_iff hg
  obtain rfl := Option.some.inj (hunits.symm.trans hunits')
  obtain ⟨b, -, prim, hprim, -, -, hinputs, hiff, htext⟩ := hall f hf
  exact ⟨g, units, f, stage, prim, hg, hunits, hoperations, hf, hstage, hprim,
    hinputs.symm.trans hnames, hnames, hiff, htext⟩

/-- A generated function may break every part of hygiene. -/
theorem not_hygienic_blend :
    ∃ g units f, generate blendSchema [] false = .ok g ∧
      filesOf? blendSchema [] false = some units ∧ g.operations = units.operations.text ∧
      f ∈ units.declarations ∧ ¬ f.names.Nodup ∧ ¬ (∀ name ∈ f.names, IsIdentifier name) ∧
      ¬ (∀ name ∈ Stmt.localsOf f.body, name ∉ f.names) ∧ genericPlaceholder ∈ f.names := by
  obtain ⟨units, f, hunits, hf, hnames, hlocal⟩ := exists_filesOf?_blend
  obtain ⟨g, hg⟩ := exists_generate hunits
  obtain ⟨units', hunits', hoperations, -⟩ := exists_filesOf? hg
  obtain rfl := Option.some.inj (hunits.symm.trans hunits')
  refine ⟨g, units, f, hg, hunits, hoperations, hf, ?_, fun hall => ?_, fun hall => ?_, ?_⟩
  · rw [hnames]
    decide
  · rw [hnames] at hall
    exact not_isIdentifier_of_blank (by decide) (hall "edge width" List.mem_cons_self)
  · have hfree := hall inputsName hlocal
    rw [hnames] at hfree
    exact hfree (by decide)
  · rw [hnames]
    decide

end ShaderBindings
