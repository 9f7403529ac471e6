/-
# The shapes of defaults

A default is one literal, a tuple of floats or a square matrix of floats.  Four tables have to
agree on its shape:

* the category and the number of components of its socket, which decide whether it can stand
  there (`exists_hasShape`);
* the runtime type of its schema type (`runtimeShapes`);
* the host's type for constants (`isDefault_constantExpr?`);
* the case of the class of graph values (`hasType_valueExpr?`).

Defaults that agree with one another have one shape, so the default of a whole position has the
shape that its first socket asks for.
-/
import ShaderBindings.Overload.Analysis
import ShaderBindings.Proofs.Loading
import ShaderBindings.Proofs.Typing

namespace ShaderBindings

open Swift

/-! ## Literals -/

/-- The literal has the shape. -/
inductive Literal.HasShape : Literal → Shape → Prop where
  | bool (b : Bool) : HasShape (.bool b) (.literal .bool)
  | int (n : Int) : HasShape (.int n) (.literal .integer)
  | float (x : Float) : HasShape (.float x) (.literal .float)
  | string (s : String) : HasShape (.string s) (.literal .string)
  | tuple {xs : List Float} {n : Nat} : xs.length = n → HasShape (.tuple xs) (.floats n)
  | matrix {rows : List (List Float)} {n : Nat} : rows.length = n →
      (∀ row ∈ rows, row.length = n) → HasShape (.matrix rows) (.square n)

lemma map_length_eq_of_beq {rows rows' : List (List Float)} (h : (rows == rows') = true) :
    rows.map List.length = rows'.map List.length := by
  induction rows generalizing rows' with
  | nil =>
    cases rows' with
    | nil => rfl
    | cons row' rest' => exact absurd h (by simp)
  | cons row rest ih =>
    cases rows' with
    | nil => exact absurd h (by simp)
    | cons row' rest' =>
      rw [List.cons_beq_cons, Bool.and_eq_true] at h
      rw [List.map_cons, List.map_cons, List.length_eq_of_beq h.1, ih h.2]

/-- Literals that agree have one shape. -/
lemma Literal.HasShape.of_agrees {a b : Literal} {shape : Shape} (ha : a.HasShape shape)
    (h : a.agrees b = true) : b.HasShape shape := by
  cases ha with
  | bool => cases b with
    | bool b => exact .bool b
    | _ => exact absurd h Bool.false_ne_true
  | int => cases b with
    | int n => exact .int n
    | _ => exact absurd h Bool.false_ne_true
  | float => cases b with
    | float x => exact .float x
    | _ => exact absurd h Bool.false_ne_true
  | string => cases b with
    | string s => exact .string s
    | _ => exact absurd h Bool.false_ne_true
  | tuple hlength => cases b with
    | tuple ys => exact .tuple ((List.length_eq_of_beq h).symm.trans hlength)
    | _ => exact absurd h Bool.false_ne_true
  | matrix hlength hrows => cases b with
    | matrix rows' =>
      have hlengths := map_length_eq_of_beq h
      refine .matrix ((List.length_eq_of_beq h).symm.trans hlength) fun row' hrow' => ?_
      have hmem := List.mem_map_of_mem (f := List.length) hrow'
      rw [← hlengths] at hmem
      obtain ⟨row, hrow, heq⟩ := List.mem_map.1 hmem
      exact heq.symm.trans (hrows row hrow)
    | _ => exact absurd h Bool.false_ne_true

/-! ## Schema types -/

/-- The runtime types of sockets with defaults, each with the shape of the defaults. -/
def runtimeShapes : List (String × Shape) :=
  [("float", .literal .float),
    ("half", .literal .float),
    ("int", .literal .integer),
    ("bool", .literal .bool),
    ("string", .literal .string),
    ("token", .literal .string),
    ("vector2f", .floats 2),
    ("vector3f", .floats 3),
    ("color3f", .floats 3),
    ("vector4f", .floats 4),
    ("color4f", .floats 4),
    ("vector2h", .floats 2),
    ("vector3h", .floats 3),
    ("vector4h", .floats 4),
    ("vector2i", .floats 2),
    ("vector3i", .floats 3),
    ("vector4i", .floats 4),
    ("matrix2d", .square 2),
    ("matrix3d", .square 3),
    ("matrix4d", .square 4)]

/-- The shape that a socket of the category and the schema type asks for. -/
def shapeOf? (c : Category) (typeName : String) : Option Shape :=
  match c with
  | .value => some (.literal .bool)
  | .scalar => some (.literal (if DataType.isInteger typeName then .integer else .float))
  | .string => some (.literal .string)
  | .vector | .color => (DataType.components? (DataType.runtime typeName)).map .floats
  | .matrix => (DataType.components? (DataType.runtime typeName)).map .square
  | _ => none

variable {typeName : String} {c : Category} {shape : Shape}

lemma exists_family_of_intrinsic? (h : DataType.intrinsic? typeName = some c) :
    ∃ family ∈ DataType.categoryFamilies, family.1 = c ∧ typeName ∈ family.2 := by
  obtain ⟨family, hfind, hc⟩ := Option.map_eq_some_iff.1 h
  have hcontains := List.find?_some hfind
  exact ⟨family, List.mem_of_find?_eq_some hfind, hc, List.contains_iff_mem.1 hcontains⟩

/-- The table of runtime types gives each schema type the shape that its category asks for. -/
lemma lookup_runtimeShapes (h : DataType.intrinsic? typeName = some c) :
    runtimeShapes.lookup (DataType.runtime typeName) = shapeOf? c typeName := by
  have hall : ∀ family ∈ DataType.categoryFamilies, ∀ t ∈ family.2,
      runtimeShapes.lookup (DataType.runtime t) = shapeOf? family.1 t := by decide
  obtain ⟨family, hfamily, rfl, hmem⟩ := exists_family_of_intrinsic? h
  exact hall family hfamily typeName hmem

/-- A runtime type that is a case of the class of graph values has the category of its schema
types. -/
lemma category_runtime (h : DataType.intrinsic? typeName = some c)
    (hshape : payloads.lookup (DataType.runtime typeName) = some shape) :
    DataType.category (DataType.runtime typeName) = c := by
  have hall : ∀ family ∈ DataType.categoryFamilies, ∀ t ∈ family.2,
      (payloads.lookup (DataType.runtime t)).isSome →
        DataType.category (DataType.runtime t) = family.1 := by decide
  obtain ⟨family, hfamily, rfl, hmem⟩ := exists_family_of_intrinsic? h
  exact hall family hfamily typeName hmem (by rw [hshape]; rfl)

lemma intrinsic?_of_category (h : DataType.category typeName = c)
    (hknown : ∀ raw, c ≠ .unknown raw) : DataType.intrinsic? typeName = some c := by
  rw [DataType.category] at h
  rcases hintrinsic : DataType.intrinsic? typeName with _ | found
  · rw [hintrinsic] at h
    exact absurd h.symm (hknown typeName)
  · rw [hintrinsic] at h
    exact congrArg some h

/-- A default that can stand at a socket has the shape that the socket asks for. -/
lemma exists_shapeOf? {x : Socket} (hx : x.IsLoaded) (hplain : x.category.isEnumerated = false)
    {l : Literal} (hl : l ∈ x.default?) (h : OverloadSet.isRepresentable x l = true) :
    ∃ shape, shapeOf? x.category x.dataType = some shape ∧ l.HasShape shape := by
  have hsuits := hx.default l hl
  unfold OverloadSet.isRepresentable at h
  rw [hx.runtimeType] at h
  dsimp only at h
  split at h
  -- an enumeration
  · rename_i hc
    rw [hc] at hplain
    exact absurd hplain (by simp [Category.isEnumerated])
  -- a float
  · rename_i z hc
    have hfloat : DataType.isInteger x.dataType = false := hsuits
    exact ⟨.literal .float, by rw [hc, shapeOf?, hfloat]; rfl, .float z⟩
  -- an integer
  · rename_i n hc
    have hinteger : DataType.isInteger x.dataType = true := hsuits
    exact ⟨.literal .integer, by rw [hc, shapeOf?, hinteger]; rfl, .int n⟩
  -- a flag
  · rename_i b hc
    exact ⟨.literal .bool, by rw [hc]; rfl, .bool b⟩
  -- a text
  · rename_i t hc
    exact ⟨.literal .string, by rw [hc]; rfl, .string t⟩
  -- a vector
  · rename_i xs hc
    exact ⟨.floats xs.length, by rw [hc, shapeOf?, of_decide_eq_true h]; rfl, .tuple rfl⟩
  -- a color
  · rename_i xs hc
    exact ⟨.floats xs.length, by rw [hc, shapeOf?, of_decide_eq_true h]; rfl, .tuple rfl⟩
  -- a matrix
  · rename_i rows hc
    obtain ⟨hwidth, hrows⟩ := Bool.and_eq_true_iff.1 h
    refine ⟨.square rows.length, by rw [hc, shapeOf?, of_decide_eq_true hwidth]; rfl, ?_⟩
    exact .matrix rfl fun row hrow => of_decide_eq_true (List.all_eq_true.1 hrows row hrow)
  -- anything else
  · exact absurd h Bool.false_ne_true

/-- The default of a loaded socket has the shape of its runtime type, when it can stand there. -/
lemma exists_hasShape {x : Socket} (hx : x.IsLoaded) (hplain : x.category.isEnumerated = false)
    {l : Literal} (hl : l ∈ x.default?) (h : OverloadSet.isRepresentable x l = true) :
    DataType.intrinsic? x.dataType = some x.category ∧
      ∃ shape, runtimeShapes.lookup (DataType.runtime x.dataType) = some shape ∧
        l.HasShape shape := by
  obtain ⟨shape, hshape, hl⟩ := exists_shapeOf? hx hplain hl h
  have hcategory : DataType.category x.dataType = x.category := by
    rcases hx.category with henumerated | heq
    · rw [hplain] at henumerated
      exact absurd henumerated Bool.false_ne_true
    · exact heq.symm
  have hknown : ∀ raw, x.category ≠ .unknown raw := by
    intro raw hraw
    rw [hraw] at hshape
    exact absurd hshape (by simp [shapeOf?])
  have hintrinsic := intrinsic?_of_category hcategory hknown
  exact ⟨hintrinsic, shape, (lookup_runtimeShapes hintrinsic).trans hshape, hl⟩

/-! ## Constants of the host -/

/-- The constants of the type are written from defaults of the shape.  The components are floats
in every vector. -/
inductive Swift.Shape.IsWritten : Shape → TypeExpr → Prop where
  | literal {kind : LiteralKind} {scalar : String} : scalarKinds.lookup scalar = some kind →
      IsWritten (.literal kind) (.named scalar)
  | floats {n : Nat} {scalar : String} : scalarKinds.lookup scalar = some .float →
      IsWritten (.floats n) (simdType n scalar)
  | integers {n : Nat} : 0 < n → IsWritten (.floats n) (simdType n "Int")
  | square {n : Nat} : n < 256 → IsWritten (.square n) (.named (matrixName n))

lemma isWritten_constantType (h : runtimeShapes.lookup (DataType.runtime typeName) = some shape) :
    shape.IsWritten (constantType typeName) := by
  have hall : ∀ entry ∈ runtimeShapes, ∃ t, constantTypes.lookup entry.1 = some t ∧
      entry.2.IsWritten t := by
    simp only [runtimeShapes, List.forall_mem_cons]
    refine ⟨⟨_, rfl, .literal rfl⟩, ⟨_, rfl, .literal rfl⟩, ⟨_, rfl, .literal rfl⟩,
      ⟨_, rfl, .literal rfl⟩, ⟨_, rfl, .literal rfl⟩, ⟨_, rfl, .literal rfl⟩,
      ⟨_, rfl, .floats rfl⟩, ⟨_, rfl, .floats rfl⟩, ⟨_, rfl, .floats rfl⟩,
      ⟨_, rfl, .floats rfl⟩, ⟨_, rfl, .floats rfl⟩, ⟨_, rfl, .floats rfl⟩,
      ⟨_, rfl, .floats rfl⟩, ⟨_, rfl, .floats rfl⟩, ⟨_, rfl, .integers (by decide)⟩,
      ⟨_, rfl, .integers (by decide)⟩, ⟨_, rfl, .integers (by decide)⟩,
      ⟨_, rfl, .square (by decide)⟩, ⟨_, rfl, .square (by decide)⟩,
      ⟨_, rfl, .square (by decide)⟩, fun _ h => absurd h List.not_mem_nil⟩
  obtain ⟨t, ht, hwritten⟩ := hall _ (Dictionary.mem_of_get? h)
  rw [constantType, ht]
  exact hwritten

variable {enums : List Enumeration} {l : Literal} {e : Expr}

lemma areLiterals_floatArgs {xs : List Float} {n : Nat} (h : xs.length = n) :
    AreLiterals .float n (floatArgs xs) where
  length_eq := by rw [floatArgs, List.length_map, h]
  literals := by
    intro a ha
    obtain ⟨x, -, rfl⟩ := List.mem_map.1 ha
    exact ⟨_, ⟨.float x, rfl, rfl⟩, rfl⟩

lemma isLiteral_constantExpr? {kind : LiteralKind} (hl : l.HasShape (.literal kind))
    (he : constantExpr? l typeName = some e) : IsLiteral kind e := by
  cases hl <;> exact ⟨_, rfl, (Option.some.inj he).symm⟩

lemma isMatrix_constantExpr? {n : Nat} (hn : n < 256) (hl : l.HasShape (.square n))
    (he : constantExpr? l typeName = some e) : IsMatrix n e := by
  cases hl with
  | matrix hlength hrows =>
    rename_i rows
    have hmod : rows.length % 256 = n := by
      rw [hlength]
      exact Nat.mod_eq_of_lt hn
    obtain rfl := Option.some.inj he
    rw [hmod]
    refine ⟨_, (List.length_map _).trans hlength, fun row hrow => ?_, rfl⟩
    obtain ⟨xs, hxs, rfl⟩ := List.mem_map.1 hrow
    refine ⟨floatArgs xs, areLiterals_floatArgs (hrows xs hxs), ?_⟩
    simp [simdType, TypeExpr.text, TypeExpr.texts, commaList, String.append_assoc]

lemma isVector_constantExpr? {n : Nat} {scalar : String}
    (htype : constantType typeName = simdType n scalar) (hl : l.HasShape (.floats n))
    (he : constantExpr? l typeName = some e) : IsVector .float n scalar e := by
  cases hl with
  | tuple hlength =>
    rename_i xs
    have hcall : constantExpr? (.tuple xs) typeName
        = some (.call (.identifier (simdType n scalar).text) (floatArgs xs)) := by
      simp only [constantExpr?, htype]
      rfl
    obtain rfl := Option.some.inj (hcall.symm.trans he)
    exact ⟨_, areLiterals_floatArgs hlength, rfl⟩

/-- A constant of a schema type is a default of the host's type for it. -/
lemma isDefault_constantExpr?
    (h : runtimeShapes.lookup (DataType.runtime typeName) = some shape) (hl : l.HasShape shape)
    (he : constantExpr? l typeName = some e) : IsDefault enums (constantType typeName) e := by
  have hwritten := isWritten_constantType h
  generalize htype : constantType typeName = t at hwritten
  cases hwritten with
  | literal hkind =>
    have hliteral := isLiteral_constantExpr? hl he
    exact .of_hasType (.literal hkind hliteral) (not_isIntegerVector_named _)
  | floats hscalar =>
    have hvector := isVector_constantExpr? htype hl he
    refine .of_hasType (.vector hscalar hvector) ?_
    rintro ⟨k, -, heq⟩
    obtain ⟨-, rfl⟩ := simdType_inj heq
    exact absurd hscalar (by decide)
  | integers hn => exact .of_isVector hn (isVector_constantExpr? htype hl he)
  | square hn =>
    have hmatrix := isMatrix_constantExpr? hn hl he
    exact .of_hasType (.matrix hmatrix) (not_isIntegerVector_named _)

/-! ## Values of the graph -/

/-- The cases of the class of graph values have the shapes of the runtime types. -/
lemma lookup_payloads {names : List String} (hnames : names ⊆ payloads.map Prod.fst) {r : String}
    (hr : r ∈ names) (h : runtimeShapes.lookup r = some shape) :
    payloads.lookup r = some shape := by
  have hall : ∀ r ∈ payloads.map Prod.fst, payloads.lookup r = runtimeShapes.lookup r := by decide
  exact (hall r (hnames hr)).trans h

/-- A default of one of these runtime types is one literal. -/
lemma exists_kind {r : String} (hr : r ∈ ["float", "half", "int", "string"])
    (h : runtimeShapes.lookup r = some shape) : ∃ kind, shape = .literal kind := by
  have hall : ∀ r ∈ ["float", "half", "int", "string"], runtimeShapes.lookup r
      ∈ [some (.literal .float), some (.literal .integer), some (.literal .string)] := by decide
  have hmem := hall r hr
  rw [h] at hmem
  simp only [List.mem_cons, Option.some.injEq, List.not_mem_nil, or_false] at hmem
  rcases hmem with rfl | rfl | rfl <;> exact ⟨_, rfl⟩

lemma Swift.Shape.IsWritten.lt_of_square {n : Nat} {t : TypeExpr}
    (h : (Shape.square n).IsWritten t) : n < 256 := by
  cases h with
  | square hn => exact hn

/-- The arguments of a value of the graph fit its case. -/
lemma fits_valueArgs? {args : List Arg}
    (h : runtimeShapes.lookup (DataType.runtime typeName) = some shape) (hl : l.HasShape shape)
    (hargs : valueArgs? l typeName = some args) :
    payloads.lookup (DataType.runtime typeName) = some shape ∧ shape.Fits args := by
  have hwritten := isWritten_constantType h
  simp only [valueArgs?, List.contains_iff_mem] at hargs
  split_ifs at hargs with hone htuple hmatrix
  -- one literal
  · obtain ⟨kind, rfl⟩ := exists_kind hone h
    obtain ⟨e, he, rfl⟩ := Option.map_eq_some_iff.1 hargs
    refine ⟨lookup_payloads (by decide) hone h, rfl, fun a ha => ?_⟩
    exact ⟨e, isLiteral_constantExpr? hl he, List.mem_singleton.1 ha⟩
  -- a vector or a color
  · refine ⟨lookup_payloads (by decide) htuple h, ?_⟩
    cases hl with
    | tuple hlength =>
      obtain rfl := Option.some.inj hargs
      exact areLiterals_floatArgs hlength
    | _ => exact absurd hargs (by simp)
  -- a matrix
  · refine ⟨lookup_payloads (by decide) hmatrix h, ?_⟩
    cases hl with
    | matrix hlength hrows =>
      obtain ⟨e, he, rfl⟩ := Option.map_eq_some_iff.1 hargs
      exact ⟨e, isMatrix_constantExpr? hwritten.lt_of_square (.matrix hlength hrows) he, rfl⟩
    | _ => exact absurd hargs (by simp)

/-- A value of the graph has the class of its category and every class that is wider. -/
lemma hasType_valueExpr? {c' : Category} (hintrinsic : DataType.intrinsic? typeName = some c)
    (h : runtimeShapes.lookup (DataType.runtime typeName) = some shape) (hl : l.HasShape shape)
    (hjoin : Category.join? [c, c'] = some c') (he : valueExpr? l typeName = some e) :
    HasType enums (.named (className c')) e := by
  obtain ⟨args, hargs, rfl⟩ := Option.map_eq_some_iff.1 he
  obtain ⟨hpayload, hfits⟩ := fits_valueArgs? h hl hargs
  refine .graphValue hpayload hfits ?_
  rw [category_runtime hintrinsic hpayload]
  exact hjoin

end ShaderBindings
