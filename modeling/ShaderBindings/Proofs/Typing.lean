/-
# The types of default values

A default of a generated parameter is a literal, a vector or a matrix of literals, a case of an
enumeration, or a value of the graph.  `HasType` says which of these has which type of the host.

Two tables describe the host.  A scalar type has one kind of literal, and a case of the class of
graph values holds values of one shape.  An enumeration with the name of one of the host's own
types would hide that type, so a case of it has no type here.
-/
import Mathlib.Data.List.Basic
import ShaderBindings.Category.Join
import ShaderBindings.Proofs.Registry
import ShaderBindings.Swift.Units

namespace ShaderBindings.Swift

/-! ## Literals -/

/-- A kind of literals. -/
inductive LiteralKind where
  | bool
  | integer
  | float
  | string
deriving DecidableEq, Repr

/-- The kind of a constant.  The missing value is no literal. -/
def Constant.kind? : Constant → Option LiteralKind
  | .string _ => some .string
  | .float _ => some .float
  | .int _ => some .integer
  | .bool _ => some .bool
  | .nil => none

/-- The scalar types, each with the kind of its literals. -/
def scalarKinds : List (String × LiteralKind) :=
  [("Bool", .bool),
    ("Int", .integer),
    ("Float", .float),
    ("Float16", .float),
    ("String", .string)]

/-- The expression is one literal of the kind. -/
def IsLiteral (kind : LiteralKind) (e : Expr) : Prop :=
  ∃ c : Constant, c.kind? = some kind ∧ e = .constant c

/-- The arguments are `n` literals of the kind, without labels. -/
structure AreLiterals (kind : LiteralKind) (n : Nat) (args : List Arg) : Prop where
  length_eq : args.length = n
  literals : ∀ a ∈ args, ∃ e, IsLiteral kind e ∧ a = .plain e

/-- The expression makes a vector from `n` literals of the kind. -/
def IsVector (kind : LiteralKind) (n : Nat) (scalar : String) (e : Expr) : Prop :=
  ∃ args, AreLiterals kind n args ∧ e = .call (.identifier (simdType n scalar).text) args

/-- The name of the type of square matrices with `n` rows. -/
def matrixName (n : Nat) : String := "simd_float" ++ toString n ++ "x" ++ toString n

/-- The expression makes a matrix from `n` rows of `n` floats. -/
def IsMatrix (n : Nat) (e : Expr) : Prop :=
  ∃ rows : List Expr, rows.length = n ∧ (∀ row ∈ rows, IsVector .float n "Float" row) ∧
    e = .call (.identifier (matrixName n)) [.labelled "rows" (.array rows)]

/-! ## Values of the graph -/

/-- A shape of values. -/
inductive Shape where
  /-- One literal. -/
  | literal (kind : LiteralKind)
  /-- Some floats. -/
  | floats (n : Nat)
  /-- As many rows of floats as each row has. -/
  | square (n : Nat)
deriving DecidableEq, Repr

/-- The arguments give a value of the shape to a case of the class of graph values. -/
def Shape.Fits : Shape → List Arg → Prop
  | literal kind, args => AreLiterals kind 1 args
  | floats n, args => AreLiterals .float n args
  | square n, args => ∃ e, IsMatrix n e ∧ args = [.plain e]

/-- The cases of the class of graph values, each with the shape of what it holds. -/
def payloads : List (String × Shape) :=
  [("float", .literal .float),
    ("half", .literal .float),
    ("int", .literal .integer),
    ("string", .literal .string),
    ("vector2f", .floats 2),
    ("vector3f", .floats 3),
    ("vector4f", .floats 4),
    ("color3f", .floats 3),
    ("color4f", .floats 4),
    ("matrix2d", .square 2),
    ("matrix3d", .square 3),
    ("matrix4d", .square 4)]

/-! ## The typing of defaults -/

/-- The names of the host's own types. -/
def hostNames : List String :=
  scalarKinds.map Prod.fst ++ [2, 3, 4].map matrixName
    ++ [Category.value, .scalar, .vector, .color, .matrix, .string, .texture, .numeric, .simd].map
      className

/-- The expression has the type in a file with the given enumerations. -/
inductive HasType (enums : List Enumeration) : TypeExpr → Expr → Prop where
  | literal {scalar : String} {kind : LiteralKind} {e : Expr} :
      scalarKinds.lookup scalar = some kind → IsLiteral kind e → HasType enums (.named scalar) e
  | vector {n : Nat} {scalar : String} {kind : LiteralKind} {e : Expr} :
      scalarKinds.lookup scalar = some kind → IsVector kind n scalar e →
      HasType enums (simdType n scalar) e
  | matrix {n : Nat} {e : Expr} : IsMatrix n e → HasType enums (.named (matrixName n)) e
  | enumCase {declared : Enumeration} {c : EnumCase} :
      declared ∈ enums → declared.name ∉ hostNames → c ∈ declared.cases →
      HasType enums (.named declared.name) (.member (.identifier declared.name) c.name)
  /-- A value of the graph has the class of its category and every class that is wider. -/
  | graphValue {caseName : String} {shape : Shape} {args : List Arg} {c : Category} :
      payloads.lookup caseName = some shape → shape.Fits args →
      Category.join? [DataType.category caseName, c] = some c →
      HasType enums (.named (className c)) (.call (.member (.identifier "SGValue") caseName) args)

/-- No enumeration of a registry has the name of a type of the host. -/
lemma name_notMem_hostNames {e : EnumIdentity} (h : e.Sound) : e.name ∉ hostNames := by
  have hestablished : ∀ entry ∈ EnumRegistry.canonicalNames, entry.2 ∉ hostNames := by decide
  have hstart : ∀ name ∈ hostNames, name.toList.head? ≠ some 'E' := by decide
  rcases h.named with ⟨-, hcanonical⟩ | ⟨-, -, hmade⟩
  · exact hestablished (e.key, e.name) hcanonical
  · intro hmem
    obtain ⟨rest, hname⟩ := EnumRegistry.toList_synthesizedName e.id e.key
    refine hstart e.name hmem ?_
    rw [hmade, hname]
    rfl

/-! ## Vectors of integers -/

/-- The type is that of vectors of integers. -/
def TypeExpr.IsIntegerVector (t : TypeExpr) : Prop := ∃ n, 0 < n ∧ t = simdType n "Int"

variable {enums : List Enumeration} {kind : LiteralKind} {n : Nat} {scalar : String} {e : Expr}

lemma simdType_inj {k : Nat} {other : String} (h : simdType n scalar = simdType k other) :
    n = k ∧ scalar = other := by
  rw [simdType, simdType, TypeExpr.applied.injEq] at h
  obtain ⟨hwidth, hscalar⟩ := h
  have hdigits : Nat.toDigits 10 n = Nat.toDigits 10 k := by
    simpa using congrArg String.toList hwidth
  exact ⟨eq_of_toDigits_eq hdigits, by simpa using hscalar⟩

/-- A vector type has the vectors of its own width and scalar only. -/
lemma exists_of_hasType_simdType (h : HasType enums (simdType n scalar) e) :
    ∃ kind, scalarKinds.lookup scalar = some kind ∧ IsVector kind n scalar e := by
  generalize ht : simdType n scalar = t at h
  cases h with
  | vector hkind hvector =>
    obtain ⟨rfl, rfl⟩ := simdType_inj ht
    exact ⟨_, hkind, hvector⟩
  | _ => exact absurd ht (by simp [simdType])

lemma AreLiterals.kind_eq {kind' : LiteralKind} {args : List Arg} (hn : 0 < n)
    (h : AreLiterals kind n args) (h' : AreLiterals kind' n args) : kind = kind' := by
  obtain ⟨a, ha⟩ := List.exists_mem_of_length_pos (h.length_eq.symm ▸ hn)
  obtain ⟨e, ⟨c, hc, rfl⟩, rfl⟩ := h.literals a ha
  obtain ⟨e', ⟨c', hc', rfl⟩, heq⟩ := h'.literals _ ha
  obtain rfl : c = c' := by simpa [Arg.plain] using heq
  exact Option.some.inj (hc.symm.trans hc')

/-- A vector of integers is made from no floats. -/
lemma not_hasType_of_isVector (hn : 0 < n) (h : IsVector .float n "Int" e) :
    ¬ HasType enums (simdType n "Int") e := by
  intro htype
  obtain ⟨kind, hkind, args, hargs, rfl⟩ := exists_of_hasType_simdType htype
  obtain ⟨args', hargs', heq⟩ := h
  obtain rfl : args = args' := by simpa using heq
  obtain rfl := hargs.kind_eq hn hargs'
  exact absurd hkind (by decide)

lemma not_isIntegerVector_named (name : String) : ¬ (TypeExpr.named name).IsIntegerVector := by
  rintro ⟨n, -, h⟩
  exact absurd h (by simp [simdType])

/-- What is true of a default of the type: it has the type, unless this is a vector of integers,
which is made from floats. -/
structure IsDefault (enums : List Enumeration) (t : TypeExpr) (e : Expr) : Prop where
  hasType_iff : HasType enums t e ↔ ¬ t.IsIntegerVector
  isVector : ∀ n, 0 < n → t = simdType n "Int" → IsVector .float n "Int" e

lemma IsDefault.of_hasType {t : TypeExpr} (h : HasType enums t e) (ht : ¬ t.IsIntegerVector) :
    IsDefault enums t e where
  hasType_iff := iff_of_true h ht
  isVector := fun n hn heq => absurd ⟨n, hn, heq⟩ ht

lemma IsDefault.of_isVector (hn : 0 < n) (h : IsVector .float n "Int" e) :
    IsDefault enums (simdType n "Int") e where
  hasType_iff := iff_of_false (not_hasType_of_isVector hn h) (not_not_intro ⟨n, hn, rfl⟩)
  isVector := by
    intro k _ heq
    obtain ⟨rfl, -⟩ := simdType_inj heq
    exact h

end ShaderBindings.Swift
