/-
# The words of Swift trees

The names, labels and types in a Swift tree are free text and are printed as they are, but for the
backquotes around a reserved word.  They are the words of the tree.  Whatever else is printed has no
line break in it: the printer's own marks, numbers, and the content of string literals, where a line
break is escaped.  Only a call with one argument on each line has line breaks between its parts.

So an expression without such calls is one line as long as its words are (`unbroken_text`), and the
same is true of the line that declares a function (`exists_signature_eq`).
-/
import Mathlib.Data.List.Basic
import ShaderBindings.Proofs.Quotation

namespace ShaderBindings.Swift

/-! ## Words -/

namespace TypeExpr

mutual

/-- The names in a type. -/
def words : TypeExpr → List String
  | named name => [name]
  | applied base args => base :: wordsOf args
  | array item => item.words

def wordsOf : List TypeExpr → List String
  | [] => []
  | t :: rest => t.words ++ wordsOf rest

end

end TypeExpr

namespace Expr

mutual

/-- The names and the argument labels in an expression. -/
def words : Expr → List String
  | identifier name => [name]
  | constant _ => []
  | member object name => object.words ++ [name]
  | implicitMember name => [name]
  | call callee args => callee.words ++ wordsOfArgs args
  | multilineCall callee args => callee.words ++ wordsOfArgs args
  | array items => wordsOf items
  | interpolated segments => wordsOfSegments segments
  | binary left _ right => left.words ++ right.words

def wordsOf : List Expr → List String
  | [] => []
  | e :: rest => e.words ++ wordsOf rest

def wordsOfArgs : List Arg → List String
  | [] => []
  | .mk label? value :: rest => label?.toList ++ value.words ++ wordsOfArgs rest

def wordsOfSegments : List Segment → List String
  | [] => []
  | .text _ :: rest => wordsOfSegments rest
  | .value e :: rest => e.words ++ wordsOfSegments rest

end

mutual

/-- The arguments of each call in an expression that has one argument on each line. -/
def multilineCalls : Expr → List (List Arg)
  | identifier _ => []
  | constant _ => []
  | member object _ => object.multilineCalls
  | implicitMember _ => []
  | call callee args => callee.multilineCalls ++ multilineCallsOfArgs args
  | multilineCall callee args => callee.multilineCalls ++ args :: multilineCallsOfArgs args
  | array items => multilineCallsOf items
  | interpolated segments => multilineCallsOfSegments segments
  | binary left _ right => left.multilineCalls ++ right.multilineCalls

def multilineCallsOf : List Expr → List (List Arg)
  | [] => []
  | e :: rest => e.multilineCalls ++ multilineCallsOf rest

def multilineCallsOfArgs : List Arg → List (List Arg)
  | [] => []
  | .mk _ value :: rest => value.multilineCalls ++ multilineCallsOfArgs rest

def multilineCallsOfSegments : List Segment → List (List Arg)
  | [] => []
  | .text _ :: rest => multilineCallsOfSegments rest
  | .value e :: rest => e.multilineCalls ++ multilineCallsOfSegments rest

end

end Expr

namespace Stmt

mutual

def words : Stmt → List String
  | letArray name type items => name :: (type.words ++ Expr.wordsOf items)
  | ret value => value.words
  | cond condition body => condition.words ++ wordsOf body
  | guardElse condition body => condition.words ++ wordsOf body

def wordsOf : List Stmt → List String
  | [] => []
  | s :: rest => s.words ++ wordsOf rest

end

mutual

def multilineCalls : Stmt → List (List Arg)
  | letArray _ _ items => Expr.multilineCallsOf items
  | ret value => value.multilineCalls
  | cond condition body => condition.multilineCalls ++ multilineCallsOf body
  | guardElse condition body => condition.multilineCalls ++ multilineCallsOf body

def multilineCallsOf : List Stmt → List (List Arg)
  | [] => []
  | s :: rest => s.multilineCalls ++ multilineCallsOf rest

end

end Stmt

def TypeParameter.words (p : TypeParameter) : List String := p.name :: p.bound?.toList

def Parameter.words (p : Parameter) : List String :=
  p.label?.toList ++ p.name :: (p.type.words ++ Expr.wordsOf p.default?.toList)

/-- The lines of the comment, the attributes, and the names, labels and types of a function. -/
def Function.words (f : Function) : List String :=
  f.doc ++ f.attributes ++ f.name :: (f.typeParameters.flatMap TypeParameter.words
    ++ f.parameters.flatMap Parameter.words ++ f.returnType.words ++ Stmt.wordsOf f.body)

/-! ## Texts without line breaks -/

/-- The text has no line break. -/
def Unbroken (s : String) : Prop := '\n' ∉ s.toList

instance (s : String) : Decidable (Unbroken s) := inferInstanceAs (Decidable ('\n' ∉ s.toList))

variable {a b s : String} {level : Nat}

@[simp] lemma unbroken_append_iff : Unbroken (a ++ b) ↔ Unbroken a ∧ Unbroken b := by
  simp [Unbroken]

lemma unbroken_ofList {cs : List Char} : Unbroken (String.ofList cs) ↔ '\n' ∉ cs := by
  rw [Unbroken, String.toList_ofList]

lemma unbroken_indent (level : Nat) : Unbroken (indent level) := by
  rw [indent, unbroken_ofList]
  intro h
  exact absurd (List.eq_of_mem_replicate h) (by decide)

lemma unbroken_identifier (h : Unbroken s) : Unbroken (identifier s) := by
  rw [identifier]
  split_ifs
  · rw [unbroken_append_iff, unbroken_append_iff]
    exact ⟨⟨by decide, h⟩, by decide⟩
  · exact h

/-- The separator goes between the texts only. -/
lemma unbroken_commaList {texts : List String} (h : ∀ s ∈ texts, Unbroken s) :
    Unbroken (commaList texts) := by
  induction texts with
  | nil => decide
  | cons s rest ih =>
    rw [List.forall_mem_cons] at h
    rw [commaList] at ih ⊢
    cases rest with
    | nil =>
      rw [String.intercalate_singleton]
      exact h.1
    | cons t rest =>
      rw [String.intercalate_cons_cons, unbroken_append_iff, unbroken_append_iff]
      exact ⟨⟨h.1, by decide⟩, ih h.2⟩

/-! ## Literals -/

/-- An escaped text has no line break, whatever the text is. -/
lemma unbroken_escape (s : String) : Unbroken (escape s) := by
  rw [escape, unbroken_ofList]
  exact notMem_flatMap_escapeChar (by decide) _

lemma unbroken_toString_nat (n : Nat) : Unbroken (toString n) := by
  rw [Nat.toString_eq_ofList_toDigits, unbroken_ofList]
  intro h
  exact absurd (Nat.isDigit_of_mem_toDigits (by decide) (by decide) h) (by decide)

lemma unbroken_toString_int (n : Int) : Unbroken (toString n) := by
  cases n with
  | ofNat n => exact unbroken_toString_nat n
  | negSucc n => exact unbroken_append_iff.2 ⟨by decide, unbroken_toString_nat (n + 1)⟩

/-- A number that is written without an exponent consists of digits, zeros and a point. -/
lemma unbroken_positionalText (d : Decimal.Scaled) :
    Unbroken (Decimal.Layout.positionalText d) := by
  have hdigits : '\n' ∉ (toString d.significand).toList := unbroken_toString_nat d.significand
  have hzeros : ∀ n, '\n' ∉ List.replicate n '0' := by
    intro n h
    exact absurd (List.eq_of_mem_replicate h) (by decide)
  unfold Decimal.Layout.positionalText
  dsimp only
  split
  · rw [unbroken_append_iff, unbroken_ofList, List.mem_append, not_or]
    exact ⟨⟨hdigits, hzeros _⟩, by decide⟩
  split
  · rw [unbroken_ofList, List.mem_append, List.mem_cons, not_or, not_or]
    exact ⟨fun h => hdigits (List.mem_of_mem_take h), by decide,
      fun h => hdigits (List.mem_of_mem_drop h)⟩
  · rw [unbroken_ofList, List.cons_append, List.cons_append, List.mem_cons, List.mem_cons,
      List.mem_append, not_or, not_or, not_or]
    exact ⟨by decide, by decide, hzeros _, hdigits⟩

lemma unbroken_floatLiteral (x : Float) : Unbroken (Decimal.floatLiteral.print x) := by
  have hsign : Unbroken (if Decimal.signed x then "-" else "") := by
    split_ifs <;> decide
  unfold Decimal.Layout.print
  dsimp only
  generalize (if Decimal.signed x then "-" else "") = sign at hsign ⊢
  split
  · split
    · exact unbroken_append_iff.2 ⟨hsign, by decide⟩
    · decide
  split
  · exact unbroken_append_iff.2 ⟨hsign, by decide⟩
  · exact unbroken_append_iff.2 ⟨hsign, unbroken_positionalText _⟩

lemma unbroken_constant (c : Constant) : Unbroken c.text := by
  cases c with
  | string s =>
    rw [Constant.text, quote, unbroken_append_iff, unbroken_append_iff]
    exact ⟨⟨by decide, unbroken_escape s⟩, by decide⟩
  | float x => exact unbroken_floatLiteral x
  | int n => exact unbroken_toString_int n
  | bool b => cases b <;> decide
  | nil => decide

lemma unbroken_operator (op : Operator) : Unbroken op.text := by
  cases op <;> decide

/-! ## Types and expressions of one line -/

mutual

lemma TypeExpr.unbroken_text : ∀ t : TypeExpr, (∀ w ∈ t.words, Unbroken w) → Unbroken t.text
  | .named name, h => h name List.mem_cons_self
  | .applied base args, h => by
    rw [words, List.forall_mem_cons] at h
    rw [text]
    simp only [unbroken_append_iff]
    exact ⟨⟨⟨h.1, by decide⟩, unbroken_commaList (unbroken_texts args h.2)⟩, by decide⟩
  | .array item, h => by
    rw [words] at h
    rw [text]
    simp only [unbroken_append_iff]
    exact ⟨⟨by decide, unbroken_text item h⟩, by decide⟩

lemma TypeExpr.unbroken_texts : ∀ ts : List TypeExpr, (∀ w ∈ wordsOf ts, Unbroken w) →
    ∀ s ∈ texts ts, Unbroken s
  | [], _ => fun s hs => absurd hs List.not_mem_nil
  | t :: rest, h => by
    rw [wordsOf, List.forall_mem_append] at h
    rw [texts, List.forall_mem_cons]
    exact ⟨unbroken_text t h.1, unbroken_texts rest h.2⟩

end

/-- A label goes in front of an argument. -/
lemma unbroken_labelledText {label? : Option String} (hlabel : ∀ w ∈ label?.toList, Unbroken w)
    (hs : Unbroken s) : Unbroken (labelledText label? s) := by
  cases label? with
  | none => exact hs
  | some label =>
    have hlabel : Unbroken label := hlabel label (by simp)
    rw [labelledText, unbroken_append_iff, unbroken_append_iff]
    exact ⟨⟨hlabel, by decide⟩, hs⟩

namespace Expr

-- The induction goes over expressions, lists of them, arguments and segments at once.
mutual

lemma unbroken_text (level : Nat) : ∀ e : Expr, e.multilineCalls = [] →
    (∀ w ∈ e.words, Unbroken w) → Unbroken (e.text level)
  | .identifier name, _, h => unbroken_identifier (h name List.mem_cons_self)
  | .constant c, _, _ => unbroken_constant c
  | .member object name, hcalls, h => by
    rw [words, List.forall_mem_append] at h
    rw [text]
    simp only [unbroken_append_iff]
    exact ⟨⟨unbroken_text level object hcalls h.1, by decide⟩,
      unbroken_identifier (h.2 name List.mem_cons_self)⟩
  | .implicitMember name, _, h => unbroken_append_iff.2 ⟨by decide, h name List.mem_cons_self⟩
  | .call callee args, hcalls, h => by
    rw [multilineCalls, List.append_eq_nil_iff] at hcalls
    rw [words, List.forall_mem_append] at h
    rw [text]
    simp only [unbroken_append_iff]
    exact ⟨⟨⟨unbroken_text level callee hcalls.1 h.1, by decide⟩,
      unbroken_commaList (unbroken_argTexts level args hcalls.2 h.2)⟩, by decide⟩
  | .multilineCall callee args, hcalls, _ => by
    rw [multilineCalls, List.append_eq_nil_iff] at hcalls
    exact absurd hcalls.2 (List.cons_ne_nil _ _)
  | .array items, hcalls, h => by
    rw [text]
    simp only [unbroken_append_iff]
    exact ⟨⟨by decide, unbroken_commaList (unbroken_texts level items hcalls h)⟩, by decide⟩
  | .interpolated segments, hcalls, h => by
    rw [text]
    simp only [unbroken_append_iff]
    exact ⟨⟨by decide, unbroken_segmentsText level segments hcalls h⟩, by decide⟩
  | .binary left op right, hcalls, h => by
    rw [multilineCalls, List.append_eq_nil_iff] at hcalls
    rw [words, List.forall_mem_append] at h
    rw [text]
    simp only [unbroken_append_iff]
    exact ⟨⟨⟨⟨unbroken_text level left hcalls.1 h.1, by decide⟩, unbroken_operator op⟩,
      by decide⟩, unbroken_text level right hcalls.2 h.2⟩

lemma unbroken_texts (level : Nat) : ∀ es : List Expr, multilineCallsOf es = [] →
    (∀ w ∈ wordsOf es, Unbroken w) → ∀ s ∈ texts level es, Unbroken s
  | [], _, _ => fun s hs => absurd hs List.not_mem_nil
  | e :: rest, hcalls, h => by
    rw [multilineCallsOf, List.append_eq_nil_iff] at hcalls
    rw [wordsOf, List.forall_mem_append] at h
    rw [texts, List.forall_mem_cons]
    exact ⟨unbroken_text level e hcalls.1 h.1, unbroken_texts level rest hcalls.2 h.2⟩

lemma unbroken_argTexts (level : Nat) : ∀ args : List Arg, multilineCallsOfArgs args = [] →
    (∀ w ∈ wordsOfArgs args, Unbroken w) → ∀ s ∈ argTexts level args, Unbroken s
  | [], _, _ => fun s hs => absurd hs List.not_mem_nil
  | .mk label? value :: rest, hcalls, h => by
    rw [multilineCallsOfArgs, List.append_eq_nil_iff] at hcalls
    rw [wordsOfArgs, List.forall_mem_append, List.forall_mem_append] at h
    rw [argTexts, List.forall_mem_cons, argText]
    exact ⟨unbroken_labelledText h.1.1 (unbroken_text level value hcalls.1 h.1.2),
      unbroken_argTexts level rest hcalls.2 h.2⟩

lemma unbroken_segmentsText (level : Nat) : ∀ segments : List Segment,
    multilineCallsOfSegments segments = [] → (∀ w ∈ wordsOfSegments segments, Unbroken w) →
      Unbroken (segmentsText level segments)
  | [], _, _ => (by decide : Unbroken "")
  | .text s :: rest, hcalls, h => by
    rw [segmentsText, unbroken_append_iff, segmentText]
    exact ⟨unbroken_escape s, unbroken_segmentsText level rest hcalls h⟩
  | .value e :: rest, hcalls, h => by
    rw [multilineCallsOfSegments, List.append_eq_nil_iff] at hcalls
    rw [wordsOfSegments, List.forall_mem_append] at h
    rw [segmentsText, segmentText]
    simp only [unbroken_append_iff]
    exact ⟨⟨⟨by decide, unbroken_text level e hcalls.1 h.1⟩, by decide⟩,
      unbroken_segmentsText level rest hcalls.2 h.2⟩

end

end Expr

/-! ## The line that declares a function -/

lemma TypeParameter.unbroken_text (p : TypeParameter) (h : ∀ w ∈ p.words, Unbroken w) :
    Unbroken p.text := by
  rw [words, List.forall_mem_cons] at h
  rw [text]
  cases hbound : p.bound? with
  | none => exact h.1
  | some bound =>
    simp only [unbroken_append_iff]
    exact ⟨⟨h.1, by decide⟩, h.2 bound (by simp [hbound])⟩

lemma Parameter.unbroken_head {p : Parameter} (hlabel : ∀ w ∈ p.label?.toList, Unbroken w)
    (hname : Unbroken p.name) : Unbroken p.head := by
  rw [head]
  cases hcase : p.label? with
  | none => exact unbroken_append_iff.2 ⟨by decide, unbroken_identifier hname⟩
  | some label =>
    have hlabel : Unbroken label := hlabel label (by simp [hcase])
    dsimp only
    split_ifs
    · exact unbroken_identifier hname
    · simp only [unbroken_append_iff]
      exact ⟨⟨unbroken_identifier hlabel, by decide⟩, unbroken_identifier hname⟩

lemma Parameter.unbroken_text (p : Parameter)
    (hcalls : ∀ e, p.default? = some e → e.multilineCalls = [])
    (h : ∀ w ∈ p.words, Unbroken w) : Unbroken p.text := by
  rw [words, List.forall_mem_append, List.forall_mem_cons, List.forall_mem_append] at h
  obtain ⟨hlabel, hname, htype, hdefault⟩ := h
  have hhead := unbroken_head hlabel hname
  have htype := TypeExpr.unbroken_text p.type htype
  rw [text]
  cases hcase : p.default? with
  | none =>
    simp only [unbroken_append_iff]
    exact ⟨⟨hhead, by decide⟩, htype⟩
  | some e =>
    have hwords : ∀ w ∈ e.words, Unbroken w := by
      simpa [hcase, Expr.wordsOf] using hdefault
    simp only [unbroken_append_iff]
    exact ⟨⟨⟨⟨hhead, by decide⟩, htype⟩, by decide⟩,
      Expr.unbroken_text 0 e (hcalls e hcase) hwords⟩

/-- No default of a parameter has a call with one argument on each line. -/
def Function.HasFlatDefaults (f : Function) : Prop :=
  ∀ p ∈ f.parameters, ∀ e, p.default? = some e → e.multilineCalls = []

namespace Function

variable {f : Function}

lemma unbroken_typeParameterText
    (h : ∀ w ∈ f.typeParameters.flatMap TypeParameter.words, Unbroken w) :
    Unbroken f.typeParameterText := by
  have htexts : ∀ s ∈ f.typeParameters.map TypeParameter.text, Unbroken s := by
    intro s hs
    obtain ⟨p, hp, rfl⟩ := List.mem_map.1 hs
    exact p.unbroken_text fun w hw => h w (List.mem_flatMap_of_mem hp hw)
  rw [typeParameterText]
  split_ifs
  · decide
  · rw [unbroken_append_iff, unbroken_append_iff]
    exact ⟨⟨by decide, unbroken_commaList htexts⟩, by decide⟩

lemma unbroken_parameterTexts (hflat : f.HasFlatDefaults)
    (h : ∀ w ∈ f.parameters.flatMap Parameter.words, Unbroken w) :
    Unbroken (commaList (f.parameters.map Parameter.text)) := by
  refine unbroken_commaList fun s hs => ?_
  obtain ⟨p, hp, rfl⟩ := List.mem_map.1 hs
  exact p.unbroken_text (hflat p hp) fun w hw => h w (List.mem_flatMap_of_mem hp hw)

/-- The line that declares a function has one line break, at its end. -/
lemma exists_signature_eq (hflat : f.HasFlatDefaults) (h : ∀ w ∈ f.words, Unbroken w) :
    ∃ line, f.signature = line ++ "\n" ∧ Unbroken line := by
  simp only [words, List.forall_mem_append, List.forall_mem_cons] at h
  obtain ⟨-, hname, ⟨⟨htypeParameters, hparameters⟩, hreturn⟩, -⟩ := h
  have hname := unbroken_identifier hname
  have htypeParameters := unbroken_typeParameterText htypeParameters
  have hparameters := unbroken_parameterTexts hflat hparameters
  have hreturn := f.returnType.unbroken_text hreturn
  have hopen : " \x7b\n" = " \x7b" ++ "\n" := rfl
  rw [signature]
  cases f.kind with
  | free =>
    refine ⟨"public func " ++ identifier f.name ++ f.typeParameterText ++ "("
      ++ commaList (f.parameters.map Parameter.text) ++ ") -> " ++ f.returnType.text ++ " \x7b", ?_,
      ?_⟩
    · simp only [hopen, String.append_assoc]
    · simp only [unbroken_append_iff]
      exact ⟨⟨⟨⟨⟨⟨⟨by decide, hname⟩, htypeParameters⟩, by decide⟩, hparameters⟩, by decide⟩,
        hreturn⟩, by decide⟩
  | staticVar =>
    refine ⟨"static var " ++ identifier f.name ++ ": " ++ f.returnType.text ++ " \x7b", ?_, ?_⟩
    · simp only [hopen, String.append_assoc]
    · simp only [unbroken_append_iff]
      exact ⟨⟨⟨⟨by decide, hname⟩, by decide⟩, hreturn⟩, by decide⟩

end Function

end ShaderBindings.Swift
