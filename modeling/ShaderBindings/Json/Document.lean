/-
# JSON documents

A document is a JSON text as it is written: the members of an object stand in the order of the
text and a key may be repeated.  Reading keeps a stack of the arrays and objects that are open,
so it is a single pass over the tokens.  What a text means depends on the place where it
stands; `value?` is its meaning where any JSON value may stand.
-/
import ShaderBindings.Json.Token

namespace ShaderBindings.Json

/-- The tree of a JSON text.  A string is `none` when it names half of a surrogate pair. -/
inductive Document where
  | null
  | bool (b : Bool)
  | numeral (n : Numeral)
  | string (text : Option String)
  | array (items : List Document)
  | object (members : List (Option String × Document))

namespace Document

/-! ## Reading -/

/-- An array or object that is still open, with what it holds so far in reverse order. -/
inductive Frame where
  | array (items : List Document)
  /-- The value of `key` is being read. -/
  | object (members : List (Option String × Document)) (key : Option String)

/-- How far a text has been read. -/
inductive Reading where
  /-- A value is due, or the end of the innermost array when it is still empty. -/
  | value (open_ : List Frame) (mayClose : Bool)
  /-- A key is due, or the end of the innermost object when it is still empty. -/
  | key (open_ : List Frame) (members : List (Option String × Document)) (mayClose : Bool)
  /-- The colon after a key is due. -/
  | colon (open_ : List Frame) (members : List (Option String × Document)) (key : Option String)
  /-- A value is complete. -/
  | done (open_ : List Frame) (document : Document)

/-- The document of a token that is a value by itself. -/
def scalar? : Token → Option Document
  | .null => some null
  | .bool b => some (bool b)
  | .numeral n => some (numeral n)
  | .string text => some (string text)
  | _ => none

namespace Reading

def step? : Reading → Token → Option Reading
  | value frames _, .openArray => some (value (.array [] :: frames) true)
  | value frames _, .openObject => some (key frames [] true)
  | value (.array [] :: frames) true, .closeArray => some (done frames (.array []))
  | value frames _, token => (scalar? token).map (done frames)
  | key frames members _, .string text => some (colon frames members text)
  | key frames [] true, .closeObject => some (done frames (.object []))
  | key _ _ _, _ => none
  | colon frames members text, .colon => some (value (.object members text :: frames) false)
  | colon _ _ _, _ => none
  | done (.array items :: frames) v, .comma => some (value (.array (v :: items) :: frames) false)
  | done (.array items :: frames) v, .closeArray =>
    some (done frames (.array (v :: items).reverse))
  | done (.object members text :: frames) v, .comma =>
    some (key frames ((text, v) :: members) false)
  | done (.object members text :: frames) v, .closeObject =>
    some (done frames (.object ((text, v) :: members).reverse))
  | done _ _, _ => none

/-- The document that has been read, when nothing is open. -/
def document? : Reading → Option Document
  | done [] document => some document
  | _ => none

end Reading

/-- The document of a text, when all of the text is one document. -/
def ofText? (text : String) : Option Document := do
  let tokens ← Token.sequence? text.toList
  let reading ← tokens.foldlM Reading.step? (.value [] false)
  reading.document?

/-! ## Meaning -/

mutual

/-- The number of arrays and objects that are nested in a document. -/
def depth : Document → Nat
  | array items => depthOfItems items + 1
  | object members => depthOfMembers members + 1
  | _ => 0

def depthOfItems : List Document → Nat
  | [] => 0
  | item :: rest => max item.depth (depthOfItems rest)

def depthOfMembers : List (Option String × Document) → Nat
  | [] => 0
  | (_, value) :: rest => max value.depth (depthOfMembers rest)

end

mutual

/-- The value that a document means.  A number beyond the doubles has none, nor has a string
with half of a surrogate pair; a repeated key keeps its last value. -/
def value? : Document → Option Json
  | null => some .null
  | bool b => some (.bool b)
  | numeral n => n.value?.map .number
  | string text => text.map .string
  | array items => (valuesOfItems? items).map .array
  | object members =>
    (valuesOfMembers? members).map fun entries => .object (Dictionary.ofList entries)

def valuesOfItems? : List Document → Option (List Json)
  | [] => some []
  | item :: rest =>
    match item.value?, valuesOfItems? rest with
    | some value, some values => some (value :: values)
    | _, _ => none

def valuesOfMembers? : List (Option String × Document) → Option (List (String × Json))
  | [] => some []
  | (key, item) :: rest =>
    match key, item.value?, valuesOfMembers? rest with
    | some key, some value, some values => some ((key, value) :: values)
    | _, _, _ => none

end

/-- The number of arrays and objects that may be nested in a text. -/
def depthLimit : Nat := 127

/-- The value of a document that stands inside `outer` arrays and objects. -/
def valueWithin? (outer : Nat) (d : Document) : Option Json :=
  if d.depth + outer ≤ depthLimit then d.value? else none

end Document

/-- The value of a text, when the text is one JSON value within the limit of nesting. -/
def ofText? (text : String) : Option Json := do
  let document ← Document.ofText? text
  document.valueWithin? 0

end ShaderBindings.Json
