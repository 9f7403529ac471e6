/-
# JSON values

A JSON value as it is used after reading: a number is an integer of at most 64 bits or a
double, and an object is a dictionary, so its keys are distinct and in order.  `compact` is the
text of a value in messages.
-/
import ShaderBindings.Decimal.Layout
import ShaderBindings.Dictionary

namespace ShaderBindings

inductive Json.Number where
  /-- An integer between `-2 ^ 63` and `2 ^ 64 - 1`. -/
  | integer (n : Int)
  /-- A finite double. -/
  | real (x : Float)
deriving DecidableEq

inductive Json where
  | null
  | bool (b : Bool)
  | number (n : Json.Number)
  | string (s : String)
  | array (items : List Json)
  /-- The members in key order. -/
  | object (members : List (String × Json))

namespace Json

/-! ## Numbers -/

namespace Number

/-- The integer, when it fits in a signed word of 64 bits. -/
def int? : Number → Option Int
  | integer n =>
    if -0x8000000000000000 ≤ n && n < 0x8000000000000000 then some n else none
  | real _ => none

def toFloat : Number → Float
  | integer n => Float.ofInt n
  | real x => x

def text : Number → String
  | integer n => toString n
  | real x => Decimal.jsonNumber.print x

end Number

/-! ## Values -/

def isNumber : Json → Bool
  | number _ => true
  | _ => false

def isArray : Json → Bool
  | array _ => true
  | _ => false

/-- The member of an object under a key; any other value has none. -/
def member? (v : Json) (key : String) : Option Json :=
  match v with
  | object members => members.lookup key
  | _ => none

/-! ## Compact text -/

def hexDigit (n : Nat) : Char :=
  if n < 10 then Char.ofNat ('0'.toNat + n) else Char.ofNat ('a'.toNat + (n - 10))

/-- A character inside a string literal.  Quotes, backslashes and control characters are
escaped, and nothing else is. -/
def escapeChar (c : Char) : List Char :=
  match c with
  | '"' => ['\\', '"']
  | '\\' => ['\\', '\\']
  | '\n' => ['\\', 'n']
  | '\r' => ['\\', 'r']
  | '\t' => ['\\', 't']
  | c =>
    if c.toNat = 8 then ['\\', 'b']
    else if c.toNat = 12 then ['\\', 'f']
    else if c.toNat < 32 then
      ['\\', 'u', '0', '0', hexDigit (c.toNat / 16), hexDigit (c.toNat % 16)]
    else [c]

def quote (s : String) : String :=
  String.ofList ('"' :: s.toList.flatMap escapeChar ++ ['"'])

mutual

/-- The text of a value without any blank. -/
def compact : Json → String
  | null => "null"
  | bool b => if b then "true" else "false"
  | number n => n.text
  | string s => quote s
  | array items => "[" ++ ",".intercalate (compactItems items) ++ "]"
  | object members => "\x7b" ++ ",".intercalate (compactMembers members) ++ "\x7d"

def compactItems : List Json → List String
  | [] => []
  | item :: rest => item.compact :: compactItems rest

def compactMembers : List (String × Json) → List String
  | [] => []
  | (key, value) :: rest => (quote key ++ ":" ++ value.compact) :: compactMembers rest

end

end Json

end ShaderBindings
