/-
# Configuration syntax

A configuration is a TOML document whose values are strings and truth values.  Any other value,
a table or a dotted key has no meaning in a configuration, so it is refused here together with
what is no TOML at all.  A statement is a key, an equals sign and a value on one line; only a
string between threefold quotes extends over several lines.
-/
import ShaderBindings.Json.Token

namespace ShaderBindings.Toml

inductive Value where
  | string (s : String)
  | bool (b : Bool)
deriving DecidableEq, Repr

/-! ## Characters -/

def isSpace (c : Char) : Bool := c = ' ' || c = '\t'

def isAllowed (c : Char) : Bool := c = '\t' || (0x20 ≤ c.toNat && c.toNat != 0x7F)

def isKeyChar (c : Char) : Bool := c.isAlphanum || c = '-' || c = '_'

/-- What follows a line break. -/
def afterBreak? : List Char → Option (List Char)
  | '\n' :: rest => some rest
  | '\r' :: '\n' :: rest => some rest
  | _ => none

/-! ## Strings -/

def shortEscape? : Char → Option Char
  | 'b' => some (Char.ofNat 8)
  | 't' => some '\t'
  | 'n' => some '\n'
  | 'f' => some (Char.ofNat 12)
  | 'r' => some '\r'
  | '"' => some '"'
  | '\\' => some '\\'
  | _ => none

/-- The character with a code point, unless the code point is that of a surrogate or beyond the
last one. -/
def scalar? (n : Nat) : Option Char :=
  if n < 0xD800 || (0xE000 ≤ n && n < 0x110000) then some (Char.ofNat n) else none

/-- The character of an escape with four or eight digits. -/
def longEscape? (digits : List Char) : Option Char := do
  let values ← digits.mapM Json.Token.hexValue?
  scalar? (values.foldl (fun n d => 16 * n + d) 0)

def push (c : Char) (r : Option (List Char × List Char)) : Option (List Char × List Char) :=
  r.map fun (text, rest) => (c :: text, rest)

/-- The characters of a string up to its closing quote, and what follows. -/
def basic? : List Char → Option (List Char × List Char)
  | [] => none
  | '"' :: rest => some ([], rest)
  | '\\' :: 'u' :: a :: b :: c :: d :: rest =>
    (longEscape? [a, b, c, d]).bind fun x => push x (basic? rest)
  | '\\' :: 'U' :: a :: b :: c :: d :: e :: f :: g :: h :: rest =>
    (longEscape? [a, b, c, d, e, f, g, h]).bind fun x => push x (basic? rest)
  | '\\' :: e :: rest => (shortEscape? e).bind fun x => push x (basic? rest)
  | c :: rest => if isAllowed c && c != '\\' then push c (basic? rest) else none

/-- The characters of a string without escapes up to its closing quote, and what follows. -/
def literal? : List Char → Option (List Char × List Char)
  | [] => none
  | '\'' :: rest => some ([], rest)
  | c :: rest => if isAllowed c then push c (literal? rest) else none

/-- The rest of a line is blank and a line break follows it. -/
def endsLine (s : List Char) : Bool := (afterBreak? (s.dropWhile isSpace)).isSome

/-- The characters of a string of several lines up to its closing quotes, and what follows.  A
backslash at the end of a line hides all blanks and line breaks up to the next character; the
flag says that they are being skipped.  Up to two quotes may stand before the closing ones. -/
def multiBasic? (skipping : Bool) : List Char → Option (List Char × List Char)
  | [] => none
  | '"' :: '"' :: '"' :: '"' :: '"' :: rest => some (['"', '"'], rest)
  | '"' :: '"' :: '"' :: '"' :: rest => some (['"'], rest)
  | '"' :: '"' :: '"' :: rest => some ([], rest)
  | '\r' :: '\n' :: rest =>
    if skipping then multiBasic? true rest else push '\n' (multiBasic? false rest)
  | '\n' :: rest => if skipping then multiBasic? true rest else push '\n' (multiBasic? false rest)
  | '\\' :: 'u' :: a :: b :: c :: d :: rest =>
    (longEscape? [a, b, c, d]).bind fun x => push x (multiBasic? false rest)
  | '\\' :: 'U' :: a :: b :: c :: d :: e :: f :: g :: h :: rest =>
    (longEscape? [a, b, c, d, e, f, g, h]).bind fun x => push x (multiBasic? false rest)
  | '\\' :: e :: rest =>
    if endsLine (e :: rest) then multiBasic? true (e :: rest)
    else (shortEscape? e).bind fun x => push x (multiBasic? false rest)
  | c :: rest =>
    if skipping && isSpace c then multiBasic? true rest
    else if isAllowed c && c != '\\' then push c (multiBasic? false rest)
    else none

/-- The characters of a string of several lines without escapes up to its closing quotes, and
what follows. -/
def multiLiteral? : List Char → Option (List Char × List Char)
  | [] => none
  | '\'' :: '\'' :: '\'' :: '\'' :: '\'' :: rest => some (['\'', '\''], rest)
  | '\'' :: '\'' :: '\'' :: '\'' :: rest => some (['\''], rest)
  | '\'' :: '\'' :: '\'' :: rest => some ([], rest)
  | '\r' :: '\n' :: rest => push '\n' (multiLiteral? rest)
  | c :: rest => if isAllowed c || c = '\n' then push c (multiLiteral? rest) else none

/-! ## Statements -/

def stringValue (r : Option (List Char × List Char)) : Option (Value × List Char) :=
  r.map fun (text, rest) => (.string (String.ofList text), rest)

/-- The text after a line break at its start, if there is one. -/
def skipBreak (s : List Char) : List Char := (afterBreak? s).getD s

/-- The value at the start of a text, and what follows it. -/
def value? : List Char → Option (Value × List Char)
  | '"' :: '"' :: '"' :: rest => stringValue (multiBasic? false (skipBreak rest))
  | '"' :: rest => stringValue (basic? rest)
  | '\'' :: '\'' :: '\'' :: rest => stringValue (multiLiteral? (skipBreak rest))
  | '\'' :: rest => stringValue (literal? rest)
  | 't' :: 'r' :: 'u' :: 'e' :: rest => some (.bool true, rest)
  | 'f' :: 'a' :: 'l' :: 's' :: 'e' :: rest => some (.bool false, rest)
  | _ => none

def key? : List Char → Option (List Char × List Char)
  | '"' :: rest => basic? rest
  | '\'' :: rest => literal? rest
  | s =>
    let key := s.takeWhile isKeyChar
    if key.isEmpty then none else some (key, s.dropWhile isKeyChar)

/-- The text after the end of a line that holds no more than blanks and a comment. -/
def afterLine? (s : List Char) : Option (List Char) :=
  let rest :=
    match s.dropWhile isSpace with
    | '#' :: comment => comment.dropWhile isAllowed
    | rest => rest
  if rest.isEmpty then some [] else afterBreak? rest

def statement? (s : List Char) : Option ((String × Value) × List Char) := do
  let (key, rest) ← key? (s.dropWhile isSpace)
  match rest.dropWhile isSpace with
  | '=' :: rest =>
    let (value, rest) ← value? (rest.dropWhile isSpace)
    let rest ← afterLine? rest
    some ((String.ofList key, value), rest)
  | _ => none

/-- The statements of a text.  Each line or statement leaves less of the text. -/
def statements? (s : List Char) : Option (List (String × Value)) :=
  if s.isEmpty then some []
  else
    match afterLine? s with
    | some rest => if rest.length < s.length then statements? rest else none
    | none =>
      match statement? s with
      | some (statement, rest) =>
        if rest.length < s.length then (statements? rest).map (statement :: ·) else none
      | none => none
termination_by s.length

/-- The statements of a document, which may start with a byte order mark. -/
def document? (text : String) : Option (List (String × Value)) :=
  match text.toList with
  | '\uFEFF' :: rest => statements? rest
  | s => statements? s

end ShaderBindings.Toml
