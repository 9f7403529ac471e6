/-
# Differences between two texts

The difference between two texts is a way to turn the lines of the first into those of the
second: lines that stay, lines that go and lines that come, with as many lines staying as
possible.  In the text of a difference each stretch of changes has up to three unchanged lines
around it, and stretches that lie further apart form separate groups.
-/
import ShaderBindings.Text.Search

namespace ShaderBindings

inductive LineChange (α : Type) where
  | keep (line : α)
  | remove (line : α)
  | add (line : α)
deriving DecidableEq, Repr

namespace LineDiff

variable {α : Type}

/-! ## The longest common subsequence -/

section

variable [DecidableEq α]

/-- The row of a table of lengths for one more line `a` of the first text: an entry for each end
of the second text, from all of it to nothing.  `below` is the row without `a`. -/
def lengthRow (a : α) : List α → List Nat → List Nat
  | b :: bs, below :: rest =>
    let row := lengthRow a bs rest
    let diagonal := rest.headD 0
    let right := row.headD 0
    (if a = b then diagonal + 1 else max below right) :: row
  | _, _ => [0]

/-- The lengths of the longest common subsequences: a row for each end of the first text, from
all of it to nothing. -/
def lengthTable (old new : List α) : List (List Nat) :=
  match old with
  | [] => [List.replicate (new.length + 1) 0]
  | a :: rest =>
    let table := lengthTable rest new
    lengthRow a new (table.headD []) :: table

/-- The changes between two texts by their table of lengths.  Where both ways are equally good
a line goes before another one comes. -/
def changesBy : List (List Nat) → List α → List α → List (LineChange α)
  | _, [], new => new.map .add
  | _, old, [] => old.map .remove
  | table, a :: old, b :: new =>
    if a = b then .keep a :: changesBy ((table.drop 1).map (List.drop 1)) old new
    else
      let below := ((table.drop 1).headD []).headD 0
      let right := ((table.headD []).drop 1).headD 0
      if right ≤ below then .remove a :: changesBy (table.drop 1) old (b :: new)
      else .add b :: changesBy (table.map (List.drop 1)) (a :: old) new
termination_by _ old new => old.length + new.length

/-- The number of lines that two texts have in common at their start. -/
def commonStart : List α → List α → Nat
  | a :: old, b :: new => if a = b then commonStart old new + 1 else 0
  | _, _ => 0

def changes (old new : List α) : List (LineChange α) :=
  let start := commonStart old new
  let oldRest := old.drop start
  let newRest := new.drop start
  let stop := commonStart oldRest.reverse newRest.reverse
  let oldMiddle := oldRest.take (oldRest.length - stop)
  let newMiddle := newRest.take (newRest.length - stop)
  (old.take start).map .keep
    ++ changesBy (lengthTable oldMiddle newMiddle) oldMiddle newMiddle
    ++ (oldRest.drop (oldRest.length - stop)).map .keep

end

/-! ## Groups -/

/-- The number of unchanged lines around a change. -/
def context : Nat := 3

/-- A stretch of unchanged lines, or a change. -/
inductive Stretch (α : Type) where
  | same (lines : List α)
  | changed (change : LineChange α)

/-- The changes with neighbouring unchanged lines taken together. -/
def stretches : List (LineChange α) → List (Stretch α)
  | [] => []
  | .keep line :: rest =>
    match stretches rest with
    | .same lines :: others => .same (line :: lines) :: others
    | others => .same [line] :: others
  | change :: rest => .changed change :: stretches rest

def lastLines (lines : List α) : List α := lines.drop (lines.length - context)

/-- The stretches with less of the unchanged lines at the start of the text. -/
def trimStart : List (Stretch α) → List (Stretch α)
  | .same lines :: rest => .same (lastLines lines) :: rest
  | stretches => stretches

/-- The stretches with less of the unchanged lines at the end of the text. -/
def trimEnd : List (Stretch α) → List (Stretch α)
  | [] => []
  | [.same lines] => [.same (lines.take context)]
  | s :: rest => s :: trimEnd rest

def prependTo (s : Stretch α) : List (List (Stretch α)) → List (List (Stretch α))
  | [] => [[s]]
  | group :: rest => (s :: group) :: rest

/-- The groups of some stretches.  A long stretch of unchanged lines ends a group and starts the
next one. -/
def split : List (Stretch α) → List (List (Stretch α))
  | [] => [[]]
  | .same lines :: rest =>
    if 2 * context < lines.length then
      [.same (lines.take context)] :: prependTo (.same (lastLines lines)) (split rest)
    else prependTo (.same lines) (split rest)
  | s :: rest => prependTo s (split rest)

def Stretch.isChange : Stretch α → Bool
  | same _ => false
  | changed _ => true

/-- The groups of a difference that have a change in them. -/
def groups (changes : List (LineChange α)) : List (List (Stretch α)) :=
  (split (trimEnd (trimStart (stretches changes)))).filter fun group => group.any Stretch.isChange

/-! ## Text -/

/-- A line after its mark, with a line feed when it ends without a line break. -/
def markedLine (mark : Char) (line : List Char) : List Char :=
  match line.getLast? with
  | some '\n' | some '\r' => mark :: line
  | _ => mark :: line ++ ['\n']

def stretchText : Stretch (List Char) → List Char
  | .same lines => lines.flatMap (markedLine ' ')
  | .changed (.keep line) => markedLine ' ' line
  | .changed (.remove line) => markedLine '-' line
  | .changed (.add line) => markedLine '+' line

/-- The text of the difference between two texts, under a heading for the file at `path`. -/
def text (path : String) (existing contents : String) : String :=
  let shown := groups (changes (Text.lines existing.toList) (Text.lines contents.toList))
  "--- " ++ path ++ " (current)\n+++ " ++ path ++ " (generated)\n"
    ++ "...\n".intercalate (shown.map fun group => String.ofList (group.flatMap stretchText))

end LineDiff

end ShaderBindings
