import PointRelaxation.Log.Value
import PointRelaxation.Text.Column
import PointRelaxation.Text.Composite

/-!
# Arrays as a log shows them

An array that is a value of its own is summed up by its extents and the range of its numbers. One
inside another value is written out: its rows in nested brackets, its numbers in one column, and its
lines broken where they are full. Of a long array only the first and the last rows are written.
-/

namespace PointRelaxation.Value

open Text (commas ellipsis padLeft tupled Column)

/-- The extents of an array as a tuple. -/
def extents : List Nat → String
  | [n] => "(" ++ toString n ++ ",)"
  | ns => tupled (ns.map toString)

/-! ## Summaries -/

/-- The number that comes before all others; of equal ones the last, and one that is no number
prevails. -/
def foremost (before : Float → Float → Bool) : List Float → Option Float
  | [] => none
  | x :: xs => some (xs.foldl (fun a b => if a.isNaN || before a b then a else b) x)

def least : List Float → Option Float := foremost fun a b => a < b

def greatest : List Float → Option Float := foremost fun a b => b < a

/-- The extents of an array and the range of its numbers. -/
def summary (shape : List Nat) (numbers : List Float) : String :=
  let range : Option (Float × Float) := do return (← least numbers, ← greatest numbers)
  commas (
    [Text.record "ndarray" [("shape", extents shape), ("dtype", "float64")]] ++
      match range with
      | none => []
      | some (low, high) =>
        [Text.field "min" (Text.significant 6 low), Text.field "max" (Text.significant 6 high)])

/-! ## Lines -/

/-- Text in lines of which the last may still grow. -/
structure Paragraph where
  /-- The lines that are full, with their breaks. -/
  full : String
  line : String

namespace Paragraph

/-- Adds a word. It goes to a new line if it does not fit, unless the line holds nothing yet. -/
def add (width : Nat) (indent : String) (p : Paragraph) (word : String) : Paragraph :=
  if indent.length < p.line.length && width < p.line.length + word.length then
    ⟨p.full ++ String.ofList (Text.dropTrailing ' ' p.line.toList) ++ "\n", indent ++ word⟩
  else ⟨p.full, p.line ++ word⟩

/-- Words with commas between them, behind the indent of the first line. -/
def ofWords (width : Nat) (indent : String) (words : List String) : String :=
  let add (p : Paragraph) (word : String) : Paragraph :=
    let p := if p.line == indent && p.full.isEmpty then p else ⟨p.full, p.line ++ ", "⟩
    p.add width indent word
  let p := words.foldl add ⟨"", indent⟩
  String.ofList ((p.full ++ p.line).toList.drop indent.length)

end Paragraph

/-! ## Rows -/

/-- An array with more numbers than this is shortened. -/
def arrayLimit : Nat := 1000

/-- How many rows are left at either end of a direction that is shortened. -/
def edgeRows : Nat := 3

/-- The rows that are written of `n`, and a gap between them if some are left out. -/
def rowsShown (shortened : Bool) (n : Nat) : List (Option Nat) :=
  if shortened && 2 * edgeRows < n then
    (List.range edgeRows).map some ++ [none] ++ (List.range' (n - edgeRows) edgeRows).map some
  else (List.range n).map some

/-- The numbers of a row, given how many each row has. -/
def rowOf (size : Nat) (numbers : List Float) (i : Nat) : List Float :=
  (numbers.drop (i * size)).take size

/-- How many numbers an array has. -/
def volume : List Nat → Nat := List.foldl (· * ·) 1

/-- The numbers that are written. -/
def numbersShown (shortened : Bool) : List Nat → List Float → List Float
  | [], numbers => numbers
  | n :: shape, numbers =>
    ((rowsShown shortened n).filterMap id).flatMap fun i =>
      numbersShown shortened shape (rowOf (volume shape) numbers i)

/-- Rows in nested brackets. In the innermost direction words follow each other on lines; in the
others each row begins a line, the further apart the more directions there are. -/
def nested (shortened : Bool) (write : Float → String) :
    List Nat → String → Nat → List Float → String
  | [], _, _, numbers => (numbers.head?.map write).getD ""
  | n :: shape, indent, width, numbers =>
    let row (i : Nat) : String :=
      nested shortened write shape (indent ++ " ") (width - 1) (rowOf (volume shape) numbers i)
    let rows := (rowsShown shortened n).map fun i => (i.map row).getD ellipsis
    let breaks := String.ofList (List.replicate shape.length '\n')
    let inner :=
      if shape.isEmpty then Paragraph.ofWords (width - 1) indent rows
      else ("," ++ breaks ++ indent).intercalate rows
    "[" ++ inner ++ "]"

/-- The width of a line that holds an array. -/
def arrayWidth : Nat := 75

/-- An array written out. What cannot be told from its numbers is said behind them. -/
def arrayText (shape : List Nat) (numbers : List Float) : String :=
  let head := "array("
  let shortened := decide (arrayLimit < volume shape)
  let column := Column.ofNumbers (numbersShown shortened shape numbers)
  let body :=
    if volume shape = 0 then "[]"
    else nested shortened column.write shape (padLeft (head.length + 1) "") (arrayWidth - 1) numbers
  let extras :=
    (if shortened || (volume shape = 0 && shape != [0]) then [Text.field "shape" (extents shape)]
      else []) ++
    if volume shape = 0 then [Text.field "dtype" "float64"] else []
  if extras.isEmpty then head ++ body ++ ")"
  else
    let front := head ++ body ++ ","
    let back := commas extras ++ ")"
    let last := ((front.splitOn "\n").getLast?.getD "").length
    let gap := if arrayWidth < last + back.length + 1 then "\n" ++ padLeft head.length "" else " "
    front ++ gap ++ back

end PointRelaxation.Value
