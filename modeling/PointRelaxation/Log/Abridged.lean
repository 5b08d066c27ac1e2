import PointRelaxation.Log.Array
import PointRelaxation.Log.Key
import PointRelaxation.Scene.Describe

/-!
# Abridged values

What a log writes of a value is cut in several ways. `outline` shows a value to a depth of six, with
at most six items of a sequence and four of a dictionary, and shortens long texts in the middle.
`abridged` is what a log line holds: it counts the entries of large mappings, shows four items of
long lists, sums up arrays, and cuts the rest.
-/

namespace PointRelaxation

open Text (braced commas ellipsis entry full listed quoted tupled)

namespace Value

/-! ## Shortened texts -/

/-- The lengths of the two ends of a text that is shortened to a limit. -/
def ends (limit : Nat) : Nat × Nat :=
  let head := (limit - 3) / 2
  (head, limit - 3 - head)

/-- The two ends of a text with a mark between them. -/
def withoutMiddle (limit : Nat) (s : String) : String :=
  let (head, tail) := ends limit
  let cs := s.toList
  String.ofList (cs.take head) ++ ellipsis ++ String.ofList (cs.drop (cs.length - tail))

/-- A text, without its middle if it is longer than a limit. -/
def shorten (limit : Nat) (s : String) : String :=
  if s.length ≤ limit then s else withoutMiddle limit s

/-- The last `n` characters of a text. The count is taken from the end of the text: one that is
missing from a text that is too short is missing from its end once more. -/
def tailOf (n : Nat) (cs : List Char) : List Char :=
  if n ≤ cs.length then cs.drop (cs.length - n) else cs.drop (2 * cs.length - n)

/-- The limit of quoted texts. -/
def textLimit : Nat := 30

/-- A quoted text, without its middle if it is long. Only the characters that may be shown are
quoted. -/
def shortText (s : String) : String :=
  let cs := s.toList
  let start := quoted (String.ofList (cs.take textLimit))
  if start.length ≤ textLimit then start
  else
    let (head, tail) := ends textLimit
    withoutMiddle textLimit (quoted (String.ofList (cs.take head ++ tailOf tail cs)))

/-- The limit of whole numbers. -/
def intLimit : Nat := 40

/-- The limit of all other texts. -/
def objectLimit : Nat := 160

/-! ## Outlines -/

/-- A value that holds no others, by its text. -/
def atom : Value → String
  | .absent => shorten objectLimit Text.absent
  | .truth b => shorten objectLimit (Text.truth b)
  | .int n => shorten intLimit (toString n)
  | .float x => shorten objectLimit (full x)
  | .text s => shortText s
  | .vec v => shorten objectLimit v.describe
  | .array shape numbers => shorten objectLimit (arrayText shape numbers)
  | .object s => shorten objectLimit s
  | _ => ellipsis

/-- The texts of at most `limit` items, and a mark if there are more. -/
def upTo {β : Type} (limit : Nat) (text : β → String) (items : List β) : List String :=
  (items.take limit).map text ++ if limit < items.length then [ellipsis] else []

/-- A value to the given depth. -/
def outline : Nat → Value → String
  | 0, .list items => listed (if items.isEmpty then [] else [ellipsis])
  | 0, .tuple items => tupled (if items.isEmpty then [] else [ellipsis])
  | 0, .mapping _ entries => braced (if entries.isEmpty then [] else [ellipsis])
  | depth + 1, .list items => listed (upTo 6 (outline depth) items)
  | depth + 1, .tuple items =>
    match items with
    | [item] => "(" ++ outline depth item ++ ",)"
    | items => tupled (upTo 6 (outline depth) items)
  | depth + 1, .mapping _ entries =>
    braced (upTo 4 (fun e => entry (outline depth e.1) (outline depth e.2)) (sortEntries entries))
  | _, v => atom v

/-! ## Abridged values -/

/-- A text that is cut at its end if it is longer than a log line may hold. -/
def cut (s : String) : String :=
  if s.length ≤ 300 then s else String.ofList (s.toList.take 300) ++ "... (truncated)"

mutual

/-- A value as a log line holds it. -/
def abridged : Value → String
  | .array shape numbers => summary shape numbers
  | .mapping type entries =>
    if 32 < entries.length then "<" ++ type ++ " with " ++ toString entries.length ++ " entries>"
    else braced (abridgedEntries 4 entries)
  | .list items =>
    if 4 < items.length then
      listed (abridgedItems 4 items ++ ["... (" ++ toString items.length ++ " items)"])
    else cut (outline 6 (.list items))
  | v => cut (outline 6 v)

/-- The first items of a list. -/
def abridgedItems : Nat → List Value → List String
  | 0, _ => []
  | _, [] => []
  | n + 1, v :: vs => abridged v :: abridgedItems n vs

/-- The first entries of a mapping, and a mark if there are more. -/
def abridgedEntries : Nat → List (Value × Value) → List String
  | _, [] => []
  | 0, _ => [ellipsis]
  | n + 1, (key, value) :: es => entry (abridged key) (abridged value) :: abridgedEntries n es

end

end Value

/-- The arguments of a call, by position and by name. -/
structure Call where
  arguments : List Value
  named : List (String × Value)

namespace Call

/-- The arguments of a call as a log line holds them. -/
def text (c : Call) : String :=
  let arguments :=
    if c.arguments.isEmpty then []
    else [Text.field "args" (listed (c.arguments.map Value.abridged))]
  let named :=
    if c.named.isEmpty then []
    else [Text.field "kwargs" (braced (c.named.map fun (name, v) => Text.field name v.abridged))]
  match arguments ++ named with
  | [] => "no-args"
  | parts => commas parts

end Call
end PointRelaxation
