import PointRelaxation.Sorting.Merge

/-!
# Sorting by runs

Items that are in order already, or in the opposite order, are taken as one run. Short runs are
made longer by putting the items behind them into their places. Neighbouring runs are then merged,
those first whose middles are the closest. Items that are equal stay in their order. An item that
is neither before nor behind some others ends up where the comparisons with them lead it.
-/

namespace PointRelaxation.Sorting

variable {β : Type} (before? : β → β → Option Bool)

/-! ## Finding runs -/

/-- The items that go on from `last` in one direction, the latest first and in front of those that
are `taken`, and the items behind them. -/
def runOn (down : Bool) (last : β) (taken : List β) : List β → Option (List β × List β)
  | [] => some (taken, [])
  | b :: bs => do
    if (← before? b last) == down then runOn down b (b :: taken) bs else return (taken, b :: bs)

/-- The items that run in one direction from the start, in ascending order, and the items behind
them. Two items that are equal do not go down. -/
def firstRun : List β → Option (List β × List β)
  | a :: b :: bs => do
    let down ← before? b a
    let (run, rest) ← runOn before? down b [b, a] bs
    return (if down then run else run.reverse, rest)
  | bs => some (bs, [])

/-- Puts an item into its place among sorted ones, behind those that are equal to it. -/
def insertSorted (sorted : Array β) (b : β) : Option (Array β) := do
  let place ← halve (fun c => return !(← before? b c)) false sorted 0 sorted.size
  return sorted.insertIdxIfInBounds place b

/-- The first run with at least a number of items if there are so many, and the items behind it. -/
def longRun (least : Nat) (items : List β) : Option (List β × List β) := do
  let (run, rest) ← firstRun before? items
  let (added, rest) := rest.splitAt (least - run.length)
  let sorted ← added.foldlM (insertSorted before?) run.toArray
  return (sorted.toList, rest)

/-- The least length of a run: all items if they are fewer than 64, and else the number between 32
and 64 of which a power of two holds them all. -/
def leastRun (items : Nat) : Nat :=
  let runs := 1 <<< (items.log2 - 5)
  (items + runs - 1) / runs

/-! ## Merging runs -/

/-- A sorted run among all items. -/
structure Run (β : Type) where
  items : List β
  /-- How many items are in front of it. -/
  start : Nat
  /-- How close its middle is to that of the run behind it, the higher the closer. -/
  closeness : Nat

/-- The first binary place in which the middles of two neighbouring runs differ, as parts of the
whole. -/
def closenessOf (whole : Nat) (run : Run β) (next : Nat) : Nat :=
  let middle := 2 * run.start + run.items.length
  let nextMiddle := middle + run.items.length + next
  ((List.range (whole.log2 + 2)).find? fun k =>
    (middle <<< k) / whole != (nextMiddle <<< k) / whole).getD 0

/-- Merges a run with the run in front of it. -/
def Run.join (run front : Run β) : Patient (Run β) := do
  return { front with items := ← merge before? front.items run.items }

/-- Merges a run with those in front of it that are closer to each other than it is to the next. -/
def joinCloser (closeness : Nat) (run : Run β) : List (Run β) → Patient (List (Run β))
  | [] => return [{ run with closeness }]
  | front :: runs =>
    if closeness < front.closeness then do joinCloser closeness (← run.join before? front) runs
    else return { run with closeness } :: front :: runs

/-- Splits items into runs, the last first, and merges those that are close. Each run takes an item
at least. -/
def pile (whole : Nat) : Nat → List (Run β) → List β → Patient (List (Run β))
  | 0, runs, _ => return runs
  | _, runs, [] => return runs
  | n + 1, runs, items => do
    let (run, rest) ← longRun before? (leastRun whole) items
    let runs ← match runs with
      | [] => pure []
      | last :: runs => joinCloser before? (closenessOf whole last run.length) last runs
    pile whole n (⟨run, whole - items.length, 0⟩ :: runs) rest

/-- Merges all runs, the last first. Of three runs the outer one that is shorter is merged with the
run between them. -/
def joinAll (runs : List (Run β)) : Patient (List β) :=
  match runs with
  | [] => return []
  | [run] => return run.items
  | last :: run :: [] => do return (← last.join before? run).items
  | last :: run :: front :: runs => do
    if front.items.length < last.items.length then
      joinAll (last :: (← run.join before? front) :: runs)
    else joinAll ((← last.join before? run) :: front :: runs)
termination_by runs.length

/-- Items in ascending order; nothing if two that are compared have no order. -/
def sorted? (items : List β) : Option (List β) := do
  let sort : Patient (List β) := do
    joinAll before? (← pile before? items.length items.length [] items)
  let (sorted, _) ← sort.run Merge.worthwhile
  return sorted

end PointRelaxation.Sorting
