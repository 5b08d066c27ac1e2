/-!
# Searches among items in a row

Of the items in a row, those with a property come first. Where they end is found by halving, or by
leaps from the first item on and then by halving what the last leap has passed over. A search asks
for the property of few items, and of some of them it may turn out that they cannot be asked.
-/

namespace PointRelaxation.Sorting

variable {β : Type} (holds? : β → Option Bool)

/-- The end of the items with a property, known to be at least `low` and at most `high`. When two
items are in the middle, the first of them is asked if `early`. -/
def halve (early : Bool) (items : Array β) (low high : Nat) : Option Nat :=
  if _h : low < high then
    let middle := low + (high - low - early.toNat) / 2
    match items[middle]? with
    | none => none
    | some item => do
      if ← holds? item then halve early items (middle + 1) high else halve early items low middle
  else some low
termination_by high - low
decreasing_by all_goals omega

/-- Leaps twice as far each time as long as items have a property: the last place found to have it
and the first that is not known to. -/
def leap (items : Array β) (last next : Nat) : Option (Nat × Nat) :=
  if _h : next < items.size then do
    if ← holds? items[next] then leap items next (2 * next + 1) else return (last, next)
  else some (last, items.size)
termination_by items.size - next
decreasing_by omega

/-- How many items at the front have a property. -/
def extent (early : Bool) (items : List β) : Option Nat :=
  match items with
  | [] => some 0
  | first :: _ => do
    if ← holds? first then
      let (last, next) ← leap holds? items.toArray 0 1
      halve holds? early items.toArray (last + 1) next
    else return 0

end PointRelaxation.Sorting
