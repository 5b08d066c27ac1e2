import PointRelaxation.Sorting.Search

/-!
# Merging two runs

Two runs are merged from the front if the first is the shorter one, and from the end if the second
is. Items are taken one by one until one run has given many of them in a row; from then on whole
stretches are taken, as long as they are long enough to be worth a search. How many in a row are
many is the `patience`, which grows and shrinks with what has been worth it.
-/

namespace PointRelaxation.Sorting

variable {β : Type}

/-- How the next items are taken. -/
inductive Pace where
  /-- One by one, with the count of those that each run has just given in a row. -/
  | single (fewer more : Nat)
  | stretches
deriving DecidableEq, Repr

/-- A merge that is under way. Of either run the item that is next stands first. -/
structure Merge (β : Type) where
  /-- What is left of the run that is not longer than the other. -/
  fewer : List β
  more : List β
  /-- What has been taken, the latest first. -/
  taken : List β
  patience : Nat
  pace : Pace

namespace Merge

def takeFewer (k : Nat) (m : Merge β) : Merge β :=
  { m with fewer := m.fewer.drop k, taken := (m.fewer.take k).reverse ++ m.taken }

def takeMore (k : Nat) (m : Merge β) : Merge β :=
  { m with more := m.more.drop k, taken := (m.more.take k).reverse ++ m.taken }

/-- Whether nothing is left to compare. The last of the shorter run goes behind all others. -/
def ended (m : Merge β) : Bool := m.more.isEmpty || (m.fewer.drop 1).isEmpty

/-- The items of both runs in the order in which they are taken. -/
def items (m : Merge β) : List β := m.taken.reverse ++ m.more ++ m.fewer

variable (moreFirst? : β → β → Option Bool) (early : Bool)

/-- Takes what the shorter run has before the next item of the longer one, and then that item. -/
def stretchFewer (m : Merge β) : Option (Merge β × Nat) :=
  match m.more with
  | [] => some (m, 0)
  | next :: _ => do
    let k ← extent (fun b => return !(← moreFirst? next b)) early m.fewer
    let m := m.takeFewer k
    return (if m.ended then m else m.takeMore 1, k)

/-- Takes what the longer run has before the next item of the shorter one, and then that item. -/
def stretchMore (m : Merge β) : Option (Merge β × Nat) :=
  match m.fewer with
  | [] => some (m, 0)
  | next :: _ => do
    let k ← extent (fun b => moreFirst? b next) early m.more
    let m := m.takeMore k
    return (if m.ended then m else m.takeFewer 1, k)

/-- A stretch of this many items is worth a search. -/
def worthwhile : Nat := 7

/-- Takes two stretches, the first of them from the run that comes earlier in the whole. -/
def stretches (m : Merge β) : Option (Merge β) := do
  let first := if early then stretchMore moreFirst? early else stretchFewer moreFirst? early
  let second := if early then stretchFewer moreFirst? early else stretchMore moreFirst? early
  let (m, j) ← first m
  if m.ended then return m
  let (m, k) ← second m
  if m.ended then return m
  return if worthwhile ≤ j || worthwhile ≤ k then { m with patience := max 1 (m.patience - 1) }
    else { m with patience := m.patience + 1, pace := .single 0 0 }

/-- Takes one item. -/
def single (fewerInRow moreInRow : Nat) (m : Merge β) : Option (Merge β) :=
  match m.fewer, m.more with
  | b :: _, c :: _ => do
    let pace (inRow : Nat) (single : Pace) := if m.patience ≤ inRow then .stretches else single
    if ← moreFirst? c b then
      return { m.takeMore 1 with pace := pace (moreInRow + 1) (.single 0 (moreInRow + 1)) }
    else
      return { m.takeFewer 1 with pace := pace (fewerInRow + 1) (.single (fewerInRow + 1) 0) }
  | _, _ => some m

def step (m : Merge β) : Option (Merge β) :=
  match m.pace with
  | .single fewer more => m.single moreFirst? fewer more
  | .stretches => m.stretches moreFirst? early

/-- Goes on until nothing is left to compare, at most for a number of steps. -/
def run : Nat → Merge β → Option (Merge β)
  | 0, m => some m
  | n + 1, m => if m.ended then some m else do run n (← m.step moreFirst? early)

/-- Merges runs of which the first item of the longer one is known to be next. Each step takes an
item at least. -/
def ofRuns (patience : Nat) (fewer more : List β) : Option (Merge β) :=
  run moreFirst? early (fewer.length + more.length)
    (takeMore 1 ⟨fewer, more, [], patience, .single 0 0⟩)

end Merge

/-- Sorting goes on with some patience, and stops when two items that are compared have no order. -/
abbrev Patient := StateT Nat Option

variable (before? : β → β → Option Bool)

/-- The items of two runs in a row, of which the one in front comes earlier among equal items. What
is in its place already at the front of the first run and at the end of the second stays there. -/
def merge (a b : List β) : Patient (List β) := do
  let some first := b.head? | return a
  let ahead ← extent (fun c => return !(← before? first c)) false a
  let (front, a) := a.splitAt ahead
  let some last := a.getLast? | return front ++ b
  let behind ← extent (fun c => return !(← before? c last)) true b.reverse
  let (b, back) := b.splitAt (b.length - behind)
  if b.isEmpty then return front ++ a ++ back
  if a.length ≤ b.length then
    let m ← Merge.ofRuns before? false (← get) a b
    set m.patience
    return front ++ m.items ++ back
  else
    let m ← Merge.ofRuns (fun c d => before? d c) true (← get) b.reverse a.reverse
    set m.patience
    return front ++ m.items.reverse ++ back

end PointRelaxation.Sorting
