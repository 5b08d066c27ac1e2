/-!
# Node names

Each point of a picture gets a name of ASCII letters and digits, distinct points distinct ones.
-/

namespace PointRelaxation.Picture

/-- The name that a point's node would have if no other node had it: a letter, and of the point's
name what a node name may hold. -/
def baseName (name : String) : String :=
  String.ofList ('p' :: name.toList.filter Char.isAlphanum)

/-- The `k`-th name tried for a node. The first is the base itself, the others have a number behind
it. -/
def attempt (base : String) (k : Nat) : String := if k ≤ 1 then base else base ++ toString k

/-- The first name from the `k`-th on that is not used.

A name that is used is struck from the list before the next is tried: the list gets shorter, and no
later name is equal to the one struck. -/
def fresh (base : String) (used : List String) (k : Nat) : String :=
  if h : attempt base k ∈ used then fresh base (used.erase (attempt base k)) (k + 1)
  else attempt base k
termination_by used.length
decreasing_by
  have := List.length_pos_of_mem h
  rw [List.length_erase_of_mem h]
  omega

/-- The names of the nodes of points, given those that are used already. -/
def assign (used : List String) : List String → List String
  | [] => []
  | name :: names =>
    let node := fresh (baseName name) used 1
    node :: assign (node :: used) names

/-- The points of a picture with the names of their nodes. -/
def nodeNames (names : List String) : List (String × String) := names.zip (assign [] names)

end PointRelaxation.Picture
