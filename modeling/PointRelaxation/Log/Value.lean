import PointRelaxation.Vec

/-!
# Values as a log shows them

The equality and the order of those that are keys are in `PointRelaxation.Log.Key`.
-/

namespace PointRelaxation

inductive Value where
  | absent
  | truth (b : Bool)
  | int (n : Int)
  | float (x : Float)
  | text (s : String)
  | vec (v : Vec Float)
  | list (items : List Value)
  | tuple (items : List Value)
  /-- Keys with values, in order, and the name of the type that holds them. -/
  | mapping (type : String) (entries : List (Value × Value))
  /-- Numbers in rows and columns: the extent in each direction, and the numbers in order. -/
  | array (shape : List Nat) (numbers : List Float)
  /-- A value that is shown by a text of its own. -/
  | object (text : String)

end PointRelaxation
