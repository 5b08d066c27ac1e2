import PointRelaxation.Text.Blank

/-!
# Names of points

What may name a point.
-/

namespace PointRelaxation

/-- A text without one line break at its very end. -/
def withoutFinalBreak (cs : List Char) : List Char :=
  if cs.getLast? = some '\n' then cs.dropLast else cs

/-- Names have at least one character and no blanks. A line break that ends the text does not
count. -/
def isName (s : String) : Bool :=
  let cs := withoutFinalBreak s.toList
  !cs.isEmpty && cs.all (!Text.isBlank ·)

end PointRelaxation
