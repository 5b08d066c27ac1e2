import PointRelaxation.Text.Number

/-!
# Compact numbers

Numbers with at most four places, and none that are not needed.
-/

namespace PointRelaxation.Picture

/-- `± num / den` to four places, without trailing zeros, without a point that nothing follows, and
without a sign on zero. -/
def compact (negative : Bool) (num den : Nat) : List Char :=
  let cs := Text.dropTrailing '.' (Text.dropTrailing '0' (Text.fixed 4 negative num den))
  if cs = ['-', '0'] then ['0'] else cs

/-- A number as pictures hold it. -/
def number (x : Float) : String :=
  Text.writeFloat (fun negative significand exponent =>
    let (num, den) := Text.binaryRatio significand exponent
    compact negative num den) x

end PointRelaxation.Picture
